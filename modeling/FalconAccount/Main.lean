import FalconAccount.CommandLine.Program
import FalconAccount.Files.FileSystem

/-!
# The program

Carries out the command line on a host with files but without a network and without other programs: a
payment ends at the first request to its node.
-/

namespace FalconAccount.CommandLine

def osError (e : IO.Error) : OsError :=
  match e with
  | .noFileOrDirectory _ _ _ => .noEntry
  | .permissionDenied _ _ _ => .noPermission
  | .alreadyExists _ _ _ => .alreadyExists
  | .inappropriateType _ code text => ofCode code text
  | .resourceBusy code text => ofCode code text
  | .invalidArgument _ code text => ofCode code text
  | .otherError code text => ofCode code text
  | e => .other 5 (toString e)
where
  /-- Some calls give the number of an error with the opposite sign. -/
  ofCode (code : UInt32) (text : String) : OsError :=
    let number := min code (-code)
    if number = 16 then .busy
    else if number = 20 then .notDirectory
    else if number = 21 then .isDirectory
    else if number = 22 then .invalidArgument
    else if number = 36 then .nameTooLong
    else .other number.toNat text

def attemptHere {α : Type} (call : IO α) : IO (Except OsError α) := do
  return (← call.toBaseIO).mapError osError

/-- Makes a file that only its owner can read. -/
def createHere (directory : String) : IO String := do
  let path := String.join [directory, "/", FileSystem.temporaryName (← IO.monoNanosNow)]
  IO.FS.withFile path .writeNew fun _ => pure ()
  IO.setAccessRights path ⟨⟨true, true, false⟩, ⟨false, false, false⟩, ⟨false, false, false⟩⟩
  return path

def answerHere : (e : Effect) → IO e.Reply
  | .read path => attemptHere do return (← IO.FS.readBinFile path).toList
  | .createTemporary directory => attemptHere (createHere directory)
  | .write path content => attemptHere do
      IO.FS.withFile path .append fun file => file.write ⟨content.toArray⟩
  | .sync path => attemptHere do IO.FS.withFile path .append fun file => file.flush
  | .move source target => attemptHere (IO.FS.rename source target)
  | .remove path => attemptHere (IO.FS.removeFile path)
  | .http _ => return .unreachable
  | .runTool _ => return .error .noEntry

/-- Carries out a command, without a limit on its time. -/
def Command.run (c : Command) : IO Report := do
  match ← c.opening.runIn answerHere with
  | .over report => return report
  | .sending p ready => return paymentReport (← (session p ready).runIn answerHere)

def readEnvironment : IO Environment := do
  return {
    network := ← IO.getEnv "PQLEDGER_NETWORK"
    nodeUrl := ← IO.getEnv "ALGOD_URL"
    nodeToken := ← IO.getEnv "ALGOD_TOKEN"
    signer := ← IO.getEnv "PQLEDGER_SIGNER" }

def Report.conclude (r : Report) : IO UInt32 := do
  IO.print r.output
  IO.eprint r.errors
  return UInt32.ofNat r.exitCode

end FalconAccount.CommandLine

open FalconAccount CommandLine in
/-- Carries out the command line. Only exit codes tell of help and of errors in it. -/
def main (arguments : List String) : IO UInt32 := do
  match parse (← readEnvironment) arguments with
  | .error stop => (stop.report "" fun _ => "").conclude
  | .ok command => (← command.run).conclude
