import FalconAccount.Bytes.Hex.Lenient
import FalconAccount.Files.Error
import FalconAccount.ProtocolError
import FalconAccount.Text.Utf8

/-!
# Signing with a separate program

The program is given the name of the key file and the message, and prints the signature. Its arguments
and its output are hexadecimal, so it can be any Falcon tool with a command line.
-/

namespace FalconAccount

structure ToolCall where
  program : String
  arguments : List String
  deriving DecidableEq, Repr

inductive Ending where
  | exit (code : Nat)
  | signal (number : Nat)
  deriving DecidableEq, Repr

structure ToolResult where
  ending : Ending
  output : Bytes
  errors : Bytes
  deriving DecidableEq, Repr

namespace Ending

/-- The names of the signals; there is none with the number zero. -/
def signalNames : List String :=
  ["", "SIGHUP", "SIGINT", "SIGQUIT", "SIGILL", "SIGTRAP", "SIGABRT", "SIGBUS", "SIGFPE", "SIGKILL",
    "SIGUSR1", "SIGSEGV", "SIGUSR2", "SIGPIPE", "SIGALRM", "SIGTERM", "SIGSTKFLT", "SIGCHLD",
    "SIGCONT", "SIGSTOP", "SIGTSTP", "SIGTTIN", "SIGTTOU", "SIGURG", "SIGXCPU", "SIGXFSZ",
    "SIGVTALRM", "SIGPROF", "SIGWINCH", "SIGIO", "SIGPWR", "SIGSYS"]

def text : Ending → String
  | .exit code => s!"exit status: {code}"
  | .signal number =>
    match signalNames[number]? with
    | some name => s!"signal: {number} ({name})"
    | none => s!"signal: {number}"

end Ending

namespace SigningTool

def call (program keyFile : String) (message : Bytes) : ToolCall :=
  ⟨program, ["sign", "--key", keyFile, "--msg", Hex.encode message, "--hex"]⟩

def readOutput (output : Bytes) : Except Fault Bytes :=
  match Utf8.decode output with
  | .error e => .error ⟨"signer output is not UTF-8", [e.message]⟩
  | .ok cs => (Hex.read cs).mapError fun e => ⟨"signer output is not hex", [e.message]⟩

/-- The fault of a run that did not end well. -/
def failure (program : String) (result : ToolResult) : Fault :=
  let errors := String.ofList (Text.trim (Utf8.decodeLossy result.errors))
  .plain s!"{program} exited with {result.ending.text}: {errors}"

def signature (program : String) : Except OsError ToolResult → Except Fault Bytes
  | .error e => .error ⟨s!"running {program}", [e.message]⟩
  | .ok result =>
    if result.ending = .exit 0 then readOutput result.output else .error (failure program result)

end SigningTool

end FalconAccount
