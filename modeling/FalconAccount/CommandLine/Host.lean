import FalconAccount.CommandLine.Effect
import FalconAccount.Files.FileSystem

/-!
# A host to run on

A file system, a network, and programs in files, which together answer everything that a command can ask.
Calls to the file system take no time.
-/

namespace FalconAccount.CommandLine

/-- A network with programs, in states of type `τ`. -/
structure Host (τ : Type) where
  reply : τ → Http.Request → Http.Reply × τ
  /-- What the program at a place does. -/
  result : τ → (place : List String) → (arguments : List String) → ToolResult × τ
  /-- How long a request takes, in milliseconds. -/
  replyDelay : τ → Http.Request → Nat
  /-- How long a run of a program takes. A program that does not start takes no time. -/
  resultDelay : τ → ToolCall → Nat

namespace Host

variable {τ : Type}

/-- The answer to a call that may change the file system. -/
def change (s : FileSystem × τ) (result : Except OsError FileSystem) :
    Except OsError Unit × (FileSystem × τ) :=
  match result with
  | .ok fs => (.ok (), (fs, s.2))
  | .error e => (.error e, s)

def answer (h : Host τ) (s : FileSystem × τ) : (e : Effect) → e.Reply × (FileSystem × τ)
  | .read path => (s.1.read path, s)
  | .createTemporary directory =>
    match s.1.createTemporary directory with
    | .ok (path, fs) => (.ok path, (fs, s.2))
    | .error e => (.error e, s)
  | .write path content => change s (s.1.write path content)
  | .sync path => change s ((s.1.fileAt path).map fun _ => s.1)
  | .move source target => change s (s.1.move source target)
  | .remove path => change s (s.1.remove path)
  | .http request =>
    let (reply, t) := h.reply s.2 request
    (reply, (s.1, t))
  | .runTool call =>
    match s.1.start call.program call.arguments with
    | .error e => (.error e, s)
    | .ok place =>
      let (result, t) := h.result s.2 place call.arguments
      (.ok result, (s.1, t))

def delay (h : Host τ) (s : FileSystem × τ) : Effect → Nat
  | .http request => h.replyDelay s.2 request
  | .runTool call =>
    match s.1.start call.program call.arguments with
    | .error _ => 0
    | .ok _ => h.resultDelay s.2 call
  | _ => 0

end Host

end FalconAccount.CommandLine
