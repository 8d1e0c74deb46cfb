import FalconAccount.Dialogue
import FalconAccount.Files.Error
import FalconAccount.Files.Path
import FalconAccount.Http
import FalconAccount.SigningTool

/-!
# What a command asks of the outside

Calls to the file system, requests over HTTP, and runs of programs. Each can fail; what is said about them
here holds whatever the answers are.
-/

namespace FalconAccount.CommandLine

/-- A question to the outside. -/
inductive Effect where
  /-- The content of a file. -/
  | read (path : String)
  /-- A new empty file in a directory; the answer is its path. -/
  | createTemporary (directory : String)
  /-- Adds content to a file. -/
  | write (path : String) (content : Bytes)
  /-- Has everything stored that was written to a file. -/
  | sync (path : String)
  /-- Moves a file to another path, in the place of the file that is there. -/
  | move (source target : String)
  | remove (path : String)
  | http (request : Http.Request)
  | runTool (call : ToolCall)
  deriving DecidableEq

abbrev Effect.Reply : Effect → Type
  | .read _ => Except OsError Bytes
  | .createTemporary _ => Except OsError String
  | .write _ _ | .sync _ | .move _ _ | .remove _ => Except OsError Unit
  | .http _ => Http.Reply
  | .runTool _ => Except OsError ToolResult

/-- A computation that asks the outside. -/
abbrev Action : Type → Type := Dialogue Effect Effect.Reply

/-- A computation that asks the outside and may fail. -/
abbrev Attempt : Type → Type := ExceptT Fault Action

namespace Attempt

def perform (e : Effect) : Attempt e.Reply := ExceptT.mk (.ask e fun reply => .done (.ok reply))

def ofExcept {α : Type} (result : Except Fault α) : Attempt α := ExceptT.mk (.done result)

end Attempt

/-- Takes a temporary file away. What comes of that is not looked at. -/
def discard (temporary : String) (cause : ReplaceError) : Action (Except ReplaceError Unit) :=
  .ask (.remove temporary) fun _ => .done (.error cause)

/-- Puts new content in the place of the file at a path: it is written to a temporary file beside it,
which is then moved. -/
def replaceFile (path : String) (content : Bytes) : Action (Except ReplaceError Unit) :=
  .ask (.createTemporary (parentPath path)) fun
    | .error e => .done (.error (.write e))
    | .ok temporary => .ask (.write temporary content) fun
      | .error e => discard temporary (.write e)
      | .ok _ => .ask (.sync temporary) fun
        | .error e => discard temporary (.write e)
        | .ok _ => .ask (.move temporary path) fun
          | .error e => discard temporary (.rename e)
          | .ok _ => .done (.ok ())

end FalconAccount.CommandLine
