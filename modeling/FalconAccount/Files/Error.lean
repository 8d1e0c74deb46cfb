/-!
# Refusals of the operating system

The errors of file and program calls that can be met here, with the numbers and texts that the system
gives them. A text that holds a NUL is refused before the system is asked, and that error has no number.
-/

namespace FalconAccount

inductive OsError where
  | noEntry
  | argumentTooLong
  | noPermission
  | busy
  | alreadyExists
  | notDirectory
  | isDirectory
  | invalidArgument
  | nameTooLong
  /-- A path holds a NUL. -/
  | nulInPath
  /-- The name or an argument of a program holds a NUL. -/
  | nulInCommand
  /-- An error of another number and text. -/
  | other (number : Nat) (text : String)
  deriving DecidableEq, Repr

namespace OsError

def number? : OsError → Option Nat
  | .noEntry => some 2
  | .argumentTooLong => some 7
  | .noPermission => some 13
  | .busy => some 16
  | .alreadyExists => some 17
  | .notDirectory => some 20
  | .isDirectory => some 21
  | .invalidArgument => some 22
  | .nameTooLong => some 36
  | .nulInPath | .nulInCommand => none
  | .other number _ => some number

def text : OsError → String
  | .noEntry => "No such file or directory"
  | .argumentTooLong => "Argument list too long"
  | .noPermission => "Permission denied"
  | .busy => "Device or resource busy"
  | .alreadyExists => "File exists"
  | .notDirectory => "Not a directory"
  | .isDirectory => "Is a directory"
  | .invalidArgument => "Invalid argument"
  | .nameTooLong => "File name too long"
  | .nulInPath => "file name contained an unexpected NUL byte"
  | .nulInCommand => "nul byte found in provided data"
  | .other _ text => text

def message (e : OsError) : String :=
  match e.number? with
  | some number => s!"{e.text} (os error {number})"
  | none => e.text

end OsError

inductive ReplaceError where
  /-- The new content could not be written beside the file. -/
  | write (cause : OsError)
  /-- The new content could not be put in the place of the file. -/
  | rename (cause : OsError)
  deriving DecidableEq, Repr

def ReplaceError.chain : ReplaceError → List String
  | .write cause => [cause.message]
  | .rename cause => [s!"failed to persist temporary file: {cause.message}", cause.message]

end FalconAccount
