import FalconAccount.Bytes
import FalconAccount.Files.Error
import FalconAccount.Files.Path

/-!
# A file system

Directories and files below a root, a working directory where paths start that do not start at the root,
and directories in which programs are looked for. A place is given by the names that lead to it from the
root. A file has a number, which it keeps when it is moved. There are no links, and everyone may read and
write.
-/

namespace FalconAccount

structure File where
  content : Bytes
  executable : Bool
  deriving DecidableEq

inductive Entry where
  | directory
  | file (number : Nat)
  deriving DecidableEq

def Entry.nextNumber : Entry → Nat
  | .directory => 0
  | .file number => number + 1

structure FileSystem where
  entries : List (List String × Entry)
  /-- The files by their numbers. Only those count that are entries. -/
  files : Nat → File
  /-- The path of the working directory, without the slash in front. -/
  home : String
  /-- The paths of directories with programs. -/
  programPaths : List String

def maxNameSize : Nat := 255

def maxPathSize : Nat := 4095

def maxArgumentSize : Nat := 131071

def holdsNul (text : String) : Bool := text.toList.contains '\x00'

/-- Fails for a path that is not followed at all. -/
def checkPath (path : String) : Except OsError Unit :=
  if holdsNul path then .error .nulInPath
  else if maxPathSize < path.utf8ByteSize then .error .nameTooLong
  else .ok ()

namespace FileSystem

inductive Target where
  | directory (place : List String)
  | file (place : List String) (number : Nat)
  deriving DecidableEq

/-- What stands at a place; at the root there is a directory. -/
def entryAt (fs : FileSystem) (place : List String) : Option Entry :=
  if place.isEmpty then some .directory else fs.entries.lookup place

def step (fs : FileSystem) : Target → String → Except OsError Target
  | .file _ _, _ => .error .notDirectory
  | .directory place, name =>
    if isIdle name then .ok (.directory place)
    else if name = ".." then .ok (.directory place.dropLast)
    else if maxNameSize < name.utf8ByteSize then .error .nameTooLong
    else match fs.entryAt (place ++ [name]) with
      | none => .error .noEntry
      | some .directory => .ok (.directory (place ++ [name]))
      | some (.file number) => .ok (.file (place ++ [name]) number)

def follow (fs : FileSystem) (names : List String) : Except OsError Target :=
  names.foldlM fs.step (.directory [])

/-- A path from the root that leads where `path` leads. -/
def absolutePath (fs : FileSystem) (path : String) : String :=
  if isAbsolute path then path else String.join ["/", fs.home, "/", path]

/-- Where a path leads. An empty one leads nowhere. -/
def resolve (fs : FileSystem) (path : String) : Except OsError Target := do
  checkPath path
  if path.isEmpty then throw .noEntry
  else fs.follow (pathNames (fs.absolutePath path))

/-- The place and the number of the file that a path leads to. -/
def fileAt (fs : FileSystem) (path : String) : Except OsError (List String × Nat) := do
  match ← fs.resolve path with
  | .file place number => return (place, number)
  | .directory _ => throw .isDirectory

def read (fs : FileSystem) (path : String) : Except OsError Bytes := do
  let (_, number) ← fs.fileAt path
  return (fs.files number).content

/-- The same places, with one entry taken away. -/
def drop (fs : FileSystem) (place : List String) : FileSystem :=
  { fs with entries := fs.entries.filter (·.1 != place) }

/-- The same places, with a file at one of them. -/
def put (fs : FileSystem) (place : List String) (number : Nat) : FileSystem :=
  { fs with entries := (place, .file number) :: (fs.drop place).entries }

/-- The same places, with another file under a number. -/
def store (fs : FileSystem) (number : Nat) (file : File) : FileSystem :=
  { fs with files := fun n => if n = number then file else fs.files n }

/-- A number that no entry has. -/
def freshNumber (fs : FileSystem) : Nat :=
  (fs.entries.map (·.2.nextNumber)).foldr max 0

def add (fs : FileSystem) (place : List String) (file : File) : FileSystem :=
  (fs.put place fs.freshNumber).store fs.freshNumber file

/-- The directory in which the last name of a path is, that name, and whether slashes follow it. -/
def lastIn (fs : FileSystem) (path : String) : Except OsError (List String × String × Bool) := do
  checkPath path
  if path.isEmpty then throw .noEntry
  else
    let (parent, name, slash) := splitLast (fs.absolutePath path)
    match ← fs.follow parent with
    | .file _ _ => throw .notDirectory
    | .directory place => return (place, name, slash)

/-- Makes an empty file at a path where there is nothing. -/
def make (fs : FileSystem) (path : String) : Except OsError FileSystem := do
  let (place, name, slash) ← fs.lastIn path
  if isIdle name || name = ".." || slash then throw .isDirectory
  else if maxNameSize < name.utf8ByteSize then throw .nameTooLong
  else if (fs.entryAt (place ++ [name])).isSome then throw .alreadyExists
  else return fs.add (place ++ [name]) ⟨[], false⟩

/-- Makes an empty file at the first path where there is nothing, and tells the path. -/
def makeFirst (fs : FileSystem) : List String → Except OsError (String × FileSystem)
  | [] => .error .alreadyExists
  | path :: paths =>
    match fs.make path with
    | .ok after => .ok (path, after)
    | .error .alreadyExists => fs.makeFirst paths
    | .error e => .error e

def temporaryName (number : Nat) : String := s!".tmp{100000 + number}"

/-- Makes an empty file in a directory, under a new name. -/
def createTemporary (fs : FileSystem) (directory : String) :
    Except OsError (String × FileSystem) :=
  fs.makeFirst ((List.range (fs.entries.length + 1)).map fun n =>
    fs.absolutePath (String.join [directory, "/", temporaryName n]))

def write (fs : FileSystem) (path : String) (content : Bytes) : Except OsError FileSystem := do
  let (_, number) ← fs.fileAt path
  let file := fs.files number
  return fs.store number { file with content := file.content ++ content }

def remove (fs : FileSystem) (path : String) : Except OsError FileSystem := do
  let (place, _) ← fs.fileAt path
  return fs.drop place

/-- Moves the file at a path to another one, in the place of the file that is there. -/
def move (fs : FileSystem) (source target : String) : Except OsError FileSystem := do
  if holdsNul target then throw .invalidArgument
  else
    let (old, number) ← fs.fileAt source
    let (place, name, slash) ← fs.lastIn target
    if isIdle name || name = ".." then throw .busy
    else if maxNameSize < name.utf8ByteSize then throw .nameTooLong
    else if slash then throw .notDirectory
    else if fs.entryAt (place ++ [name]) = some .directory then throw .isDirectory
    else return (fs.drop old).put (place ++ [name]) number

def programAt (fs : FileSystem) (path : String) : Except OsError (List String) := do
  match ← fs.resolve path with
  | .file place number => if (fs.files number).executable then return place else throw .noPermission
  | .directory _ => throw .noPermission

/-- The place of the first program of a name in some directories. What may not be run is passed over. -/
def findProgram (fs : FileSystem) (name : String) :
    (denied : Bool) → List String → Except OsError (List String)
  | denied, [] => .error (if denied then .noPermission else .noEntry)
  | denied, directory :: directories =>
    match fs.programAt (String.join [directory, "/", name]) with
    | .error .noPermission => fs.findProgram name true directories
    | .error .noEntry | .error .notDirectory => fs.findProgram name denied directories
    | found => found

/-- The place of a program. One without a slash in its name is looked for. -/
def program (fs : FileSystem) (path : String) : Except OsError (List String) :=
  if path.toList.contains '/' then fs.programAt path
  else if path.isEmpty then .error .noEntry
  else fs.findProgram path false fs.programPaths

/-- The place of the program that starts when the one at a path is called with some arguments. -/
def start (fs : FileSystem) (path : String) (arguments : List String) :
    Except OsError (List String) := do
  if (path :: arguments).any holdsNul then throw .nulInCommand
  else
    let place ← fs.program path
    if arguments.any (maxArgumentSize < ·.utf8ByteSize) then throw .argumentTooLong
    else return place

end FileSystem

end FalconAccount
