import FalconAccount.Text.Blank

/-!
# Paths

A path is a text of names with slashes between them. An empty name and a dot lead nowhere, and two dots
lead back.
-/

namespace FalconAccount

/-- The names in a path, with an empty one at each end that has a slash. -/
def pathNames (path : String) : List String :=
  (Text.splitWhere (· == '/') path.toList).map String.ofList

def isAbsolute (path : String) : Bool := path.toList.head? == some '/'

/-- True for a name that leads nowhere else. -/
def isIdle (name : String) : Bool := name = "" || name = "."

/-- The path of the directory that holds what a path leads to: the path before its last name, without the
idle names around that. Those further in front stay as they are. -/
def parentPath (path : String) : String :=
  let whole := Text.dropEndWhile isIdle (pathNames path)
  let parent := Text.dropEndWhile isIdle whole.dropLast
  if ! parent.isEmpty then "/".intercalate parent
  else if isAbsolute path && ! whole.isEmpty then "/"
  else "."

/-- A path in two parts: the names that lead to a directory, and the last name with whether slashes
follow it. -/
def splitLast (path : String) : List String × String × Bool :=
  let names := (pathNames path).reverse
  let trimmed := names.dropWhile (·.isEmpty)
  ((trimmed.drop 1).reverse, trimmed.headD "", trimmed.length < names.length)

end FalconAccount
