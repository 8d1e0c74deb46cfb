import FalconAccount.Json.Parser

/-!
# Records in JSON

A record is an object with fixed names, or an array of its fields in order. Unknown names of an object
are skipped, but every name must be a text, and a known one may stand only once.
-/

namespace FalconAccount.Json

/-- The natural number of a value that fits in 64 bits. -/
def word? : Value → Option UInt64
  | .natural n => if n < UInt64.size then some (UInt64.ofNat n) else none
  | _ => none

def byte? : Value → Option UInt8
  | .natural n => if n < 256 then some (UInt8.ofNat n) else none
  | _ => none

def string? : Value → Option String
  | .string pieces => text? pieces
  | _ => none

def optionalWord? : Value → Option (Option UInt64)
  | .null => some none
  | v => (word? v).map some

/-- The values of a record by name, in the order of the names. -/
abbrev Record := List (String × Value)

def Record.get? (r : Record) (name : String) : Option Value := r.lookup name

def Record.required {α : Type} (r : Record) (name : String) (read : Value → Option α) : Option α := do
  read (← r.get? name)

def Record.optional {α : Type} (r : Record) (name : String) (missing : α) (read : Value → Option α) :
    Option α :=
  match r.get? name with
  | none => some missing
  | some v => read v

def hasDuplicate : List String → Bool
  | [] => false
  | name :: names => names.contains name || hasDuplicate names

/-- The entries of an object under known names. -/
def knownEntries? (names : List String) (entries : List (List Piece × Value)) : Option Record := do
  let named ← entries.mapM fun (key, value) => (text? key).map (·, value)
  let known := named.filter fun (name, _) => names.contains name
  if hasDuplicate (known.map (·.1)) then none else some known

def record? (names : List String) : Value → Option Record
  | .object entries => knownEntries? names entries
  | .array items => if names.length < items.length then none else some (names.zip items)
  | _ => none

end FalconAccount.Json
