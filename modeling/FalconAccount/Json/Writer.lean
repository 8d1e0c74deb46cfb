/-!
# Writing JSON

Compact texts: no white space, and in strings no more escapes than needed.
-/

namespace FalconAccount.Json

def hexDigit (n : Nat) : Char := if n < 10 then Char.ofNat (48 + n) else Char.ofNat (87 + n)

/-- A character as it stands in a string. -/
def escape (c : Char) : List Char :=
  if c = '"' then ['\\', '"']
  else if c = '\\' then ['\\', '\\']
  else if c = '\x08' then ['\\', 'b']
  else if c = '\x0c' then ['\\', 'f']
  else if c = '\n' then ['\\', 'n']
  else if c = '\r' then ['\\', 'r']
  else if c = '\t' then ['\\', 't']
  else if c.toNat < 32 then ['\\', 'u', '0', '0', hexDigit (c.toNat / 16), hexDigit (c.toNat % 16)]
  else [c]

def writeString (text : String) : String :=
  String.ofList ('"' :: text.toList.flatMap escape ++ ['"'])

def writeArray (items : List String) : String :=
  String.join ["[", ",".intercalate items, "]"]

def writeObject (entries : List (String × String)) : String :=
  String.join ["\x7b",
    ",".intercalate (entries.map fun (name, value) => String.join [writeString name, ":", value]),
    "\x7d"]

end FalconAccount.Json
