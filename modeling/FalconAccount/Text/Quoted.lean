import FalconAccount.Text.Unprintable
import FalconAccount.Text.Combining

/-!
# Quoted text in messages

A text between double quotes or a character between single ones: the mark itself and backslashes are
escaped, the four common controls have short forms, and characters that would not show, or would be
drawn onto their neighbour, are given by code point.
-/

namespace FalconAccount.Text

def hexNumber (n : Nat) : List Char :=
  Nat.toDigits 16 n

/-- A character as it stands between two marks. -/
def escapeChar (mark c : Char) : List Char :=
  if c = '\x00' then ['\\', '0']
  else if c = '\t' then ['\\', 't']
  else if c = '\r' then ['\\', 'r']
  else if c = '\n' then ['\\', 'n']
  else if c = mark || c = '\\' then ['\\', c]
  else if isCombining c || isUnprintable c then
    ['\\', 'u', '\x7b'] ++ hexNumber c.toNat ++ ['\x7d']
  else [c]

def quote (cs : List Char) : String :=
  String.ofList ('"' :: cs.flatMap (escapeChar '"') ++ ['"'])

def quoteChar (c : Char) : String :=
  String.ofList ('\x27' :: escapeChar '\x27' c ++ ['\x27'])

end FalconAccount.Text
