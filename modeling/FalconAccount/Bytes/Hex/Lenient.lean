import FalconAccount.Bytes.Hex
import FalconAccount.Text.Blank

/-!
# Hexadecimal text as people write it

White space around the digits and one mark in front of them are dropped, and a missing first digit is
zero. What is left is read strictly.
-/

namespace FalconAccount.Hex

/-- The characters after a mark `0x` or `0X`. -/
def dropMark : List Char → List Char
  | '0' :: 'x' :: rest => rest
  | '0' :: 'X' :: rest => rest
  | cs => cs

/-- The same number in an even count of digits. -/
def padEven (digits : Bytes) : Bytes :=
  if digits.length % 2 = 1 then 0x30 :: digits else digits

/-- The byte string that a person wrote. -/
def read (text : List Char) : Except HexError Bytes :=
  decode (padEven (Bytes.ofChars (dropMark (Text.trim text))))

end FalconAccount.Hex
