import FalconAccount.Bytes
import FalconAccount.Text.Quoted

/-!
# Hexadecimal text

Two digits a byte, high half first. Digits are written in lower case and read in either. Reading works
on the bytes of the text, so an error names the position of a byte.
-/

namespace FalconAccount

inductive HexError where
  /-- The text has an odd number of bytes. -/
  | oddLength
  /-- The byte at `position` is no digit. -/
  | badDigit (byte : UInt8) (position : Nat)
  deriving DecidableEq, Repr

/-- The offending byte is shown as the character of the same number. -/
def HexError.message : HexError → String
  | .oddLength => "Odd number of digits"
  | .badDigit byte position =>
    s!"Invalid character {Text.quoteChar (Char.ofNat byte.toNat)} at position {position}"

namespace Hex

def digit (n : Nat) : Char :=
  if n < 10 then Char.ofNat (48 + n) else Char.ofNat (87 + n)

def ofByte (b : UInt8) : List Char :=
  [digit (b.toNat / 16), digit (b.toNat % 16)]

def chars (bs : Bytes) : List Char :=
  bs.flatMap ofByte

def encode (bs : Bytes) : String :=
  String.ofList (chars bs)

def value? (b : UInt8) : Option Nat :=
  let n := b.toNat
  if 48 ≤ n ∧ n ≤ 57 then some (n - 48)
  else if 97 ≤ n ∧ n ≤ 102 then some (n - 87)
  else if 65 ≤ n ∧ n ≤ 70 then some (n - 55)
  else none

/-- The number of the digit `b` found at `position`. -/
def valueAt (position : Nat) (b : UInt8) : Except HexError Nat :=
  match value? b with
  | some n => .ok n
  | none => .error (.badDigit b position)

/-- Reads digits in pairs; the first of them stands at `position`. -/
def decodePairs : (position : Nat) → Bytes → Except HexError Bytes
  | _, [] => .ok []
  | _, [_] => .error .oddLength
  | position, a :: b :: rest => do
    let high ← valueAt position a
    let low ← valueAt (position + 1) b
    let bytes ← decodePairs (position + 2) rest
    return UInt8.ofNat (high * 16 + low) :: bytes

/-- The byte string written by `digits`. An odd length is reported before any bad digit. -/
def decode (digits : Bytes) : Except HexError Bytes :=
  if digits.length % 2 = 1 then .error .oddLength else decodePairs 0 digits

@[simp] theorem length_chars (bs : Bytes) : (chars bs).length = 2 * bs.length := by
  induction bs with
  | nil => rfl
  | cons b bs ih => simp [chars, ofByte] at ih ⊢; omega

end Hex

end FalconAccount
