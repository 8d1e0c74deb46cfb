import FalconAccount.Bytes

/-!
# Base-32 text without padding

A byte string is one number; its text is that number in base 32, shifted left until its length is a
multiple of five bits. Upper-case letters and the digits 2 to 7 are the symbols. Reading accepts only
what writing produces: the bits that the shift added must be zero.
-/

namespace FalconAccount.Base32

/-- The symbol for a number below 32. -/
def symbol (n : Nat) : Char :=
  if n < 26 then Char.ofNat (65 + n) else Char.ofNat (24 + n)

def value? (c : Char) : Option Nat :=
  if 'A' ≤ c ∧ c ≤ 'Z' then some (c.toNat - 65)
  else if '2' ≤ c ∧ c ≤ '7' then some (c.toNat - 24)
  else none

/-- How many symbols `n` bytes take. -/
def symbolCount (n : Nat) : Nat := (8 * n + 4) / 5

def chars (bs : Bytes) : List Char :=
  let count := symbolCount bs.length
  let padding := 5 * count - 8 * bs.length
  (Digits.ofNat 32 count (Bytes.toNat bs <<< padding)).map symbol

def encode (bs : Bytes) : String :=
  String.ofList (chars bs)

/-- The byte string written by `cs`; `none` if a character is no symbol, no byte string has a text of
this length, or a bit beyond the last byte is set. -/
def decode? (cs : List Char) : Option Bytes := do
  let values ← cs.mapM value?
  let size := 5 * cs.length / 8
  let padding := 5 * cs.length - 8 * size
  let number := Digits.toNat 32 values
  if padding < 5 ∧ number % (1 <<< padding) = 0 then
    some (Bytes.ofNat size (number >>> padding))
  else none

theorem value?_symbol {n : Nat} (h : n < 32) : value? (symbol n) = some n := by
  revert n
  decide

@[simp] theorem length_chars (bs : Bytes) : (chars bs).length = symbolCount bs.length := by
  simp [chars]

end FalconAccount.Base32
