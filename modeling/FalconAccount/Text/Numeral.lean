/-!
# Reading 64-bit numbers

An optional plus sign and at least one digit. Digits are read from the left; a character that is no
digit is reported before an overflow at the same place.
-/

namespace FalconAccount

inductive NumeralError where
  /-- There is no digit and no sign. -/
  | empty
  /-- A character is no digit of the base, or a sign stands alone. -/
  | invalidDigit
  /-- The number does not fit in 64 bits. -/
  | tooLarge
  deriving DecidableEq, Repr

def NumeralError.message : NumeralError → String
  | .empty => "cannot parse integer from empty string"
  | .invalidDigit => "invalid digit found in string"
  | .tooLarge => "number too large to fit in target type"

namespace Numeral

/-- The number a digit stands for in `base`, letters of either case counting from ten. -/
def digit? (base : Nat) (c : Char) : Option Nat :=
  let n :=
    if '0' ≤ c ∧ c ≤ '9' then c.toNat - 48
    else if 'a' ≤ c ∧ c ≤ 'z' then c.toNat - 87
    else if 'A' ≤ c ∧ c ≤ 'Z' then c.toNat - 55
    else base
  if n < base then some n else none

/-- Reads the digits that follow a number read so far. -/
def readDigits (base : Nat) : (soFar : Nat) → List Char → Except NumeralError Nat
  | soFar, [] => .ok soFar
  | soFar, c :: cs =>
    match digit? base c with
    | none => .error .invalidDigit
    | some d =>
      if soFar * base + d < UInt64.size then readDigits base (soFar * base + d) cs
      else .error .tooLarge

def read (base : Nat) (cs : List Char) : Except NumeralError UInt64 :=
  let digits (cs : List Char) := (readDigits base 0 cs).map UInt64.ofNat
  match cs with
  | [] => .error .empty
  | ['+'] => .error .invalidDigit
  | '+' :: rest => digits rest
  | _ => digits cs

end Numeral

end FalconAccount
