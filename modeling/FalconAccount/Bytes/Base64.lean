import FalconAccount.Bytes

/-!
# Base-64 text

The standard alphabet with required padding: four symbols for three bytes, and a last group of two or
three symbols filled up with equals signs. The bits beyond the last byte must be zero.
-/

namespace FalconAccount.Base64

def value? (c : Char) : Option Nat :=
  if 'A' ≤ c ∧ c ≤ 'Z' then some (c.toNat - 65)
  else if 'a' ≤ c ∧ c ≤ 'z' then some (c.toNat - 71)
  else if '0' ≤ c ∧ c ≤ '9' then some (c.toNat + 4)
  else if c = '+' then some 62
  else if c = '/' then some 63
  else none

/-- The bytes of a last group, which may be padded. -/
def lastGroup? (a b c d : Char) : Option Bytes := do
  let a ← value? a
  let b ← value? b
  if c = '=' ∧ d = '=' then
    if b % 16 = 0 then some (Bytes.ofNat 1 (a * 4 + b / 16)) else none
  else
    let c ← value? c
    if d = '=' then
      if c % 4 = 0 then some (Bytes.ofNat 2 (a * 1024 + b * 16 + c / 4)) else none
    else
      let d ← value? d
      some (Bytes.ofNat 3 (a * 262144 + b * 4096 + c * 64 + d))

/-- The bytes of a group that others follow. -/
def fullGroup? (a b c d : Char) : Option Bytes := do
  let values ← [a, b, c, d].mapM value?
  some (Bytes.ofNat 3 (Digits.toNat 64 values))

def decode? : List Char → Option Bytes
  | [] => some []
  | [a, b, c, d] => lastGroup? a b c d
  | a :: b :: c :: d :: rest => do
    let group ← fullGroup? a b c d
    let bytes ← decode? rest
    some (group ++ bytes)
  | _ => none

end FalconAccount.Base64
