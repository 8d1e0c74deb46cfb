import FalconAccount.Bytes

/-!
# Variable-length unsigned numbers

Seven bits a byte, lowest first; every byte but the last has its high bit set.
-/

namespace FalconAccount.Varuint

def encode (n : Nat) : Bytes :=
  if n < 128 then [UInt8.ofNat n] else UInt8.ofNat (n % 128 + 128) :: encode (n / 128)
termination_by n
decreasing_by omega

/-- The number at the start of `bs` and the bytes after it; `none` if `bs` ends inside it. -/
def decode? : Bytes → Option (Nat × Bytes)
  | [] => none
  | b :: rest =>
    if b.toNat < 128 then some (b.toNat, rest)
    else (decode? rest).map fun (n, after) => (b.toNat - 128 + 128 * n, after)

theorem toNat_ofNat_of_lt {n : Nat} (h : n < 256) : (UInt8.ofNat n).toNat = n := by
  simp [Nat.mod_eq_of_lt h]

/-- A number reads back, whatever bytes follow it. -/
theorem decode?_encode_append (n : Nat) (rest : Bytes) :
    decode? (encode n ++ rest) = some (n, rest) := by
  induction n using Nat.strongRecOn with
  | ind n ih =>
    rw [encode]
    split
    · next h => simp [decode?, toNat_ofNat_of_lt (Nat.lt_trans h (by decide)), h]
    · next h =>
      have byte := toNat_ofNat_of_lt (n := n % 128 + 128) (by omega)
      simp only [List.cons_append, decode?, byte, ih (n / 128) (by omega)]
      rw [if_neg (by omega)]
      simp only [Option.map_some, Option.some.injEq, Prod.mk.injEq, and_true]
      omega

end FalconAccount.Varuint
