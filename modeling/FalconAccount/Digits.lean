/-!
# Positional numerals

Digits of a number in a base, most significant first, and the number with given digits. A numeral of
fixed width leaves out the digits of the number that do not fit.
-/

namespace FalconAccount.Digits

/-- The last `width` digits of `n` in `base`, most significant first. -/
def ofNat (base : Nat) : (width : Nat) → Nat → List Nat
  | 0, _ => []
  | width + 1, n => ofNat base width (n / base) ++ [n % base]

/-- The number with the digits `ds` in `base`. -/
def toNat (base : Nat) (ds : List Nat) : Nat :=
  ds.foldl (fun n d => n * base + d) 0

@[simp] theorem length_ofNat (base width n : Nat) : (ofNat base width n).length = width := by
  induction width generalizing n with
  | zero => rfl
  | succ width ih => simp [ofNat, ih]

theorem lt_of_mem_ofNat {base width n d : Nat} (h : 0 < base) (hd : d ∈ ofNat base width n) :
    d < base := by
  induction width generalizing n with
  | zero => simp [ofNat] at hd
  | succ width ih =>
    simp only [ofNat, List.mem_append, List.mem_singleton] at hd
    rcases hd with hd | rfl
    · exact ih hd
    · exact Nat.mod_lt _ h

@[simp] theorem toNat_nil (base : Nat) : toNat base [] = 0 := rfl

theorem toNat_append_singleton (base : Nat) (ds : List Nat) (d : Nat) :
    toNat base (ds ++ [d]) = toNat base ds * base + d := by
  simp [toNat]

end FalconAccount.Digits
