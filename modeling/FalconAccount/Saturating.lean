/-!
# Arithmetic on words

Fees and rounds are 64-bit words; sums and products that do not fit stop at the largest word. Sizes are
words too, but a sum of sizes that does not fit has no value.
-/

namespace FalconAccount

def maxWord : Nat := UInt64.size - 1

theorem toNat_lt_or_eq_maxWord (n : UInt64) : n.toNat < maxWord ∨ n.toNat = maxWord := by
  have hn := n.toNat_lt_size
  rw [maxWord]
  omega

/-- The word nearest to a natural number. -/
def saturate (n : Nat) : UInt64 :=
  UInt64.ofNat (min n maxWord)

def saturatingAdd (a b : UInt64) : UInt64 :=
  saturate (a.toNat + b.toNat)

def saturatingMul (a b : UInt64) : UInt64 :=
  saturate (a.toNat * b.toNat)

@[simp] theorem toNat_saturate (n : Nat) : (saturate n).toNat = min n maxWord := by
  have : min n maxWord < UInt64.size := by unfold maxWord UInt64.size; omega
  rw [saturate, UInt64.toNat_ofNat', Nat.mod_eq_of_lt this]

@[simp] theorem toNat_saturatingAdd (a b : UInt64) :
    (saturatingAdd a b).toNat = min (a.toNat + b.toNat) maxWord := toNat_saturate _

@[simp] theorem toNat_saturatingMul (a b : UInt64) :
    (saturatingMul a b).toNat = min (a.toNat * b.toNat) maxWord := toNat_saturate _

theorem le_saturatingAdd (a b : UInt64) : a ≤ saturatingAdd a b := by
  have ha := a.toNat_lt_size
  rw [UInt64.le_iff_toNat_le, toNat_saturatingAdd, maxWord]
  omega

theorem saturatingAdd_assoc (a b c : UInt64) :
    saturatingAdd (saturatingAdd a b) c = saturatingAdd a (saturatingAdd b c) := by
  rw [← UInt64.toNat_inj]
  simp only [toNat_saturatingAdd]
  omega

theorem saturatingAdd_mono {a b c d : UInt64} (hab : a ≤ b) (hcd : c ≤ d) :
    saturatingAdd a c ≤ saturatingAdd b d := by
  rw [UInt64.le_iff_toNat_le] at hab hcd ⊢
  simp only [toNat_saturatingAdd]
  omega

def checkedAdd (a b : UInt64) : Option UInt64 :=
  if a.toNat + b.toNat < UInt64.size then some (a + b) else none

theorem checkedAdd_of_lt {a b : UInt64} (h : a.toNat + b.toNat < UInt64.size) :
    checkedAdd a b = some (a + b) := if_pos h

theorem toNat_add_of_lt {a b : UInt64} (h : a.toNat + b.toNat < UInt64.size) :
    (a + b).toNat = a.toNat + b.toNat := by
  rw [UInt64.toNat_add, Nat.mod_eq_of_lt h]

theorem saturate_toNat (a : UInt64) : saturate a.toNat = a := by
  have ha := a.toNat_lt_size
  rw [← UInt64.toNat_inj, toNat_saturate, maxWord]
  omega

theorem saturatingAdd_saturate (a : UInt64) (n : Nat) :
    saturatingAdd a (saturate n) = saturate (a.toNat + n) := by
  rw [← UInt64.toNat_inj]
  simp only [toNat_saturatingAdd, toNat_saturate]
  omega

theorem toNat_max (a b : UInt64) : (max a b).toNat = max a.toNat b.toNat := by
  change (if a ≤ b then b else a).toNat = _
  by_cases h : a ≤ b
  · rw [if_pos h, Nat.max_eq_right (UInt64.le_iff_toNat_le.mp h)]
  · rw [if_neg h, Nat.max_eq_left (UInt64.le_iff_toNat_le.mp (UInt64.le_of_lt (UInt64.not_le.mp h)))]

theorem le_max_word (a b : UInt64) : a ≤ max a b := by
  rw [UInt64.le_iff_toNat_le, toNat_max]
  exact Nat.le_max_left a.toNat b.toNat

theorem le_max_word_right (a b : UInt64) : b ≤ max a b := by
  rw [UInt64.le_iff_toNat_le, toNat_max]
  exact Nat.le_max_right a.toNat b.toNat

theorem max_word_of_le {a b : UInt64} (h : a ≤ b) : max a b = b := if_pos h

theorem max_max_word (a b : UInt64) : max (max a b) b = max a b := by
  rw [← UInt64.toNat_inj]
  simp only [toNat_max]
  omega

end FalconAccount
