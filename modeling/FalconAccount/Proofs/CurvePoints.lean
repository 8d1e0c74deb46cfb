import FalconAccount.Proofs.AccountSearch
import FalconAccount.Proofs.ByteNumbers
import FalconAccount.Proofs.CurveField

/-!
# Addresses off the curve

The test for the curve accepts exactly the byte strings that encode one of its points, canonically or
not: the sign bit does not matter, and a coordinate too large for the field counts as its residue. So the
account that a search finds has an address that no point of the curve is encoded by.
-/

namespace FalconAccount

namespace Curve

theorem natCast_d : (d : ZMod fieldSize) = -121665 / 121666 := by
  have hne : (121666 : ZMod fieldSize) ≠ 0 := by
    rw [← Nat.cast_ofNat, Ne, ZMod.natCast_eq_zero_iff]
    exact Nat.not_dvd_of_pos_of_lt (by norm_num) (by decide)
  have hle : 121665 ≤ fieldSize := by decide
  have hmul : ((d * 121666 : ℕ) : ZMod fieldSize) = ((fieldSize - 121665 : ℕ) : ZMod fieldSize) := by
    rw [← ZMod.natCast_mod, d_mul]
  rw [Nat.cast_mul, Nat.cast_sub hle, ZMod.natCast_self, zero_sub] at hmul
  rw [eq_div_iff hne]
  exact_mod_cast hmul

theorem natCast_numerator (y : ℕ) :
    ((squareRatio y).1 : ZMod fieldSize) = (y : ZMod fieldSize) ^ 2 - 1 := by
  have hle : 1 ≤ fieldSize := by decide
  rw [squareRatio, ZMod.natCast_mod, Nat.cast_add, Nat.cast_mul, Nat.cast_sub hle,
    ZMod.natCast_self, Nat.cast_one]
  ring

theorem natCast_denominator (y : ℕ) :
    ((squareRatio y).2 : ZMod fieldSize) = d * (y : ZMod fieldSize) ^ 2 + 1 := by
  rw [squareRatio, ZMod.natCast_mod]
  push_cast
  ring

theorem not_isSquare_d : ¬ IsSquare (d : ZMod fieldSize) := by
  rw [← isSquare_iff]
  decide +kernel

theorem isSquare_neg_one : IsSquare (-1 : ZMod fieldSize) :=
  ZMod.exists_sq_eq_neg_one_iff.mpr (by decide)

/-- The denominator is never zero, because the constant of the curve is no square. -/
theorem denominator_ne_zero (y : ZMod fieldSize) : d * y ^ 2 + 1 ≠ 0 := by
  intro hzero
  have hne : y ≠ 0 := by
    rintro rfl
    simp at hzero
  have hd : (d : ZMod fieldSize) = -1 / (y * y) := by
    rw [eq_div_iff (mul_ne_zero hne hne)]
    linear_combination hzero
  refine not_isSquare_d ?_
  rw [hd]
  exact isSquare_neg_one.div (IsSquare.mul_self y)

theorem isSquare_mul_iff {F : Type} [Field F] {a b : F} (hb : b ≠ 0) :
    IsSquare (a * b) ↔ ∃ x, x ^ 2 * b = a := by
  constructor
  · rintro ⟨r, hr⟩
    refine ⟨r / b, ?_⟩
    rw [div_pow, pow_two, ← hr]
    field_simp
  · rintro ⟨x, rfl⟩
    exact ⟨x * b, by ring⟩

/-- The test accepts a coordinate exactly if it is one of a point of the curve. -/
theorem contains_iff (bytes : Bytes) :
    contains bytes = true ↔ ∃ x : ZMod fieldSize, -x ^ 2 + (coordinate bytes : ZMod fieldSize) ^ 2 =
      1 + -121665 / 121666 * x ^ 2 * (coordinate bytes : ZMod fieldSize) ^ 2 := by
  have htest : contains bytes = isSquare ((squareRatio (coordinate bytes)).1 *
    (squareRatio (coordinate bytes)).2 % fieldSize) := rfl
  rw [htest, isSquare_iff, ZMod.natCast_mod, Nat.cast_mul, natCast_numerator, natCast_denominator,
    isSquare_mul_iff (denominator_ne_zero _), natCast_d]
  refine exists_congr fun x => ⟨fun h => ?_, fun h => ?_⟩
  · linear_combination -h
  · linear_combination -h

structure Point where
  x : ZMod fieldSize
  y : ZMod fieldSize
  onCurve : -x ^ 2 + y ^ 2 = 1 + -121665 / 121666 * x ^ 2 * y ^ 2

/-- The bytes encode the point, canonically or not: the number in their low 255 bits may be any of the
residue class of `y`, and the top bit is the parity of `x`, but may be set where `x` is zero. -/
structure Point.IsEncodedBy (P : Point) (bytes : Bytes) : Prop where
  length : bytes.length = 32
  y : ((Bytes.toNatLE bytes % 2 ^ 255 : ℕ) : ZMod fieldSize) = P.y
  sign : P.x = 0 ∨ Bytes.toNatLE bytes / 2 ^ 255 = P.x.val % 2

theorem natCast_coordinate (bytes : Bytes) :
    (coordinate bytes : ZMod fieldSize) = ((Bytes.toNatLE bytes % 2 ^ 255 : ℕ) : ZMod fieldSize) := by
  rw [coordinate, ZMod.natCast_mod, Nat.one_shiftLeft]

theorem exists_sign (x : ZMod fieldSize) {sign : ℕ} (hsign : sign < 2) :
    x = 0 ∨ sign = x.val % 2 ∨ sign = (-x).val % 2 := by
  rcases eq_or_ne x 0 with hzero | hne
  · exact .inl hzero
  · have hlt := x.val_lt
    have hodd : fieldSize % 2 = 1 := by decide
    rw [ZMod.neg_val, if_neg hne]
    omega

/-- A byte string of the right length passes the test exactly if it encodes a point. -/
theorem contains_iff_exists_point {bytes : Bytes} (h : bytes.length = 32) :
    contains bytes = true ↔ ∃ P : Point, P.IsEncodedBy bytes := by
  rw [contains_iff, natCast_coordinate]
  constructor
  · rintro ⟨x, hx⟩
    have hsign : Bytes.toNatLE bytes / 2 ^ 255 < 2 := by
      have hlt := Bytes.toNatLE_lt bytes
      rw [h] at hlt
      omega
    rcases exists_sign x hsign with hzero | hparity | hparity
    · exact ⟨⟨x, _, hx⟩, h, rfl, .inl hzero⟩
    · exact ⟨⟨x, _, hx⟩, h, rfl, .inr hparity⟩
    · exact ⟨⟨-x, _, by rw [neg_sq]; exact hx⟩, h, rfl, .inr hparity⟩
  · rintro ⟨P, -, hy, -⟩
    rw [hy]
    exact ⟨P.x, P.onCurve⟩

end Curve

namespace Address

open Curve

theorem isOnCurve_iff (a : Address) : a.isOnCurve = true ↔ ∃ P : Point, P.IsEncodedBy a.toList :=
  contains_iff_exists_point a.length_toList

theorem isOnCurve_congr {a b : Address}
    (h : Bytes.toNatLE b.toList % 2 ^ 255 ≡ Bytes.toNatLE a.toList % 2 ^ 255 [MOD fieldSize]) :
    b.isOnCurve = a.isOnCurve := by
  have hcoordinate : coordinate b.toList = coordinate a.toList := by
    rw [coordinate, coordinate, Nat.one_shiftLeft]
    exact h
  rw [isOnCurve, isOnCurve, contains, contains, hcoordinate]

/-- An address is on the curve exactly if its coordinate belongs to a point of the curve, and so exactly
if it encodes a point. Neither the sign bit nor the choice among the numbers of a residue class matters.
A search therefore accepts an address exactly if no point is encoded by it, canonically or not. -/
theorem isOnCurve_iff_exists_point (a : Address) :
    let y : ZMod fieldSize := (Bytes.toNatLE a.toList % 2 ^ 255 : ℕ)
    fieldSize = 2 ^ 255 - 19 ∧
      (a.isOnCurve = true ↔
        ∃ x : ZMod fieldSize, -x ^ 2 + y ^ 2 = 1 + -121665 / 121666 * x ^ 2 * y ^ 2) ∧
      (a.isOnCurve = true ↔ ∃ P : Point, P.IsEncodedBy a.toList) ∧
      (∀ b : Address,
        Bytes.toNatLE b.toList % 2 ^ 255 ≡ Bytes.toNatLE a.toList % 2 ^ 255 [MOD fieldSize] →
          b.isOnCurve = a.isOnCurve) ∧
      (∀ key counter, (Derivation.candidate key counter).isQuantumSafe = true ↔
        ¬ ∃ P : Point, P.IsEncodedBy (Derivation.candidate key counter).address.toList) ∧
      ∀ key d, Derivation.search key = .ok d →
        ¬ ∃ P : Point, P.IsEncodedBy d.address.toList := by
  intro y
  refine ⟨by decide, ?_, a.isOnCurve_iff, fun b => isOnCurve_congr, fun key counter => ?_,
    fun key d hsearch => ?_⟩
  · rw [isOnCurve, contains_iff, natCast_coordinate]
  · rw [Derivation.isQuantumSafe_eq_true_iff, ← isOnCurve_iff, Bool.not_eq_true]
  · obtain ⟨-, -, hsafe⟩ := Derivation.of_searchFrom hsearch
    rw [← isOnCurve_iff, (Derivation.isQuantumSafe_eq_true_iff d).mp hsafe]
    exact Bool.false_ne_true

/-- The neutral point, its coordinate written as one, and as one more than the size of the field with the
sign bit set; and an account that a search finds. -/
theorem isOnCurve_iff_exists_point_neutral :
    let canonical : Address := ⟨(Vector.replicate 32 0).set 0 1⟩
    let other : Address := ⟨(Vector.replicate 32 0xff).set 0 0xee⟩
    canonical.isOnCurve = true ∧ other.isOnCurve = true ∧
      ¬ ∃ P : Point, P.IsEncodedBy (Derivation.candidate onesKey 0).address.toList := by
  intro canonical other
  obtain ⟨-, hpoint, -, hcongr, -, hsearch⟩ := isOnCurve_iff_exists_point canonical
  have hy : Bytes.toNatLE canonical.toList % 2 ^ 255 = 1 := by decide
  have hcanonical : canonical.isOnCurve = true := hpoint.mpr ⟨0, by rw [hy]; simp⟩
  have hresidue : Bytes.toNatLE other.toList % 2 ^ 255 ≡
      Bytes.toNatLE canonical.toList % 2 ^ 255 [MOD fieldSize] := by decide
  exact ⟨hcanonical, (hcongr other hresidue).trans hcanonical, hsearch onesKey _ search_onesKey⟩

end Address

end FalconAccount
