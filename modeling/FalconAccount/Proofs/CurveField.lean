import FalconAccount.Curve
import Mathlib.Data.List.Prime
import Mathlib.NumberTheory.LegendreSymbol.Basic
import Mathlib.NumberTheory.LucasPrimality
import Mathlib.Tactic

/-!
# The field of the curve

Powers are computed by repeated squaring. By powers the size of the field is certified to be a prime,
and by them the test for squares accepts exactly the squares of the field.
-/

namespace FalconAccount.Curve

theorem mul_self_mod_pow_mod (base k m : ℕ) : (base * base % m) ^ k % m = base ^ (2 * k) % m := by
  rw [← Nat.pow_mod, ← pow_two, ← pow_mul]

theorem powMod_eq (base exponent m : ℕ) : powMod base exponent m = base ^ exponent % m := by
  fun_induction powMod base exponent m with
  | case1 base => rw [pow_zero]
  | case2 base exponent hne half hodd ih =>
    have hexponent : 2 * (exponent / 2) + 1 = exponent := by omega
    have hhalf : half = base ^ (2 * (exponent / 2)) % m := ih.trans (mul_self_mod_pow_mod _ _ _)
    rw [hhalf, Nat.mul_mod_mod, ← pow_succ', hexponent]
  | case3 base exponent hne half heven ih =>
    have hexponent : 2 * (exponent / 2) = exponent := by omega
    have hhalf : half = base ^ (2 * (exponent / 2)) % m := ih.trans (mul_self_mod_pow_mod _ _ _)
    rw [hhalf, hexponent]

theorem powMod_eq_one_iff {m : ℕ} (hm : 1 < m) (base exponent : ℕ) :
    powMod base exponent m = 1 ↔ (base : ZMod m) ^ exponent = 1 := by
  have hcast : (base : ZMod m) ^ exponent = 1 ↔ ((base ^ exponent : ℕ) : ZMod m) = (1 : ℕ) := by
    push_cast
    rfl
  rw [powMod_eq, hcast, ZMod.natCast_eq_natCast_iff', Nat.mod_eq_of_lt hm]

/-- What shows a number to be prime: a residue of full order, and the primes whose product is one less
than the number. -/
structure Certificate where
  number : ℕ
  witness : ℕ
  factors : List ℕ

namespace Certificate

/-- Lucas's test, with factors among the numbers already known to be prime. -/
def check (known : List ℕ) (c : Certificate) : Bool :=
  c.factors.all known.contains && c.factors.prod + 1 == c.number &&
    powMod c.witness (c.number - 1) c.number == 1 &&
    c.factors.all fun q => powMod c.witness ((c.number - 1) / q) c.number != 1

/-- Each certificate may use the numbers of those before it. -/
def checkAll : (known : List ℕ) → List Certificate → Bool
  | _, [] => true
  | known, c :: cs => c.check known && checkAll (c.number :: known) cs

theorem prime_of_check {known : List ℕ} (hknown : ∀ q ∈ known, q.Prime) {c : Certificate}
    (h : c.check known = true) : c.number.Prime := by
  simp only [check, Bool.and_eq_true, List.all_eq_true, List.contains_iff_mem, beq_iff_eq,
    bne_iff_ne] at h
  obtain ⟨⟨⟨hmem, hprod⟩, hfermat⟩, horder⟩ := h
  have hprime : ∀ q ∈ c.factors, Prime q := fun q hq => (hknown q (hmem q hq)).prime
  have hpos : 0 < c.factors.prod :=
    List.prod_pos fun q hq => (hknown q (hmem q hq)).pos
  have hone : 1 < c.number := by omega
  refine lucas_primality c.number (c.witness : ZMod c.number)
    ((powMod_eq_one_iff hone _ _).mp hfermat) fun q hq hdvd => ?_
  rw [← hprod, Nat.add_sub_cancel] at hdvd
  have hfactor : q ∈ c.factors := mem_list_primes_of_dvd_prod hq.prime hprime hdvd
  rw [Ne, ← powMod_eq_one_iff hone]
  exact horder q hfactor

theorem prime_of_checkAll {known : List ℕ} (hknown : ∀ q ∈ known, q.Prime) {cs : List Certificate}
    (h : checkAll known cs = true) : ∀ c ∈ cs, c.number.Prime := by
  induction cs generalizing known with
  | nil => exact fun c hc => absurd hc List.not_mem_nil
  | cons c cs ih =>
    rw [checkAll, Bool.and_eq_true] at h
    have hc := prime_of_check hknown h.1
    exact List.forall_mem_cons.mpr ⟨hc, ih (List.forall_mem_cons.mpr ⟨hc, hknown⟩) h.2⟩

end Certificate

def smallPrimes : List ℕ :=
  [2, 3, 5, 7, 13, 19, 31, 47, 107, 127, 223, 353, 2437, 4153, 57467, 65147, 75707, 132049, 430751,
    569003, 1923133, 8574133]

/-- The certificate of the size of the field, after those of the primes it needs. -/
def certificates : List Certificate :=
  [⟨2773320623, 5, [2, 2437, 569003]⟩,
    ⟨72106336199, 7, [2, 13, 2773320623]⟩,
    ⟨1919519569386763, 2, [2, 3, 7, 19, 47, 47, 127, 8574133]⟩,
    ⟨31757755568855353, 10, [2, 2, 2, 3, 31, 107, 223, 4153, 430751]⟩,
    ⟨75445702479781427272750846543864801, 7,
      [2, 2, 2, 2, 2, 3, 3, 5, 5, 75707, 72106336199, 1919519569386763]⟩,
    ⟨74058212732561358302231226437062788676166966415465897661863160754340907, 2,
      [2, 3, 353, 57467, 132049, 1923133, 31757755568855353,
        75445702479781427272750846543864801]⟩,
    ⟨fieldSize, 2,
      [2, 2, 3, 65147, 74058212732561358302231226437062788676166966415465897661863160754340907]⟩]

theorem prime_of_mem_smallPrimes : ∀ q ∈ smallPrimes, q.Prime := by
  simp only [smallPrimes, List.forall_mem_cons]
  norm_num

theorem prime_fieldSize : fieldSize.Prime := by
  have hcheck : Certificate.checkAll smallPrimes certificates = true := by decide +kernel
  exact Certificate.prime_of_checkAll prime_of_mem_smallPrimes hcheck
    ⟨fieldSize, 2, _⟩ (List.mem_of_getLast? rfl)

instance : Fact fieldSize.Prime := ⟨prime_fieldSize⟩

/-- The test finds exactly the squares. -/
theorem isSquare_iff (n : ℕ) : isSquare n = true ↔ IsSquare (n : ZMod fieldSize) := by
  have hhalf : (fieldSize - 1) / 2 = fieldSize / 2 := by decide
  rw [isSquare, Bool.or_eq_true, beq_iff_eq, beq_iff_eq, hhalf,
    powMod_eq_one_iff prime_fieldSize.one_lt, ← Nat.dvd_iff_mod_eq_zero,
    ← ZMod.natCast_eq_zero_iff]
  by_cases hzero : (n : ZMod fieldSize) = 0
  · simp [hzero]
  · rw [ZMod.euler_criterion fieldSize hzero]
    simp [hzero]

end FalconAccount.Curve
