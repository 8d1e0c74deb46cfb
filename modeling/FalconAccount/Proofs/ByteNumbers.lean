import FalconAccount.Bytes
import Mathlib.Tactic

/-!
# Numbers written in bytes read back

A numeral of fixed width holds every number below the power of the base: what is written into it is read
from it, and it is the only numeral of that width with its number. Stretches of known length come off
the front of a byte string whole.
-/

namespace FalconAccount

theorem Digits.toNat_ofNat {base width n : ℕ} (h : n < base ^ width) :
    toNat base (ofNat base width n) = n := by
  induction width generalizing n with
  | zero =>
    have hn : n = 0 := by simpa using h
    rw [hn, ofNat, toNat_nil]
  | succ width ih =>
    have hq : n / base < base ^ width := Nat.div_lt_of_lt_mul (by rwa [← pow_succ'])
    rw [ofNat, toNat_append_singleton, ih hq, Nat.mul_comm]
    exact Nat.div_add_mod n base

theorem Digits.toNat_lt {base : ℕ} {ds : List ℕ} (h : ∀ d ∈ ds, d < base) :
    toNat base ds < base ^ ds.length := by
  induction ds using List.reverseRecOn with
  | nil => simp
  | append_singleton ds d ih =>
    have hds : toNat base ds < base ^ ds.length := ih fun e he => h e (List.mem_append_left _ he)
    have hd : d < base := h d (by simp)
    rw [toNat_append_singleton, List.length_append, List.length_singleton, pow_succ]
    calc toNat base ds * base + d < (toNat base ds + 1) * base := by rw [add_one_mul]; omega
      _ ≤ base ^ ds.length * base := Nat.mul_le_mul_right base hds

/-- Digits below the base are the digits of their number. -/
theorem Digits.ofNat_toNat {base : ℕ} {ds : List ℕ} (h : ∀ d ∈ ds, d < base) :
    ofNat base ds.length (toNat base ds) = ds := by
  induction ds using List.reverseRecOn with
  | nil => rfl
  | append_singleton ds d ih =>
    have hds := ih fun e he => h e (List.mem_append_left _ he)
    have hd : d < base := h d (by simp)
    have hq : (toNat base ds * base + d) / base = toNat base ds := by
      rw [mul_comm, Nat.mul_add_div (by omega), Nat.div_eq_of_lt hd, add_zero]
    rw [List.length_append, List.length_singleton, ofNat, toNat_append_singleton, hq, hds,
      Nat.mul_add_mod_self_right, Nat.mod_eq_of_lt hd]

namespace Bytes

theorem map_toNat_ofNat (width n : ℕ) :
    (ofNat width n).map UInt8.toNat = Digits.ofNat 256 width n := by
  rw [ofNat, List.map_map]
  conv_rhs => rw [← List.map_id (Digits.ofNat 256 width n)]
  refine List.map_congr_left fun d hd => ?_
  have hlt : d < 256 := Digits.lt_of_mem_ofNat (by norm_num) hd
  simp [Nat.mod_eq_of_lt hlt]

theorem toNat_ofNat {width n : ℕ} (h : n < 256 ^ width) : toNat (ofNat width n) = n := by
  rw [toNat, map_toNat_ofNat, Digits.toNat_ofNat h]

theorem lt_of_mem_map_toNat (bs : Bytes) : ∀ d ∈ bs.map UInt8.toNat, d < 256 := by
  simpa using fun b _ => b.toNat_lt

theorem toNat_lt (bs : Bytes) : toNat bs < 256 ^ bs.length := by
  simpa [toNat] using Digits.toNat_lt (lt_of_mem_map_toNat bs)

theorem toNatLE_lt (bs : Bytes) : toNatLE bs < 256 ^ bs.length := by
  induction bs with
  | nil => simp [toNatLE]
  | cons b bs ih =>
    have hb := b.toNat_lt
    rw [toNatLE, List.length_cons, pow_succ]
    omega

/-- Every byte string is written by its number. -/
theorem ofNat_toNat (bs : Bytes) : ofNat bs.length (toNat bs) = bs := by
  have hdigits := Digits.ofNat_toNat (lt_of_mem_map_toNat bs)
  rw [List.length_map] at hdigits
  rw [ofNat, toNat, hdigits, List.map_map]
  simp [Function.comp_def]

theorem dropExact_append (bs rest : Bytes) : dropExact bs.length (bs ++ rest) = some rest := by
  induction bs with
  | nil => rfl
  | cons b bs ih => exact ih

theorem dropExact_append_of_length {n : ℕ} {bs : Bytes} (h : bs.length = n) (rest : Bytes) :
    dropExact n (bs ++ rest) = some rest :=
  h ▸ dropExact_append bs rest

end Bytes

end FalconAccount
