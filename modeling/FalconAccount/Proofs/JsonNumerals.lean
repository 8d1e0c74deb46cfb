import FalconAccount.Json.Record
import Mathlib.Tactic

/-!
# Natural numbers in JSON

The decimal digits of a natural number are read back as that number wherever no digit, fraction or
exponent follows. A record with a number in it is read accordingly, whatever the number.
-/

namespace FalconAccount.Json

def numeral (n : ℕ) : Bytes := (Nat.toDigits 10 n).map fun c => UInt8.ofNat c.toNat

theorem toNat_of_mem_toDigits {n : ℕ} {c : Char} (h : c ∈ Nat.toDigits 10 n) :
    48 ≤ c.toNat ∧ c.toNat ≤ 57 :=
  Char.isDigit_iff_toNat.mp (Nat.isDigit_of_mem_toDigits (by omega) le_rfl h)

theorem isDigit_of_mem_numeral {n : ℕ} {b : UInt8} (h : b ∈ numeral n) : isDigit b = true := by
  obtain ⟨c, hc, rfl⟩ := List.mem_map.mp h
  obtain ⟨hlow, hhigh⟩ := toNat_of_mem_toDigits hc
  simp only [isDigit, Bool.and_eq_true, decide_eq_true_eq, UInt8.le_iff_toNat_le]
  simp only [UInt8.toNat_ofNat', UInt8.reduceToNat]
  omega

theorem numeral_ne_nil (n : ℕ) : numeral n ≠ [] := by
  simp [numeral, Nat.toDigits_ne_nil]

theorem length_numeral_le {n : ℕ} (h : n < UInt64.size) : (numeral n).length ≤ maxDigits := by
  rw [numeral, List.length_map, Nat.length_toDigits_le_iff (by omega) (by decide)]
  exact h.trans (by decide)

theorem toNat_numeral (n : ℕ) : Digits.toNat 10 ((numeral n).map fun b => b.toNat - 48) = n := by
  have hmap : (numeral n).map (fun b => b.toNat - 48) =
      (Nat.toDigits 10 n).map fun c => c.toNat - '0'.toNat := by
    rw [numeral, List.map_map]
    refine List.map_congr_left fun c hc => ?_
    obtain ⟨hlow, hhigh⟩ := toNat_of_mem_toDigits hc
    simp only [Function.comp_apply, UInt8.toNat_ofNat']
    rw [Nat.mod_eq_of_lt (by omega)]
    rfl
  rw [hmap, Digits.toNat, List.foldl_map]
  refine Eq.trans ?_ (Nat.ofDigitChars_ten_toDigits (n := n))
  simp only [Nat.ofDigitChars, Nat.mul_comm]

theorem head_numeral_ne_zero {n : ℕ} (h : 0 < n) : (numeral n).head? ≠ some 0x30 := by
  induction n using Nat.strong_induction_on with
  | _ n ih =>
    rw [numeral, Nat.toDigits_eq_if (by omega)]
    by_cases hn : n < 10
    · rw [if_pos hn]
      interval_cases n <;> decide
    · have hne := numeral_ne_nil (n / 10)
      have hhead := ih (n / 10) (by omega) (by omega)
      rw [if_neg hn, List.map_append, ← numeral, List.head?_append_of_ne_nil _ hne]
      exact hhead

theorem numeral_zero : numeral 0 = [0x30] := by decide

theorem exists_numeral_eq_cons (n : ℕ) :
    ∃ lead digits, numeral n = lead :: digits ∧ isDigit lead = true ∧
      ∀ b ∈ digits, isDigit b = true := by
  obtain ⟨lead, digits, hnumeral⟩ := List.exists_cons_of_ne_nil (numeral_ne_nil n)
  have hdigit : ∀ b ∈ lead :: digits, isDigit b = true := by
    rw [← hnumeral]
    exact fun b => isDigit_of_mem_numeral
  exact ⟨lead, digits, hnumeral, hdigit lead List.mem_cons_self,
    fun b hb => hdigit b (List.mem_cons_of_mem lead hb)⟩

section Reading

variable {n : ℕ} {stop : UInt8} {rest : Bytes}

theorem integerPart?_numeral (hstop : isDigit stop = false) :
    integerPart? (numeral n ++ stop :: rest) = some (numeral n, stop :: rest) := by
  by_cases hn : n = 0
  · subst hn
    simp [numeral_zero, integerPart?, hstop]
  · obtain ⟨lead, digits, hnumeral, hlead, hdigits⟩ := exists_numeral_eq_cons n
    have hzero : lead ≠ 0x30 := by
      simpa [hnumeral] using head_numeral_ne_zero (Nat.pos_of_ne_zero hn)
    rw [hnumeral, List.cons_append, integerPart?]
    · rw [if_pos hlead, List.takeWhile_append_of_pos hdigits, List.dropWhile_append_of_pos hdigits]
      simp [hstop]
    · exact hzero

theorem number?_numeral (hn : n < UInt64.size) (hstop : isDigit stop = false)
    (hend : continuesNumber (stop :: rest) = false) :
    number? (numeral n ++ stop :: rest) = some (.natural n, stop :: rest) := by
  obtain ⟨lead, digits, hnumeral, hlead, -⟩ := exists_numeral_eq_cons n
  have hsign : ((numeral n ++ stop :: rest).head? == some 0x2d) = false := by
    rw [hnumeral, List.cons_append, List.head?_cons]
    refine beq_eq_false_iff_ne.mpr fun h => ?_
    obtain rfl := Option.some.inj h
    simp [isDigit] at hlead
  have hlength : ¬ maxDigits < (numeral n).length := Nat.not_lt.mpr (length_numeral_le hn)
  rw [number?, hsign]
  simp [integerPart?_numeral hstop, hend, hlength, toNat_numeral]

theorem isSpace_eq_false_of_isDigit {b : UInt8} (h : isDigit b = true) : isSpace b = false := by
  simp only [isDigit, Bool.and_eq_true, decide_eq_true_eq] at h
  obtain ⟨hlow, -⟩ := h
  have hne : ∀ space : UInt8, space < 0x30 → b ≠ space := by
    rintro space hspace rfl
    exact absurd hlow (UInt8.not_le.mpr hspace)
  simp [isSpace, hne]

theorem value?_numeral (hn : n < UInt64.size) (hstop : isDigit stop = false)
    (hend : continuesNumber (stop :: rest) = false) (fuel : ℕ) :
    value? (fuel + 1) (numeral n ++ stop :: rest) = some (.natural n, stop :: rest) := by
  obtain ⟨lead, digits, hnumeral, hlead, -⟩ := exists_numeral_eq_cons n
  have hdrop : dropSpace (numeral n ++ stop :: rest) = numeral n ++ stop :: rest := by
    rw [hnumeral, List.cons_append, dropSpace,
      List.dropWhile_cons_of_neg (by simp [isSpace_eq_false_of_isDigit hlead])]
  have hne : ∀ b tail, isDigit b = false → numeral n ++ stop :: rest ≠ b :: tail := by
    rintro b tail hb h
    obtain rfl : lead = b := by simpa [hnumeral] using congrArg List.head? h
    exact absurd hlead (by simp [hb])
  -- A digit starts no other value than a number.
  rw [value?, hdrop]
  split
  case h_7 => exact number?_numeral hn hstop hend
  all_goals exact absurd ‹_› (hne _ _ (by decide))

end Reading

theorem stringBody_plain {bs : Bytes} (h : ∀ b ∈ bs, 0x20 ≤ b ∧ b ≠ 0x22 ∧ b ≠ 0x5c) (rest : Bytes) :
    stringBody (bs ++ 0x22 :: rest) = some (bs.map .byte, rest) := by
  induction bs with
  | nil => simp [stringBody]
  | cons b bs ih =>
    obtain ⟨hlow, hquote, hescape⟩ := h b List.mem_cons_self
    have hbs := ih fun c hc => h c (List.mem_cons_of_mem b hc)
    rw [List.cons_append, stringBody]
    · have hplain : (b < 0x20 || b == 0x5c) = false := by
        simp [hescape, UInt8.not_lt.mpr hlow]
      rw [hplain, hbs]
      rfl
    · exact hquote
    · exact fun a b c d e h => absurd h hescape
    · exact fun a b h => absurd h hescape

def entry (name : String) (value : Bytes) : Bytes :=
  0x22 :: Bytes.ofString name ++ 0x22 :: 0x3a :: value

/-- True when a name stands for itself between quotes. -/
def isPlain (name : String) : Bool :=
  (Bytes.ofString name).all fun b => 0x20 ≤ b && b != 0x22 && b != 0x5c

section Objects

variable {name : String} {value rest rest' : Bytes} {v : Value} {fuel : ℕ}
  {entries : List (List Piece × Value)}

theorem stringBody_name (hname : isPlain name = true) (rest : Bytes) :
    stringBody (Bytes.ofString name ++ 0x22 :: rest) =
      some ((Bytes.ofString name).map .byte, rest) := by
  refine stringBody_plain (fun b hb => ?_) rest
  have hplain := List.all_eq_true.mp hname b hb
  simpa [and_assoc] using hplain

theorem entries?_entry (hname : isPlain name = true)
    (hvalue : value? fuel (value ++ rest) = some (v, rest)) :
    entries? (fuel + 1) (entry name value ++ rest) =
      match dropSpace rest with
      | 0x2c :: rest => (entries? fuel rest).map fun (entries, rest) =>
          (((Bytes.ofString name).map .byte, v) :: entries, rest)
      | 0x7d :: rest => some ([((Bytes.ofString name).map .byte, v)], rest)
      | _ => none := by
  have hstring := stringBody_name hname (0x3a :: value ++ rest)
  have hentry : entry name value ++ rest =
      0x22 :: (Bytes.ofString name ++ 0x22 :: (0x3a :: value ++ rest)) := by
    simp [entry]
  rw [hentry, entries?, dropSpace, List.dropWhile_cons_of_neg (by decide)]
  simp only [hstring, Option.bind_eq_bind, Option.bind_some]
  rw [dropSpace, List.cons_append, List.dropWhile_cons_of_neg (by decide)]
  change (value? fuel (value ++ rest)).bind _ = _
  rw [hvalue]
  rfl

theorem entries?_entry_next (hname : isPlain name = true)
    (hvalue : value? fuel (value ++ 0x2c :: rest) = some (v, 0x2c :: rest))
    (hrest : entries? fuel rest = some (entries, rest')) :
    entries? (fuel + 1) (entry name value ++ 0x2c :: rest) =
      some (((Bytes.ofString name).map .byte, v) :: entries, rest') := by
  rw [entries?_entry hname hvalue, show dropSpace (0x2c :: rest) = 0x2c :: rest from rfl]
  simp only [hrest, Option.map_some]

theorem entries?_entry_last (hname : isPlain name = true)
    (hvalue : value? fuel (value ++ 0x7d :: rest) = some (v, 0x7d :: rest)) :
    entries? (fuel + 1) (entry name value ++ 0x7d :: rest) =
      some ([((Bytes.ofString name).map .byte, v)], rest) := by
  rw [entries?_entry hname hvalue, show dropSpace (0x7d :: rest) = 0x7d :: rest from rfl]
  rfl

/-- An object is read from its entries. -/
theorem value?_object (h : entries? fuel (entry name value ++ rest) = some (entries, rest')) :
    value? (fuel + 1) (0x7b :: (entry name value ++ rest)) = some (.object entries, rest') := by
  obtain ⟨tail, htail⟩ : ∃ tail, entry name value ++ rest = 0x22 :: tail := ⟨_, rfl⟩
  rw [htail] at h ⊢
  rw [value?, show dropSpace (0x7b :: 0x22 :: tail) = 0x7b :: 0x22 :: tail from rfl]
  simp only [show dropSpace (0x22 :: tail) = 0x22 :: tail from rfl, h]
  rfl

theorem parse?_of_value? {bs : Bytes} (hbs : 2 ≤ bs.length)
    (h : ∀ fuel, value? (fuel + 4) bs = some (v, [])) : parse? bs = some v := by
  obtain ⟨fuel, hfuel⟩ : ∃ fuel, 2 * bs.length + 2 = fuel + 4 := ⟨2 * bs.length - 2, by omega⟩
  rw [parse?, hfuel, h fuel]
  rfl

end Objects

end FalconAccount.Json
