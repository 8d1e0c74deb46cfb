import FalconAccount.Bytes.Base32
import FalconAccount.Proofs.ByteNumbers
import Mathlib.Data.String.Basic

/-!
# Base-32 text is unique

A text of symbols has some whole bytes and at most four spare bits, which belong to its last symbol. What
was written is read back, and a text is read only if it is what writing gives: with a spare bit set, it
would be a second spelling of the same bytes.
-/

namespace FalconAccount.Base32

def IsSymbol (c : Char) : Prop := ('A' ≤ c ∧ c ≤ 'Z') ∨ ('2' ≤ c ∧ c ≤ '7')

theorem value?_eq_none_iff {c : Char} : value? c = none ↔ ¬ IsSymbol c := by
  unfold value? IsSymbol
  split_ifs with hletter hdigit
  · simp [hletter]
  · simp [hdigit]
  · simp [hletter, hdigit]

theorem symbol_of_value? {c : Char} {v : ℕ} (h : value? c = some v) : v < 32 ∧ symbol v = c := by
  unfold value? at h
  simp only [Char.le_def, UInt32.le_iff_toNat_le] at h
  split_ifs at h with hletter hdigit
  · obtain ⟨hlow, hhigh⟩ := hletter
    change 65 ≤ c.toNat at hlow
    change c.toNat ≤ 90 at hhigh
    obtain rfl := Option.some.inj h
    refine ⟨by omega, ?_⟩
    rw [symbol, if_pos (by omega), Nat.add_sub_cancel' hlow, Char.ofNat_toNat]
  · obtain ⟨hlow, hhigh⟩ := hdigit
    change 50 ≤ c.toNat at hlow
    change c.toNat ≤ 55 at hhigh
    obtain rfl := Option.some.inj h
    refine ⟨by omega, ?_⟩
    rw [symbol, if_neg (by omega), Nat.add_sub_cancel' (by omega), Char.ofNat_toNat]

theorem IsSymbol.utf8Size {c : Char} (h : IsSymbol c) : c.utf8Size = 1 := by
  rw [Char.utf8Size_eq_one_iff]
  rcases h with ⟨-, h⟩ | ⟨-, h⟩
  · exact UInt32.le_trans h (by decide)
  · exact UInt32.le_trans h (by decide)

theorem utf8Len_of_isSymbol {cs : List Char} (h : ∀ c ∈ cs, IsSymbol c) :
    String.utf8Len cs = cs.length := by
  induction cs with
  | nil => rfl
  | cons c cs ih =>
    have hcs := ih fun d hd => h d (List.mem_cons_of_mem c hd)
    rw [String.utf8Len_cons, hcs, (h c List.mem_cons_self).utf8Size, List.length_cons]

section Values

variable {cs : List Char} {values : List ℕ}

theorem mapM_value?_map_symbol (h : ∀ v ∈ values, v < 32) :
    (values.map symbol).mapM value? = some values := by
  induction values with
  | nil => rfl
  | cons v values ih =>
    rw [List.map_cons, List.mapM_cons, value?_symbol (h v List.mem_cons_self),
      ih fun w hw => h w (List.mem_cons_of_mem v hw)]
    rfl

theorem eq_map_symbol_of_mapM_value? (h : cs.mapM value? = some values) :
    cs = values.map symbol ∧ ∀ v ∈ values, v < 32 := by
  induction cs generalizing values with
  | nil =>
    obtain rfl : values = [] := (Option.some.inj h).symm
    simp
  | cons c cs ih =>
    rw [List.mapM_cons] at h
    obtain ⟨v, hv, h⟩ := Option.bind_eq_some_iff.mp h
    obtain ⟨vs, hvs, h⟩ := Option.bind_eq_some_iff.mp h
    obtain rfl : v :: vs = values := Option.some.inj h
    obtain ⟨hlt, hsymbol⟩ := symbol_of_value? hv
    obtain ⟨hcs, hvalues⟩ := ih hvs
    exact ⟨by rw [List.map_cons, hsymbol, ← hcs], by simpa [hlt] using hvalues⟩

theorem mapM_value?_eq_none_iff : cs.mapM value? = none ↔ ∃ c ∈ cs, ¬ IsSymbol c := by
  induction cs with
  | nil => simp
  | cons c cs ih =>
    rw [List.mapM_cons]
    cases hv : value? c with
    | none => simp [value?_eq_none_iff.mp hv]
    | some v =>
      have hc : IsSymbol c := by
        by_contra hc
        rw [value?_eq_none_iff.mpr hc] at hv
        cases hv
      simp only [List.mem_cons, exists_eq_or_imp, hc, not_true_eq_false, false_or, ← ih]
      cases cs.mapM value? <;> simp

end Values

/-- The number of bytes that `n` symbols hold whole. -/
def byteCount (n : ℕ) : ℕ := 5 * n / 8

/-- The number of bits that `n` symbols have beyond their whole bytes. -/
def spareBits (n : ℕ) : ℕ := 5 * n - 8 * byteCount n

theorem byteCount_add_spareBits (n : ℕ) : 8 * byteCount n + spareBits n = 5 * n := by
  unfold spareBits byteCount
  omega

@[simp] theorem byteCount_symbolCount (n : ℕ) : byteCount (symbolCount n) = n := by
  unfold byteCount symbolCount
  omega

theorem spareBits_symbolCount_lt (n : ℕ) : spareBits (symbolCount n) < 5 := by
  have hbits := byteCount_add_spareBits (symbolCount n)
  rw [byteCount_symbolCount] at hbits
  unfold symbolCount at hbits ⊢
  omega

theorem symbolCount_byteCount {n : ℕ} (h : spareBits n < 5) : symbolCount (byteCount n) = n := by
  have hbits := byteCount_add_spareBits n
  unfold symbolCount
  omega

theorem pow_byteCount_mul (n : ℕ) : 256 ^ byteCount n * 2 ^ spareBits n = 32 ^ n := by
  rw [show 256 = 2 ^ 8 from rfl, show 32 = 2 ^ 5 from rfl, ← pow_mul, ← pow_mul, ← pow_add,
    byteCount_add_spareBits]

theorem chars_eq (bs : Bytes) :
    chars bs = (Digits.ofNat 32 (symbolCount bs.length)
      (Bytes.toNat bs * 2 ^ spareBits (symbolCount bs.length))).map symbol := by
  rw [chars, Nat.shiftLeft_eq, spareBits, byteCount_symbolCount]

/-- Reading characters with values: the spare bits must be zero, and the others are the bytes. -/
theorem decode?_of_mapM_value? {cs : List Char} {values : List ℕ}
    (h : cs.mapM value? = some values) :
    decode? cs =
      if spareBits cs.length < 5 ∧ Digits.toNat 32 values % 2 ^ spareBits cs.length = 0 then
        some (Bytes.ofNat (byteCount cs.length)
          (Digits.toNat 32 values / 2 ^ spareBits cs.length))
      else none := by
  rw [decode?, h, spareBits, byteCount, ← Nat.shiftRight_eq_div_pow, ← Nat.one_shiftLeft]
  rfl

theorem decode?_chars (bs : Bytes) : decode? (chars bs) = some bs := by
  have hspare := spareBits_symbolCount_lt bs.length
  have hlt : Bytes.toNat bs * 2 ^ spareBits (symbolCount bs.length) < 32 ^ symbolCount bs.length := by
    rw [← pow_byteCount_mul, byteCount_symbolCount]
    exact Nat.mul_lt_mul_of_pos_right (Bytes.toNat_lt bs) (Nat.two_pow_pos _)
  have hvalues : (chars bs).mapM value? = some (Digits.ofNat 32 (symbolCount bs.length)
      (Bytes.toNat bs * 2 ^ spareBits (symbolCount bs.length))) := by
    rw [chars_eq]
    exact mapM_value?_map_symbol fun v hv => Digits.lt_of_mem_ofNat (by norm_num) hv
  rw [decode?_of_mapM_value? hvalues, length_chars, Digits.toNat_ofNat hlt, byteCount_symbolCount,
    if_pos ⟨hspare, Nat.mul_mod_left _ _⟩, Nat.mul_div_cancel _ (Nat.two_pow_pos _),
    Bytes.ofNat_toNat]

theorem eq_chars_of_decode? {cs : List Char} {bs : Bytes} (h : decode? cs = some bs) :
    cs = chars bs := by
  cases hmap : cs.mapM value? with
  | none =>
    rw [decode?, hmap] at h
    cases h
  | some values =>
    obtain ⟨hcs, hlt⟩ := eq_map_symbol_of_mapM_value? hmap
    have hlength : values.length = cs.length := by rw [hcs, List.length_map]
    rw [decode?_of_mapM_value? hmap] at h
    split_ifs at h with hread
    obtain ⟨hspare, hzero⟩ := hread
    obtain rfl := Option.some.inj h
    have hnumber : Digits.toNat 32 values < 256 ^ byteCount cs.length * 2 ^ spareBits cs.length := by
      rw [pow_byteCount_mul, ← hlength]
      exact Digits.toNat_lt hlt
    have hquotient := Nat.div_lt_of_lt_mul (mul_comm (256 ^ _) _ ▸ hnumber)
    rw [chars_eq, Bytes.length_ofNat, symbolCount_byteCount hspare, Bytes.toNat_ofNat hquotient,
      Nat.div_mul_cancel (Nat.dvd_of_mod_eq_zero hzero), ← hlength, Digits.ofNat_toNat hlt, ← hcs]

theorem isSymbol_of_mem_chars {bs : Bytes} : ∀ c ∈ chars bs, IsSymbol c := by
  intro c hc
  obtain ⟨v, hv, rfl⟩ := List.mem_map.mp (chars_eq bs ▸ hc)
  by_contra hsymbol
  have hvalue := value?_symbol (Digits.lt_of_mem_ofNat (by norm_num) hv)
  rw [value?_eq_none_iff.mpr hsymbol] at hvalue
  cases hvalue

theorem toNat_mod_two_pow (values : List ℕ) (v : ℕ) {p : ℕ} (h : p ≤ 5) :
    Digits.toNat 32 (values ++ [v]) % 2 ^ p = v % 2 ^ p := by
  have hbase : 32 = 2 ^ p * 2 ^ (5 - p) := by
    rw [← pow_add, Nat.add_sub_cancel' h]
    rfl
  rw [Digits.toNat_append_singleton, hbase, Nat.add_mod, mul_left_comm, Nat.mul_mod_right, zero_add,
    Nat.mod_mod]

/-- Characters in a possible number are not read if one of them is no symbol, or if the last one has a
spare bit set. -/
theorem decode?_eq_none_iff {cs : List Char} (h : spareBits cs.length < 5) :
    decode? cs = none ↔ (∃ c ∈ cs, ¬ IsSymbol c) ∨
      ∃ c v, cs.getLast? = some c ∧ value? c = some v ∧ v % 2 ^ spareBits cs.length ≠ 0 := by
  cases hmap : cs.mapM value? with
  | none =>
    have hread : decode? cs = none := by
      rw [decode?, hmap]
      rfl
    simp [hread, mapM_value?_eq_none_iff.mp hmap]
  | some values =>
    have hsymbols : ¬ ∃ c ∈ cs, ¬ IsSymbol c := by
      rw [← mapM_value?_eq_none_iff, hmap]
      simp
    obtain ⟨hcs, hlt⟩ := eq_map_symbol_of_mapM_value? hmap
    rw [decode?_of_mapM_value? hmap]
    simp only [h, true_and, hsymbols, false_or, ite_eq_right_iff, reduceCtorEq, imp_false]
    rcases List.eq_nil_or_concat values with rfl | ⟨front, v, rfl⟩
    · subst hcs
      simp
    · have hlast : cs.getLast? = some (symbol v) := by simp [hcs]
      rw [List.concat_eq_append, toNat_mod_two_pow front v h.le, hlast]
      simp [value?_symbol (hlt v (by simp))]

end FalconAccount.Base32
