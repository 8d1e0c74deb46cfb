import FalconAccount.Assembly.Parser
import FalconAccount.Proofs.ByteNumbers
import FalconAccount.Proofs.FallibleSteps
import FalconAccount.Proofs.HexText

/-!
# How operands are spelled

A byte string is spelled by digits of either case. A number is spelled in one of two bases, with digits of
either case, leading zeros, and a plus sign if one likes. The readers accept these spellings and no others.
-/

namespace FalconAccount

/-- The character is the digit of `d` in `base`, in either case. -/
def IsDigit (base : ℕ) (c : Char) (d : ℕ) : Prop := d < base ∧ c.toLower = Hex.digit d

section Characters

variable {c : Char}

theorem forall_ascii {p : Char → Prop} (h : ∀ n < 128, p (Char.ofNat n)) (hc : c.toNat < 128) :
    p c :=
  Char.ofNat_toNat c ▸ h c.toNat hc

theorem utf8EncodeChar_of_ascii (hc : c.toNat < 128) :
    String.utf8EncodeChar c = [UInt8.ofNat c.toNat] :=
  if_pos (Nat.le_of_lt_succ hc)

theorem toLower_of_not_ascii (hc : 128 ≤ c.toNat) : c.toLower = c := by
  have hbig : 128 ≤ c.val.toNat := hc
  have hupper : ¬ (c.val ≥ 'A'.val ∧ c.val ≤ 'Z'.val) := by
    rintro ⟨-, hle⟩
    have hsmall : c.val.toNat ≤ 90 := hle
    omega
  exact dif_neg hupper

theorem IsDigit.toNat_lt {base d : ℕ} (h : IsDigit base c d) (hb : base ≤ 16) : c.toNat < 128 := by
  by_contra hc
  have hdigit : ∀ n < 16, (Hex.digit n).toNat < 128 := by decide
  have hd := hdigit d (h.1.trans_le hb)
  rw [← h.2, toLower_of_not_ascii (not_lt.mp hc)] at hd
  exact hc hd

theorem Hex.lt_of_value? {b : UInt8} {d : ℕ} (h : value? b = some d) : d < 16 := by
  simp only [value?] at h
  split_ifs at h <;> cases h <;> omega

theorem Hex.value?_eq_some_iff (hc : c.toNat < 128) {d : ℕ} :
    Hex.value? (UInt8.ofNat c.toNat) = some d ↔ IsDigit 16 c d := by
  have hall : ∀ n < 128, ∀ d < 16, Hex.value? (UInt8.ofNat (Char.ofNat n).toNat) = some d ↔
      (Char.ofNat n).toLower = Hex.digit d := by
    decide +kernel
  have hiff (hd : d < 16) : Hex.value? (UInt8.ofNat c.toNat) = some d ↔ c.toLower = Hex.digit d :=
    forall_ascii (p := fun c => Hex.value? (UInt8.ofNat c.toNat) = some d ↔ c.toLower = Hex.digit d)
      (hall · · d hd) hc
  exact ⟨fun h => ⟨lt_of_value? h, (hiff (lt_of_value? h)).mp h⟩, fun h => (hiff h.1).mpr h.2⟩

theorem exists_utf8EncodeChar_of_not_ascii (hc : 128 ≤ c.toNat) :
    ∃ b bs, String.utf8EncodeChar c = b :: bs ∧ Hex.value? b = none := by
  have hlead {n : ℕ} (h₁ : 192 ≤ n) (h₂ : n < 256) : Hex.value? (UInt8.ofNat n) = none := by
    rw [Hex.value?, Varuint.toNat_ofNat_of_lt h₂]
    grind
  have hbig : ¬ c.val.toNat ≤ 127 := not_le.mpr hc
  unfold String.utf8EncodeChar
  simp only [hbig, if_false]
  split_ifs
  · exact ⟨_, _, rfl, hlead (by omega) (by omega)⟩
  · exact ⟨_, _, rfl, hlead (by omega) (by omega)⟩
  · exact ⟨_, _, rfl, hlead (by omega) (by omega)⟩

theorem Numeral.digit?_eq_some_iff {base : ℕ} (hb : base ∈ [10, 16]) {d : ℕ} :
    digit? base c = some d ↔ IsDigit base c d := by
  have hle : base ≤ 16 := by
    revert base
    decide
  have hlt (h : digit? base c = some d) : d < base := by
    obtain ⟨hd, heq⟩ := Option.ite_none_right_eq_some.mp h
    exact Option.some.inj heq ▸ hd
  have hall : ∀ base ∈ [10, 16], ∀ n < 128, ∀ d < 16, digit? base (Char.ofNat n) = some d ↔
      IsDigit base (Char.ofNat n) d := by
    unfold IsDigit
    decide +kernel
  by_cases hc : c.toNat < 128
  · have hiff (hd : d < 16) : digit? base c = some d ↔ IsDigit base c d :=
      forall_ascii (p := fun c => digit? base c = some d ↔ IsDigit base c d)
        (hall base hb · · d hd) hc
    exact ⟨fun h => (hiff ((hlt h).trans_le hle)).mp h, fun h => (hiff (h.1.trans_le hle)).mpr h⟩
  · have hnone : digit? base c = none := by
      have hbeyond (last : Char) (hlast : last.toNat < 128) : ¬ c ≤ last :=
        fun h => hc ((show c.toNat ≤ last.toNat from h).trans_lt hlast)
      simp [digit?, hbeyond '9' (by decide), hbeyond 'z' (by decide), hbeyond 'Z' (by decide)]
    rw [hnone]
    constructor
    · intro h
      cases h
    · intro h
      exact absurd (h.toNat_lt hle) hc

end Characters

theorem le_foldl_digits {base : ℕ} (hb : 0 < base) (n : ℕ) (ds : List ℕ) :
    n ≤ ds.foldl (fun n d => n * base + d) n := by
  induction ds generalizing n with
  | nil => exact le_rfl
  | cons d ds ih => exact ((Nat.le_mul_of_pos_right n hb).trans (Nat.le_add_right _ d)).trans (ih _)

namespace Numeral

variable {base : ℕ} (hb : base ∈ [10, 16])
include hb

/-- Digits are read to their end if and only if the number they make up fits into 64 bits. -/
theorem readDigits_eq_ok_iff {soFar n : ℕ} {cs : List Char} (hs : soFar < UInt64.size) :
    readDigits base soFar cs = .ok n ↔ ∃ ds, List.Forall₂ (IsDigit base) cs ds ∧
      ds.foldl (fun n d => n * base + d) soFar = n ∧ n < UInt64.size := by
  induction cs generalizing soFar with
  | nil =>
    constructor
    · intro h
      obtain rfl := Except.ok.inj h
      exact ⟨[], .nil, rfl, hs⟩
    · rintro ⟨ds, hds, rfl, -⟩
      cases hds
      rfl
  | cons c cs ih =>
    rw [readDigits]
    cases hc : digit? base c with
    | none =>
      constructor
      · intro h
        cases h
      · rintro ⟨ds, hds, -⟩
        cases hds with
        | cons hd _ => cases hc.symm.trans ((digit?_eq_some_iff hb).mpr hd)
    | some d =>
      have hd := (digit?_eq_some_iff hb).mp hc
      have hpos : 0 < base := d.zero_le.trans_lt hd.1
      by_cases hfit : soFar * base + d < UInt64.size
      · simp only [if_pos hfit]
        rw [ih hfit]
        constructor
        · rintro ⟨ds, hds, hn⟩
          exact ⟨d :: ds, .cons hd hds, hn⟩
        · rintro ⟨_, hds, hn⟩
          cases hds with
          | cons hd' hds =>
            obtain rfl := Option.some.inj (hc.symm.trans ((digit?_eq_some_iff hb).mpr hd'))
            exact ⟨_, hds, hn⟩
      · simp only [if_neg hfit]
        constructor
        · intro h
          cases h
        · rintro ⟨_, hds, rfl, hn⟩
          cases hds with
          | @cons _ d' _ ds hd' hds =>
            obtain rfl := Option.some.inj (hc.symm.trans ((digit?_eq_some_iff hb).mpr hd'))
            exact absurd ((le_foldl_digits hpos _ ds).trans_lt hn) hfit

theorem isDigit_rightUnique : Relator.RightUnique (IsDigit base) := by
  intro c d e hd he
  rw [← digit?_eq_some_iff hb] at hd he
  exact Option.some.inj (hd.symm.trans he)

theorem not_isDigit_plus (d : ℕ) : ¬ IsDigit base '+' d := by
  rw [← digit?_eq_some_iff hb]
  have hnone : ∀ base ∈ [10, 16], digit? base '+' = none := by decide
  rw [hnone base hb]
  exact Option.some_ne_none d ∘ Eq.symm

omit hb

/-- The word spells a number: at least one digit, and a plus sign before them if one likes. -/
inductive Spells (base : ℕ) : List Char → ℕ → Prop
  | plain {digits : List Char} {ds : List ℕ} (hne : digits ≠ [])
    (h : List.Forall₂ (IsDigit base) digits ds) : Spells base digits (Digits.toNat base ds)
  | plus {digits : List Char} {ds : List ℕ} (hne : digits ≠ [])
    (h : List.Forall₂ (IsDigit base) digits ds) : Spells base ('+' :: digits) (Digits.toNat base ds)

include hb

theorem spells_plus_iff {digits : List Char} {n : ℕ} :
    Spells base ('+' :: digits) n ↔
      digits ≠ [] ∧ ∃ ds, List.Forall₂ (IsDigit base) digits ds ∧ Digits.toNat base ds = n := by
  constructor
  · intro h
    cases h with
    | plain _ h =>
      cases h with
      | cons hplus _ => exact absurd hplus (not_isDigit_plus hb _)
    | plus hne h => exact ⟨hne, _, h, rfl⟩
  · rintro ⟨hne, ds, h, rfl⟩
    exact .plus hne h

omit hb in
theorem spells_cons_iff {c : Char} (hc : c ≠ '+') {rest : List Char} {n : ℕ} :
    Spells base (c :: rest) n ↔
      ∃ ds, List.Forall₂ (IsDigit base) (c :: rest) ds ∧ Digits.toNat base ds = n := by
  constructor
  · intro h
    cases h with
    | plain _ h => exact ⟨_, h, rfl⟩
    | plus _ _ => exact absurd rfl hc
  · rintro ⟨ds, h, rfl⟩
    exact .plain (List.cons_ne_nil c rest) h

theorem Spells.unique {word : List Char} {m n : ℕ} (hm : Spells base word m)
    (hn : Spells base word n) : m = n := by
  cases hm with
  | @plain _ ds hne h =>
    cases word with
    | nil => exact absurd rfl hne
    | cons c rest =>
      have hc : c ≠ '+' := by
        rintro rfl
        cases h with
        | cons hplus _ => exact not_isDigit_plus hb _ hplus
      obtain ⟨ds', h', rfl⟩ := (spells_cons_iff hc).mp hn
      rw [List.right_unique_forall₂' (isDigit_rightUnique hb) h h']
  | plus _ h =>
    obtain ⟨-, ds', h', rfl⟩ := (spells_plus_iff hb).mp hn
    rw [List.right_unique_forall₂' (isDigit_rightUnique hb) h h']

theorem map_readDigits_eq_ok_iff {cs : List Char} {n : UInt64} :
    (readDigits base 0 cs).map UInt64.ofNat = .ok n ↔
      ∃ ds, List.Forall₂ (IsDigit base) cs ds ∧ Digits.toNat base ds = n.toNat := by
  rw [map_eq_ok_iff]
  constructor
  · rintro ⟨m, hm, rfl⟩
    obtain ⟨ds, hds, rfl, hlt⟩ := (readDigits_eq_ok_iff hb (by decide)).mp hm
    exact ⟨ds, hds, (UInt64.toNat_ofNat_of_lt' hlt).symm⟩
  · rintro ⟨ds, hds, hn⟩
    refine ⟨n.toNat, (readDigits_eq_ok_iff hb (by decide)).mpr ⟨ds, hds, hn, n.toNat_lt⟩, ?_⟩
    exact UInt64.ofNat_toNat

/-- A number is read if and only if the word spells it. -/
theorem read_eq_ok_iff {word : List Char} {n : UInt64} :
    read base word = .ok n ↔ Spells base word n.toNat := by
  cases word with
  | nil =>
    constructor
    · intro h
      cases h
    · intro h
      generalize n.toNat = m at h
      cases h with
      | plain hne _ => exact absurd rfl hne
  | cons c rest =>
    by_cases hc : c = '+'
    · subst hc
      rw [spells_plus_iff hb, ← map_readDigits_eq_ok_iff hb]
      cases rest with
      | nil => simp [read]
      | cons c rest => simp [read]
    · rw [spells_cons_iff hc, ← map_readDigits_eq_ok_iff hb]
      simp [read, hc]

end Numeral

namespace Hex

/-- The two halves of each byte, high half first. -/
def halves (bs : Bytes) : List ℕ := bs.flatMap fun b => [b.toNat / 16, b.toNat % 16]

theorem halves_cons (b : UInt8) (bs : Bytes) :
    halves (b :: bs) = b.toNat / 16 :: b.toNat % 16 :: halves bs := rfl

theorem halves_ofNat_cons {high low : ℕ} (hhigh : high < 16) (hlow : low < 16) (bs : Bytes) :
    halves (UInt8.ofNat (high * 16 + low) :: bs) = high :: low :: halves bs := by
  have hbyte : (UInt8.ofNat (high * 16 + low)).toNat = high * 16 + low :=
    Varuint.toNat_ofNat_of_lt (by omega)
  have hdiv : (high * 16 + low) / 16 = high := by omega
  have hmod : (high * 16 + low) % 16 = low := by omega
  rw [halves_cons, hbyte, hdiv, hmod]

theorem length_halves (bs : Bytes) : (halves bs).length = 2 * bs.length := by
  induction bs with
  | nil => rfl
  | cons b bs ih =>
    rw [halves_cons, List.length_cons, List.length_cons, ih, List.length_cons]
    omega

theorem lt_of_mem_halves {bs : Bytes} {d : ℕ} (h : d ∈ halves bs) : d < 16 := by
  obtain ⟨b, -, hd⟩ := List.mem_flatMap.mp h
  have hb : b.toNat < 256 := b.toNat_lt
  rcases List.mem_pair.mp hd with rfl | rfl <;> omega

theorem forall₂_isDigit_halves_iff {cs : List Char} {bs : Bytes} :
    List.Forall₂ (IsDigit 16) cs (halves bs) ↔ cs.map Char.toLower = chars bs := by
  have hchars : chars bs = (halves bs).map digit := by
    rw [chars, halves, List.map_flatMap]
    rfl
  rw [hchars]
  have hlt : ∀ d ∈ halves bs, d < 16 := fun d => lt_of_mem_halves
  generalize halves bs = ds at hlt
  induction ds generalizing cs with
  | nil => cases cs <;> simp
  | cons d ds ih =>
    cases cs with
    | nil => simp
    | cons c cs =>
      rw [List.forall_mem_cons] at hlt
      simp [ih hlt.2, IsDigit, hlt.1]

theorem valueAt_eq_ok_iff {position n : ℕ} {b : UInt8} :
    valueAt position b = .ok n ↔ value? b = some n := by
  unfold valueAt
  cases value? b <;> simp

/-- Pairs of digits are read if and only if they are the halves of the bytes. -/
theorem decodePairs_eq_ok_iff {position : ℕ} {digits bs : Bytes} :
    decodePairs position digits = .ok bs ↔
      List.Forall₂ (value? · = some ·) digits (halves bs) := by
  fun_induction decodePairs position digits generalizing bs with
  | case1 position =>
    cases bs <;> simp [halves]
  | case2 position b =>
    cases bs <;> simp [halves]
  | case3 position a b rest ih =>
    simp only [bind_eq_ok_iff, valueAt_eq_ok_iff, ih, pure_eq_ok_iff]
    constructor
    · rintro ⟨high, hhigh, low, hlow, bs, hrest, rfl⟩
      rw [halves_ofNat_cons (lt_of_value? hhigh) (lt_of_value? hlow)]
      exact .cons hhigh (.cons hlow hrest)
    · intro h
      cases bs with
      | nil => cases h
      | cons byte bs =>
        rw [halves_cons] at h
        cases h with
        | cons hhigh h =>
          cases h with
          | cons hlow hrest =>
            have hbyte : byte.toNat / 16 * 16 + byte.toNat % 16 = byte.toNat := by omega
            refine ⟨_, hhigh, _, hlow, bs, hrest, ?_⟩
            rw [hbyte, UInt8.ofNat_toNat]

theorem forall₂_value?_ofChars_iff {cs : List Char} {ds : List ℕ} :
    List.Forall₂ (value? · = some ·) (Bytes.ofChars cs) ds ↔ List.Forall₂ (IsDigit 16) cs ds := by
  induction cs generalizing ds with
  | nil => cases ds <;> simp
  | cons c cs ih =>
    by_cases hc : c.toNat < 128
    · rw [Bytes.ofChars, List.flatMap_cons, utf8EncodeChar_of_ascii hc]
      cases ds with
      | nil => simp
      | cons d ds =>
        rw [List.singleton_append, List.forall₂_cons, List.forall₂_cons, value?_eq_some_iff hc]
        exact and_congr_right fun _ => ih
    · obtain ⟨b, bytes, hbytes, hnone⟩ := exists_utf8EncodeChar_of_not_ascii (not_lt.mp hc)
      rw [Bytes.ofChars, List.flatMap_cons, hbytes]
      cases ds with
      | nil => simp
      | cons d ds =>
        rw [List.cons_append, List.forall₂_cons, List.forall₂_cons, hnone]
        constructor
        · rintro ⟨h, -⟩
          cases h
        · rintro ⟨h, -⟩
          exact absurd (h.toNat_lt le_rfl) hc

/-- A byte string is read if and only if its digits are written, in either case. -/
theorem decode_eq_ok_iff {cs : List Char} {bs : Bytes} :
    decode (Bytes.ofChars cs) = .ok bs ↔ cs.map Char.toLower = chars bs := by
  rw [← forall₂_isDigit_halves_iff, ← forall₂_value?_ofChars_iff, ← @decodePairs_eq_ok_iff 0]
  unfold decode
  split_ifs with hodd
  · constructor
    · intro h
      cases h
    · intro h
      have hlength := (decodePairs_eq_ok_iff.mp h).length_eq
      rw [length_halves] at hlength
      omega
  · rfl

end Hex

namespace Assembly

/-- The word spells a byte string: two digits for each byte after the mark of hexadecimal digits. -/
inductive SpellsBytes : List Char → Bytes → Prop
  | digits {digits : List Char} {bs : Bytes} (h : digits.map Char.toLower = Hex.chars bs) :
    SpellsBytes ('0' :: 'x' :: digits) bs

/-- The word spells a number, in decimal or, after the mark, in hexadecimal digits. -/
inductive SpellsInteger : List Char → ℕ → Prop
  | decimal {word : List Char} {n : ℕ} (h : Numeral.Spells 10 word n) : SpellsInteger word n
  | hexadecimal {digits : List Char} {n : ℕ} (h : Numeral.Spells 16 digits n) :
    SpellsInteger ('0' :: 'x' :: digits) n

theorem hexDigits?_eq_some_iff {word digits : List Char} :
    hexDigits? word = some digits ↔ word = '0' :: 'x' :: digits := by
  unfold hexDigits?
  split
  · simp
  · next h =>
    constructor
    · intro hnone
      cases hnone
    · rintro rfl
      exact absurd rfl (h digits)

theorem readBytes_eq_ok_iff {word : List Char} {bs : Bytes} :
    readBytes word = .ok bs ↔ SpellsBytes word bs := by
  unfold readBytes
  cases hw : hexDigits? word with
  | none =>
    constructor
    · intro h
      cases h
    · rintro ⟨h⟩
      cases hw
  | some digits =>
    obtain rfl := hexDigits?_eq_some_iff.mp hw
    rw [mapError_eq_ok_iff, Hex.decode_eq_ok_iff]
    constructor
    · exact .digits
    · rintro ⟨h⟩
      exact h

theorem not_spells_ten_mark {digits : List Char} {n : ℕ} :
    ¬ Numeral.Spells 10 ('0' :: 'x' :: digits) n := by
  rw [Numeral.spells_cons_iff (by decide)]
  rintro ⟨ds, h, -⟩
  cases h with
  | cons _ h =>
    cases h with
    | cons hx _ =>
      have hnone : ∀ d < 10, 'x'.toLower ≠ Hex.digit d := by decide
      exact hnone _ hx.1 hx.2

theorem readInteger_eq_ok_iff {word : List Char} {n : UInt64} :
    readInteger word = .ok n ↔ SpellsInteger word n.toNat := by
  unfold readInteger
  simp only [mapError_eq_ok_iff]
  generalize hm : n.toNat = m
  cases hw : hexDigits? word with
  | none =>
    rw [Numeral.read_eq_ok_iff (by decide), hm]
    constructor
    · exact .decimal
    · intro h
      cases h with
      | decimal h => exact h
      | hexadecimal h => cases hw
  | some digits =>
    obtain rfl := hexDigits?_eq_some_iff.mp hw
    rw [Numeral.read_eq_ok_iff (by decide), hm]
    constructor
    · exact .hexadecimal
    · intro h
      cases h with
      | decimal h => exact absurd h not_spells_ten_mark
      | hexadecimal h => exact h

end Assembly

end FalconAccount
