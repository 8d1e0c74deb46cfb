import FalconAccount.Bytes.Hex.Lenient
import FalconAccount.Proofs.SpelledOperands
import Mathlib.Data.List.DropRight

/-!
# What people write as hexadecimal digits

The texts that the lenient reader accepts are described without it: digits of either case, behind one
mark at most, with white space around them. They denote a byte for every two digits, after a zero in front
of an odd number of them. A text of any other form is refused.
-/

namespace FalconAccount

namespace Text

def IsBlankText (cs : List Char) : Prop := ∀ c ∈ cs, isBlank c = true

theorem isBlankText_nil : IsBlankText [] := List.forall_mem_nil _

variable {before cs after : List Char}

theorem IsBlankText.append (hcs : IsBlankText cs) (hafter : IsBlankText after) :
    IsBlankText (cs ++ after) :=
  List.forall_mem_append.mpr ⟨hcs, hafter⟩

theorem trim_eq (cs : List Char) : trim cs = (cs.dropWhile isBlank).rdropWhile isBlank := rfl

theorem exists_trim (cs : List Char) : ∃ before after, IsBlankText before ∧ IsBlankText after ∧
    cs = before ++ trim cs ++ after := by
  refine ⟨cs.takeWhile isBlank, (cs.dropWhile isBlank).rtakeWhile isBlank, ?_, ?_, ?_⟩
  · exact fun _ => List.mem_takeWhile_imp
  · exact fun _ => List.mem_rtakeWhile_imp
  · rw [trim_eq, List.append_assoc, List.rdropWhile_append_rtakeWhile,
      List.takeWhile_append_dropWhile]

theorem trim_eq_nil_iff : trim cs = [] ↔ IsBlankText cs := by
  constructor
  · intro h
    obtain ⟨before, after, hbefore, hafter, heq⟩ := exists_trim cs
    rw [h, List.append_nil] at heq
    exact heq ▸ hbefore.append hafter
  · intro h
    rw [trim_eq, List.dropWhile_eq_nil_iff.mpr h]
    rfl

theorem trim_append (hbefore : IsBlankText before) (hafter : IsBlankText after)
    (hcs : ∀ c ∈ cs, isBlank c = false) : trim (before ++ cs ++ after) = cs := by
  have hend : (cs ++ after).rdropWhile isBlank = cs := by
    have hreverse : ∀ c ∈ after.reverse, isBlank c = true :=
      fun c hc => hafter c (List.mem_reverse.mp hc)
    rw [List.rdropWhile, List.reverse_append, List.dropWhile_append_of_pos hreverse,
      ← List.rdropWhile, List.rdropWhile_eq_self_iff]
    intro hne
    simp [hcs _ (List.getLast_mem hne)]
  rw [List.append_assoc]
  cases cs with
  | nil => exact trim_eq_nil_iff.mpr (hbefore.append hafter)
  | cons c cs =>
    have hc : ¬ isBlank c = true := by simp [hcs c List.mem_cons_self]
    rw [trim_eq, List.dropWhile_append_of_pos hbefore, List.cons_append,
      List.dropWhile_cons_of_neg hc, ← List.cons_append, hend]

theorem trim_trim (cs : List Char) : trim (trim cs) = trim cs := by
  have hstart : (trim cs).dropWhile isBlank = trim cs := by
    rw [List.dropWhile_eq_self_iff]
    intro hne
    -- The first character left is that behind the white space in front.
    have hfirst : trim cs <+: cs.dropWhile isBlank := List.rdropWhile_prefix isBlank _
    rw [hfirst.getElem hne]
    exact List.dropWhile_get_zero_not isBlank cs (hne.trans_le hfirst.length_le)
  rw [trim_eq (trim cs), hstart]
  exact List.rdropWhile_idempotent isBlank _

end Text

namespace Hex

open Text

def IsHexDigit (c : Char) : Prop := ∃ d, IsDigit 16 c d

/-- What may stand before the digits. -/
def marks : List (List Char) := [[], ['0', 'x'], ['0', 'X']]

/-- The text is the digits, behind one mark at most, with white space around. -/
inductive Frames : (text digits : List Char) → Prop
  | intro {before mark after digits : List Char} (hbefore : IsBlankText before) (hmark : mark ∈ marks)
    (hafter : IsBlankText after) : Frames (before ++ (mark ++ digits) ++ after) digits

/-- The digits, with a zero in front of an odd number of them. -/
def padded (digits : List Char) : List Char :=
  if digits.length % 2 = 1 then '0' :: digits else digits

/-- The digits, of either case, are those of the byte string; one zero in front may be missing. -/
structure Write (digits : List Char) (bs : Bytes) : Prop where
  isHexDigit : ∀ c ∈ digits, IsHexDigit c
  length : bs.length = (digits.length + 1) / 2
  spelled : (padded digits).map Char.toLower = chars bs

def Denotes (text : List Char) (bs : Bytes) : Prop := ∃ digits, Frames text digits ∧ Write digits bs

section Digits

variable {c : Char} {cs digits : List Char} {bs : Bytes}

theorem IsHexDigit.utf8EncodeChar (h : IsHexDigit c) :
    String.utf8EncodeChar c = [UInt8.ofNat c.toNat] := by
  obtain ⟨d, hd⟩ := h
  exact utf8EncodeChar_of_ascii (hd.toNat_lt le_rfl)

theorem IsHexDigit.isBlank_eq_false (h : IsHexDigit c) : isBlank c = false := by
  obtain ⟨d, hd⟩ := h
  have hall : ∀ n < 128, ∀ d < 16, (Char.ofNat n).toLower = digit d →
      isBlank (Char.ofNat n) = false := by
    decide +kernel
  exact forall_ascii (p := fun c => c.toLower = digit d → isBlank c = false)
    (hall · · d hd.1) (hd.toNat_lt le_rfl) hd.2

theorem not_isHexDigit_of_toLower (h : c.toLower = 'x') : ¬ IsHexDigit c := by
  rintro ⟨d, hd, hlower⟩
  have hall : ∀ d < 16, 'x' ≠ digit d := by decide
  exact hall d hd (h ▸ hlower)

theorem length_ofChars (h : ∀ c ∈ digits, IsHexDigit c) :
    (Bytes.ofChars digits).length = digits.length := by
  induction digits with
  | nil => rfl
  | cons c digits ih =>
    obtain ⟨hc, hdigits⟩ := List.forall_mem_cons.mp h
    rw [Bytes.ofChars, List.flatMap_cons, hc.utf8EncodeChar, List.singleton_append, List.length_cons,
      ← Bytes.ofChars, ih hdigits, List.length_cons]

/-- A zero digit is put in front of the bytes as it is in front of the characters. -/
theorem padEven_ofChars (h : (Bytes.ofChars digits).length = digits.length) :
    padEven (Bytes.ofChars digits) = Bytes.ofChars (padded digits) := by
  rw [padEven, padded, h]
  split_ifs
  · rfl
  · rfl

theorem exists_padEven (digits : List Char) :
    ∃ zero, padEven (Bytes.ofChars digits) = Bytes.ofChars (zero ++ digits) := by
  unfold padEven
  split_ifs
  · exact ⟨['0'], rfl⟩
  · exact ⟨[], rfl⟩

theorem length_padded (digits : List Char) :
    (padded digits).length = 2 * ((digits.length + 1) / 2) := by
  unfold padded
  split_ifs
  · rw [List.length_cons]
    omega
  · omega

theorem forall_mem_padded_iff : (∀ c ∈ padded digits, IsHexDigit c) ↔ ∀ c ∈ digits, IsHexDigit c := by
  have hzero : IsHexDigit '0' := ⟨0, by decide, rfl⟩
  unfold padded
  split_ifs
  · rw [List.forall_mem_cons, and_iff_right hzero]
  · rfl

theorem exists_forall₂_isDigit_iff :
    (∃ ds, List.Forall₂ (IsDigit 16) cs ds) ↔ ∀ c ∈ cs, IsHexDigit c := by
  induction cs with
  | nil => simp
  | cons c cs ih =>
    rw [List.forall_mem_cons, ← ih]
    constructor
    · rintro ⟨_, h⟩
      cases h with
      | cons hc hcs => exact ⟨⟨_, hc⟩, _, hcs⟩
    · rintro ⟨⟨d, hc⟩, ds, hcs⟩
      exact ⟨d :: ds, .cons hc hcs⟩

theorem exists_halves : ∀ {ds : List ℕ}, (∀ d ∈ ds, d < 16) → ds.length % 2 = 0 → ∃ bs, halves bs = ds
  | [], _, _ => ⟨[], rfl⟩
  | [d], _, heven => by cases heven
  | high :: low :: ds, hlt, heven => by
    obtain ⟨hhigh, hlow, hds⟩ : high < 16 ∧ low < 16 ∧ ∀ d ∈ ds, d < 16 := by simpa using hlt
    have hrest : ds.length % 2 = 0 := (Nat.add_mod_right ds.length 2).symm.trans heven
    obtain ⟨bs, rfl⟩ := exists_halves hds hrest
    exact ⟨_, halves_ofNat_cons hhigh hlow bs⟩

theorem lt_of_forall₂_isDigit {ds : List ℕ} (h : List.Forall₂ (IsDigit 16) cs ds) :
    ∀ d ∈ ds, d < 16 := by
  induction h with
  | nil => exact List.forall_mem_nil _
  | cons hc _ ih => exact List.forall_mem_cons.mpr ⟨hc.1, ih⟩

theorem write_iff : Write digits bs ↔ (padded digits).map Char.toLower = chars bs := by
  refine ⟨Write.spelled, fun h => ⟨?_, ?_, h⟩⟩
  · rw [← forall_mem_padded_iff, ← exists_forall₂_isDigit_iff]
    exact ⟨_, forall₂_isDigit_halves_iff.mpr h⟩
  · have hlength := congrArg List.length h
    rw [List.length_map, length_padded, length_chars] at hlength
    omega

theorem write_chars (h : digits = chars bs ∨ digits = (chars bs).map Char.toUpper) :
    Write digits bs := by
  have heven : padded digits = digits := by
    apply if_neg
    rcases h with rfl | rfl <;> simp
  rw [write_iff, heven]
  have hcases : ∀ c ∈ chars bs, c.toLower = c ∧ c.toUpper.toLower = c :=
    forall_mem_chars (p := fun c => c.toLower = c ∧ c.toUpper.toLower = c) (by decide +kernel) bs
  rcases h with rfl | rfl
  · exact (List.map_congr_left fun c hc => (hcases c hc).1).trans (List.map_id _)
  · rw [List.map_map]
    exact (List.map_congr_left fun c hc => (hcases c hc).2).trans (List.map_id _)

theorem exists_write (h : ∀ c ∈ digits, IsHexDigit c) : ∃ bs, Write digits bs := by
  obtain ⟨ds, hds⟩ := exists_forall₂_isDigit_iff.mpr (forall_mem_padded_iff.mpr h)
  have hlength := hds.length_eq
  rw [length_padded] at hlength
  obtain ⟨bs, rfl⟩ := exists_halves (lt_of_forall₂_isDigit hds) (by omega)
  exact ⟨bs, write_iff.mpr (forall₂_isDigit_halves_iff.mp hds)⟩

end Digits

section Reading

variable {text digits : List Char} {bs : Bytes}

theorem dropMark_append {mark : List Char} (hmark : mark ∈ marks) (h : ∀ c ∈ digits, IsHexDigit c) :
    dropMark (mark ++ digits) = digits := by
  have hmarks : mark = [] ∨ mark = ['0', 'x'] ∨ mark = ['0', 'X'] := by simpa [marks] using hmark
  rcases hmarks with rfl | rfl | rfl
  · -- The letter of a mark is no digit.
    rw [List.nil_append]
    unfold dropMark
    split
    · exact absurd (h 'x' (by simp)) (not_isHexDigit_of_toLower rfl)
    · exact absurd (h 'X' (by simp)) (not_isHexDigit_of_toLower rfl)
    · rfl
  · rfl
  · rfl

theorem exists_dropMark (cs : List Char) : ∃ mark ∈ marks, cs = mark ++ dropMark cs := by
  unfold dropMark
  split
  · exact ⟨['0', 'x'], by decide, rfl⟩
  · exact ⟨['0', 'X'], by decide, rfl⟩
  · exact ⟨[], by decide, rfl⟩

theorem read_of_frames (hframes : Frames text digits) (h : ∀ c ∈ digits, IsHexDigit c) :
    read text = decode (Bytes.ofChars (padded digits)) := by
  obtain @⟨before, mark, after, _, hbefore, hmark, hafter⟩ := hframes
  have hplain : ∀ c ∈ mark ++ digits, isBlank c = false := by
    have hmarks : ∀ mark ∈ marks, mark.all (! isBlank ·) = true := by decide
    rw [List.forall_mem_append]
    refine ⟨fun c hc => ?_, fun c hc => (h c hc).isBlank_eq_false⟩
    simpa using List.all_eq_true.mp (hmarks mark hmark) c hc
  rw [read, trim_append hbefore hafter hplain, dropMark_append hmark h,
    padEven_ofChars (length_ofChars h)]

theorem exists_frames (text : List Char) : Frames text (dropMark (trim text)) := by
  obtain ⟨before, after, hbefore, hafter, htrim⟩ := exists_trim text
  obtain ⟨mark, hmark, hdigits⟩ := exists_dropMark (trim text)
  rw [hdigits] at htrim
  have hframes : Frames (before ++ (mark ++ dropMark (trim text)) ++ after) (dropMark (trim text)) :=
    .intro hbefore hmark hafter
  rwa [← htrim] at hframes

/-- A text is read if and only if it denotes the byte string. -/
theorem read_eq_ok_iff : read text = .ok bs ↔ Denotes text bs := by
  constructor
  · intro h
    refine ⟨dropMark (trim text), exists_frames text, ?_⟩
    -- The zero is put in front of bytes, so the bytes must be shown to be digits first.
    obtain ⟨zero, hzero⟩ := exists_padEven (dropMark (trim text))
    have hspelled : (zero ++ dropMark (trim text)).map Char.toLower = chars bs := by
      rw [← decode_eq_ok_iff, ← hzero]
      exact h
    have hdigits : ∀ c ∈ dropMark (trim text), IsHexDigit c := by
      have hall := exists_forall₂_isDigit_iff.mp ⟨_, forall₂_isDigit_halves_iff.mpr hspelled⟩
      exact (List.forall_mem_append.mp hall).2
    rwa [read_of_frames (exists_frames text) hdigits, decode_eq_ok_iff, ← write_iff] at h
  · rintro ⟨digits, hframes, hwrite⟩
    rw [read_of_frames hframes hwrite.isHexDigit, decode_eq_ok_iff]
    exact hwrite.spelled

end Reading

end Hex

end FalconAccount
