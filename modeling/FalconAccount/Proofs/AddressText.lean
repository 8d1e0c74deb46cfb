import FalconAccount.Address
import FalconAccount.Proofs.Base32Text

/-!
# Addresses have one text each

The text of an address holds its bytes and their checksum: 288 bits in 58 symbols, so two bits are spare.
Reading accepts the texts of addresses and nothing else, and every other text is refused for its length,
its spelling or its checksum, in this order.
-/

namespace FalconAccount.Address

/-- A character of the text is no symbol, or its last symbol has a spare bit set. -/
def Misspelt (text : String) : Prop :=
  (∃ c ∈ text.toList, ¬ Base32.IsSymbol c) ∨
    ∃ c v, text.toList.getLast? = some c ∧ Base32.value? c = some v ∧ v % 4 ≠ 0

theorem toList_text (a : Address) : a.text.toList = Base32.chars (a.toList ++ a.checksum) := by
  rw [text, Base32.encode, String.toList_ofList]

theorem length_toList_append_checksum (a : Address) : (a.toList ++ a.checksum).length = 36 := by
  rw [List.length_append, length_toList, length_checksum]

theorem length_toList_text (a : Address) : a.text.toList.length = 58 := by
  rw [toList_text, Base32.length_chars, length_toList_append_checksum]
  rfl

theorem utf8ByteSize_text (a : Address) : a.text.utf8ByteSize = 58 := by
  rw [← String.utf8Len_toList, toList_text, Base32.utf8Len_of_isSymbol Base32.isSymbol_of_mem_chars,
    ← toList_text, length_toList_text]

section Reading

variable {text : String}

theorem length_of_decode? {raw : Bytes} (hsize : text.utf8ByteSize = 58)
    (h : Base32.decode? text.toList = some raw) : raw.length = 36 := by
  have hchars := Base32.eq_chars_of_decode? h
  have hlength : Base32.symbolCount raw.length = 58 := by
    rw [← Base32.length_chars, ← Base32.utf8Len_of_isSymbol Base32.isSymbol_of_mem_chars, ← hchars,
      String.utf8Len_toList, hsize]
  unfold Base32.symbolCount at hlength
  omega

/-- A text of 58 bytes is read unless it is misspelt. A character of more than one byte is no symbol, so
the number of characters is 58 where it counts. -/
theorem decode?_eq_none_iff (hsize : text.utf8ByteSize = 58) :
    Base32.decode? text.toList = none ↔ Misspelt text := by
  by_cases hsymbols : ∃ c ∈ text.toList, ¬ Base32.IsSymbol c
  · have hvalues := Base32.mapM_value?_eq_none_iff.mpr hsymbols
    rw [Base32.decode?, hvalues]
    exact iff_of_true rfl (.inl hsymbols)
  · have hlength : text.toList.length = 58 := by
      rw [← Base32.utf8Len_of_isSymbol (by simpa using hsymbols), String.utf8Len_toList, hsize]
    have hspare : Base32.spareBits text.toList.length = 2 := by rw [hlength]; rfl
    rw [Base32.decode?_eq_none_iff (by omega), hspare]
    rfl

theorem parse_of_size (h : text.utf8ByteSize ≠ 58) :
    parse text = .error (.length text.utf8ByteSize) :=
  if_pos h

theorem parse_of_misspelt (hsize : text.utf8ByteSize = 58) (h : Misspelt text) :
    parse text = .error .base32 := by
  have hunread := (decode?_eq_none_iff hsize).mpr h
  unfold parse
  rw [if_neg (not_not.mpr (show text.utf8ByteSize = textSize from hsize)), hunread]

theorem parse_of_decode? {raw : Bytes} (hsize : text.utf8ByteSize = 58)
    (h : Base32.decode? text.toList = some raw) :
    ∃ a : Address, a.toList = raw.take 32 ∧
      parse text = if a.checksum = raw.drop 32 then .ok a else .error .checksum := by
  have hlength : raw.length = size + checksumSize := length_of_decode? hsize h
  refine ⟨⟨(raw.take 32).toArray, by simp [hlength, size]⟩, rfl, ?_⟩
  unfold parse
  rw [if_neg (not_not.mpr (show text.utf8ByteSize = textSize from hsize)), h]
  exact dif_pos hlength

theorem parse_text (a : Address) : parse a.text = .ok a := by
  have hread : Base32.decode? a.text.toList = some (a.toList ++ a.checksum) := by
    rw [toList_text, Base32.decode?_chars]
  obtain ⟨b, hb, hparse⟩ := parse_of_decode? a.utf8ByteSize_text hread
  rw [List.take_left' a.length_toList] at hb
  obtain rfl := eq_of_toList hb
  rw [hparse, List.drop_left' b.length_toList, if_pos rfl]

theorem eq_text_of_parse {a : Address} (h : parse text = .ok a) : text = a.text := by
  by_cases hsize : text.utf8ByteSize = 58
  · cases hread : Base32.decode? text.toList with
    | none =>
      rw [parse_of_misspelt hsize ((decode?_eq_none_iff hsize).mp hread)] at h
      cases h
    | some raw =>
      obtain ⟨b, hb, hparse⟩ := parse_of_decode? hsize hread
      rw [hparse] at h
      split_ifs at h with hchecksum
      obtain rfl := Except.ok.inj h
      have hraw : b.toList ++ b.checksum = raw := by
        rw [hb, hchecksum, List.take_append_drop]
      rw [Address.text, hraw, Base32.encode, ← Base32.eq_chars_of_decode? hread, String.ofList_toList]
  · rw [parse_of_size hsize] at h
    cases h

variable (text)

/-- Three things decide about a text, in this order: its length, its spelling, and its checksum. -/
theorem parse_cases :
    (text.utf8ByteSize ≠ 58 ∧ parse text = .error (.length text.utf8ByteSize)) ∨
      (text.utf8ByteSize = 58 ∧ Misspelt text ∧ parse text = .error .base32) ∨
      (text.utf8ByteSize = 58 ∧ ¬ Misspelt text ∧ parse text = .error .checksum) ∨
      (text.utf8ByteSize = 58 ∧ ¬ Misspelt text ∧ ∃ a, parse text = .ok a) := by
  by_cases hsize : text.utf8ByteSize = 58
  · by_cases hspelling : Misspelt text
    · exact .inr (.inl ⟨hsize, hspelling, parse_of_misspelt hsize hspelling⟩)
    · cases hread : Base32.decode? text.toList with
      | none => exact absurd ((decode?_eq_none_iff hsize).mp hread) hspelling
      | some raw =>
        obtain ⟨a, -, hparse⟩ := parse_of_decode? hsize hread
        by_cases hchecksum : a.checksum = raw.drop 32
        · exact .inr (.inr (.inr ⟨hsize, hspelling, a, hparse.trans (if_pos hchecksum)⟩))
        · exact .inr (.inr (.inl ⟨hsize, hspelling, hparse.trans (if_neg hchecksum)⟩))
  · exact .inl ⟨hsize, parse_of_size hsize⟩

theorem parse_eq_ok_iff (a : Address) : parse text = .ok a ↔ text = a.text :=
  ⟨eq_text_of_parse, fun h => h ▸ parse_text a⟩

theorem parse_eq_length_iff (n : ℕ) :
    parse text = .error (.length n) ↔ text.utf8ByteSize = n ∧ n ≠ 58 := by
  obtain ⟨hsize, h⟩ | ⟨hsize, -, h⟩ | ⟨hsize, -, h⟩ | ⟨hsize, -, a, h⟩ := parse_cases text
  · simp only [h, Except.error.injEq, AddressError.length.injEq]
    exact ⟨fun hn => ⟨hn, hn ▸ hsize⟩, And.left⟩
  all_goals
    simp only [h, hsize, Except.error.injEq, reduceCtorEq, false_iff]
    omega

theorem parse_eq_base32_iff :
    parse text = .error .base32 ↔ text.utf8ByteSize = 58 ∧ Misspelt text := by
  obtain ⟨hsize, h⟩ | ⟨hsize, hspelling, h⟩ | ⟨hsize, hspelling, h⟩ | ⟨hsize, hspelling, a, h⟩ :=
    parse_cases text
  · simp [h, hsize]
  all_goals simp [h, hspelling, hsize]

theorem parse_eq_checksum_iff :
    parse text = .error .checksum ↔
      text.utf8ByteSize = 58 ∧ ¬ Misspelt text ∧ ∀ a : Address, text ≠ a.text := by
  simp only [ne_eq, ← parse_eq_ok_iff]
  obtain ⟨hsize, h⟩ | ⟨hsize, hspelling, h⟩ | ⟨hsize, hspelling, h⟩ | ⟨hsize, hspelling, a, h⟩ :=
    parse_cases text
  · simp [h, hsize]
  all_goals simp [h, hspelling, hsize]

end Reading

/-- Writing and reading are inverse to each other: each address has a text of 58 characters that is read
as that address, and a text is read as an address only if it is the text of the address. Any other text
is refused: for its length if it has not 58 bytes, for its spelling if it is misspelt, and for its
checksum if it is neither. Whatever is read in 58 bytes of text is 36 bytes long. -/
theorem parse_inverts_text :
    (∀ a : Address, a.text.length = 58 ∧ parse a.text = .ok a) ∧
      ∀ text : String,
        (∀ a : Address, parse text = .ok a ↔ text = a.text) ∧
        (∀ n, parse text = .error (.length n) ↔ text.utf8ByteSize = n ∧ n ≠ 58) ∧
        (parse text = .error .base32 ↔ text.utf8ByteSize = 58 ∧ Misspelt text) ∧
        (parse text = .error .checksum ↔
          text.utf8ByteSize = 58 ∧ ¬ Misspelt text ∧ ∀ a : Address, text ≠ a.text) ∧
        (∀ raw, text.utf8ByteSize = 58 → Base32.decode? text.toList = some raw → raw.length = 36) :=
  ⟨fun a => ⟨a.length_toList_text, parse_text a⟩, fun text =>
    ⟨parse_eq_ok_iff text, parse_eq_length_iff text, parse_eq_base32_iff text,
      parse_eq_checksum_iff text, fun _ => length_of_decode?⟩⟩

/-- The text of the address of zero bytes, and three texts near it: one too short, one with a small
letter, and one with another last symbol. -/
theorem parse_inverts_text_zero :
    let text := "AAAAAAAAAAAAAAAAAAAAAAAAAAAAAAAAAAAAAAAAAAAAAAAAAAAAY5HFKQ"
    let lower := "aAAAAAAAAAAAAAAAAAAAAAAAAAAAAAAAAAAAAAAAAAAAAAAAAAAAY5HFKQ"
    let spare := "AAAAAAAAAAAAAAAAAAAAAAAAAAAAAAAAAAAAAAAAAAAAAAAAAAAAY5HFKR"
    parse text = .ok zero ∧ parse "ABC" = .error (.length 3) ∧ parse lower = .error .base32 ∧
      parse spare = .error .base32 := by
  intro text lower spare
  have htext : text = zero.text := by decide +kernel
  obtain ⟨-, hread⟩ := parse_inverts_text
  refine ⟨((hread text).1 zero).mpr htext, ((hread _).2.1 3).mpr ⟨rfl, by decide⟩,
    (hread lower).2.2.1.mpr ⟨rfl, .inl ⟨'a', ?_, ?_⟩⟩,
    (hread spare).2.2.1.mpr ⟨rfl, .inr ⟨'R', 17, ?_, rfl, by decide⟩⟩⟩
  · decide +kernel
  · unfold Base32.IsSymbol
    decide
  · decide +kernel

end FalconAccount.Address
