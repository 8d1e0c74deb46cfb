import FalconAccount.KeyFile
import FalconAccount.Proofs.JsonNumerals
import FalconAccount.Proofs.SpelledOperands

/-!
# The text of a key file

A file that names both keys, each with its text between quotes, yields these texts, as long as no
character of them needs an escape.
-/

namespace FalconAccount

theorem Bytes.ofString_append (text rest : String) :
    ofString (text ++ rest) = ofString text ++ ofString rest := by
  rw [ofString, String.toList_append, ofChars_append, ofString, ofString]

theorem Utf8.decodeFrom_ofChars {cs : List Char} (h : ∀ c ∈ cs, c.toNat < 128) (position : ℕ) :
    decodeFrom position (Bytes.ofChars cs) = .ok cs := by
  induction cs generalizing position with
  | nil => rw [Bytes.ofChars_nil, decodeFrom]
  | cons c cs ih =>
    obtain ⟨hc, hcs⟩ := List.forall_mem_cons.mp h
    have hnat : (UInt8.ofNat c.toNat).toNat = c.toNat := Varuint.toNat_ofNat_of_lt (by omega)
    have hlt : UInt8.ofNat c.toNat < 0x80 := by
      rw [UInt8.lt_iff_toNat_lt, hnat]
      exact hc
    have hnext : next (UInt8.ofNat c.toNat) (Bytes.ofChars cs) = .char c (Bytes.ofChars cs) := by
      rw [next, if_pos hlt, hnat, Char.ofNat_toNat]
    rw [Bytes.ofChars, List.flatMap_cons, utf8EncodeChar_of_ascii hc, List.singleton_append,
      ← Bytes.ofChars, decodeFrom]
    split
    · next heq =>
      cases hnext.symm.trans heq
      rw [ih hcs]
      rfl
    · next heq => cases hnext.symm.trans heq
    · next heq => cases hnext.symm.trans heq

namespace Json

/-- A character of ASCII that stands for itself between quotes. -/
def IsPlainChar (c : Char) : Prop := 32 ≤ c.toNat ∧ c.toNat < 128 ∧ c ≠ '"' ∧ c ≠ '\\'

instance : DecidablePred IsPlainChar := fun _ => inferInstanceAs (Decidable (_ ∧ _))

theorem isPlainChar_of_all {cs : List Char} (h : cs.all (IsPlainChar ·) = true) :
    ∀ c ∈ cs, IsPlainChar c :=
  fun c hc => of_decide_eq_true (List.all_eq_true.mp h c hc)

def quoted (text : String) : Bytes := 0x22 :: (Bytes.ofString text ++ [0x22])

def pieces (text : String) : List Piece := (Bytes.ofString text).map .byte

theorem pieceBytes?_map_byte (bs : Bytes) : pieceBytes? (bs.map .byte) = some bs := by
  induction bs with
  | nil => rfl
  | cons b bs ih => rw [List.map_cons, pieceBytes?, ih, Option.map_some]

section Plain

variable {text : String} (h : ∀ c ∈ text.toList, IsPlainChar c)
include h

theorem text?_pieces : text? (pieces text) = some text := by
  have hdecode : Utf8.decode (Bytes.ofString text) = .ok text.toList :=
    Utf8.decodeFrom_ofChars (fun c hc => (h c hc).2.1) 0
  simp only [text?, pieces, pieceBytes?_map_byte, Option.bind_eq_bind, Option.bind_some, hdecode,
    String.ofList_toList]

theorem isPlain_of_isPlainChar : isPlain text = true := by
  have hall : ∀ n < 128, IsPlainChar (Char.ofNat n) →
      (String.utf8EncodeChar (Char.ofNat n)).all fun b => 0x20 ≤ b && b != 0x22 && b != 0x5c := by
    decide +kernel
  rw [isPlain, List.all_eq_true]
  intro b hb
  obtain ⟨c, hc, hbc⟩ := List.mem_flatMap.mp hb
  have hplain : (String.utf8EncodeChar c).all fun b => 0x20 ≤ b && b != 0x22 && b != 0x5c := by
    rw [← Char.ofNat_toNat c] at hc ⊢
    exact hall c.toNat (by simpa using (h _ hc).2.1) (h _ hc)
  exact List.all_eq_true.mp hplain b hbc

theorem value?_quoted (rest : Bytes) (fuel : ℕ) :
    value? (fuel + 1) (quoted text ++ rest) = some (.string (pieces text), rest) := by
  have hquoted : quoted text ++ rest = 0x22 :: (Bytes.ofString text ++ 0x22 :: rest) := by
    simp [quoted]
  rw [hquoted, value?, dropSpace, List.dropWhile_cons_of_neg (by decide)]
  simp only [stringBody_name (isPlain_of_isPlainChar h), Option.map_some]
  rfl

end Plain

end Json

namespace KeyFile

open Json

def fileOf (publicText privateText : String) : String :=
  "\x7b\"public_key\":\"" ++ publicText ++ "\",\"private_key\":\"" ++ privateText ++ "\"\x7d"

theorem ofString_fileOf (publicText privateText : String) :
    Bytes.ofString (fileOf publicText privateText) =
      0x7b :: (entry "public_key" (quoted publicText) ++
        0x2c :: (entry "private_key" (quoted privateText) ++ [0x7d])) := by
  have hopen : Bytes.ofString "\x7b\"public_key\":\"" =
      0x7b :: 0x22 :: (Bytes.ofString "public_key" ++ [0x22, 0x3a, 0x22]) := by
    decide +kernel
  have hnext : Bytes.ofString "\",\"private_key\":\"" =
      0x22 :: 0x2c :: 0x22 :: (Bytes.ofString "private_key" ++ [0x22, 0x3a, 0x22]) := by
    decide +kernel
  have hclose : Bytes.ofString "\"\x7d" = [0x22, 0x7d] := by decide +kernel
  have hfile (first second third publicText privateText : String) :
      Bytes.ofString (first ++ publicText ++ second ++ privateText ++ third) =
        Bytes.ofString first ++ (Bytes.ofString publicText ++ (Bytes.ofString second ++
          (Bytes.ofString privateText ++ Bytes.ofString third))) := by
    simp only [Bytes.ofString_append, List.append_assoc]
  refine (hfile _ _ _ _ _).trans ?_
  simp only [hopen, hnext, hclose, entry, quoted, List.append_assoc, List.cons_append, List.nil_append]

def recordOf (publicText privateText : String) : Record :=
  [("public_key", .string (pieces publicText)), ("private_key", .string (pieces privateText))]

theorem record?_object (publicText privateText : String) :
    record? ["public_key", "private_key"]
      (.object [(pieces "public_key", .string (pieces publicText)),
        (pieces "private_key", .string (pieces privateText))]) =
      some (recordOf publicText privateText) := by
  have hpublic : text? (pieces "public_key") = some "public_key" := by decide +kernel
  have hprivate : text? (pieces "private_key") = some "private_key" := by decide +kernel
  simp only [record?, knownEntries?, List.mapM_cons, List.mapM_nil, hpublic, hprivate,
    Option.map_some, Option.bind_eq_bind, Option.bind_some, Option.pure_def]
  rfl

theorem texts?_fileOf {publicText privateText : String}
    (hpublic : ∀ c ∈ publicText.toList, IsPlainChar c)
    (hprivate : ∀ c ∈ privateText.toList, IsPlainChar c) :
    texts? (Bytes.ofString (fileOf publicText privateText)) = some (publicText, privateText) := by
  have hparse : parse? (Bytes.ofString (fileOf publicText privateText)) = some (.object
      [(pieces "public_key", .string (pieces publicText)),
        (pieces "private_key", .string (pieces privateText))]) := by
    rw [ofString_fileOf]
    refine parse?_of_value? (by simp; omega) fun fuel => ?_
    exact value?_object (entries?_entry_next (by decide) (value?_quoted hpublic _ (fuel + 1))
      (entries?_entry_last (by decide) (value?_quoted hprivate _ fuel)))
  have hfirst : (recordOf publicText privateText).optional "public_key" "" string? =
      some publicText := text?_pieces hpublic
  have hsecond : (recordOf publicText privateText).optional "private_key" "" string? =
      some privateText := text?_pieces hprivate
  simp only [texts?, hparse, record?_object, hfirst, hsecond, Option.bind_eq_bind, Option.bind_some]

end KeyFile

end FalconAccount
