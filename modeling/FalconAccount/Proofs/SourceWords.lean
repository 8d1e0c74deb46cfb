import FalconAccount.Proofs.SourceText
import Mathlib.Data.List.Basic

/-!
# What the lines and words of a source are

The lines of a text, the code of a line and the words of the code are said by what they are, not by how
they are found. Each is there in one way only, and the functions that cut texts find it.
-/

namespace FalconAccount

namespace Text

/-- The lines of a text. A line feed ends the line before it, alone or with a carriage return, and the
last line may have none. -/
inductive IsLines : List Char → List (List Char) → Prop
  | nil : IsLines [] []
  | last {line : List Char} (hne : line ≠ []) (h : '\n' ∉ line) : IsLines line [line]
  | feed {line rest : List Char} {lines : List (List Char)} (h : '\n' ∉ line)
    (hr : line.getLast? ≠ some '\r') (hs : IsLines rest lines) :
    IsLines (line ++ '\n' :: rest) (line :: lines)
  | returnFeed {line rest : List Char} {lines : List (List Char)} (h : '\n' ∉ line)
    (hs : IsLines rest lines) : IsLines (line ++ '\r' :: '\n' :: rest) (line :: lines)

/-- The words of a text: the longest stretches of it without a blank. -/
inductive IsWords : List Char → List (List Char) → Prop
  | nil : IsWords [] []
  | blank {c : Char} {cs : List Char} {words : List (List Char)} (hc : isBlank c = true)
    (hs : IsWords cs words) : IsWords (c :: cs) words
  | last {word : List Char} (hne : word ≠ []) (h : ∀ c ∈ word, isBlank c = false) :
    IsWords word [word]
  | word {word cs : List Char} {c : Char} {words : List (List Char)} (hne : word ≠ [])
    (h : ∀ c ∈ word, isBlank c = false) (hc : isBlank c = true) (hs : IsWords cs words) :
    IsWords (word ++ c :: cs) (word :: words)

variable {cs line : List Char} {ls ws : List (List Char)}

theorem lines_of_notMem (hne : line ≠ []) (h : '\n' ∉ line) : lines line = [line] := by
  have hline : ∀ c ∈ line, (c == '\n') = false := fun c hc =>
    beq_eq_false_iff_ne.mpr fun he => h (he ▸ hc)
  rw [lines, splitWhere_of_forall hline]
  simp [linesOfStretches, hne]

theorem dropReturn_append_return (line : List Char) : dropReturn (line ++ ['\r']) = line := by
  simp [dropReturn]

theorem IsLines.lines_eq (h : IsLines cs ls) : lines cs = ls := by
  induction h with
  | nil => rfl
  | last hne h => exact lines_of_notMem hne h
  | feed h hr _ ih => rw [lines_append_newline h, dropReturn, if_neg hr, ih]
  | @returnFeed line rest _ h _ ih =>
    have hsplit : line ++ '\r' :: '\n' :: rest = (line ++ ['\r']) ++ '\n' :: rest := by simp
    have hfeed : '\n' ∉ line ++ ['\r'] := by simpa using h
    rw [hsplit, lines_append_newline hfeed, dropReturn_append_return, ih]

theorem isLines_lines (cs : List Char) : IsLines cs (lines cs) := by
  induction hn : cs.length using Nat.strongRecOn generalizing cs with
  | ind n ih =>
    by_cases hmem : '\n' ∈ cs
    · obtain ⟨line, rest, rfl, h⟩ := List.eq_append_cons_of_mem hmem
      have hrest : IsLines rest (lines rest) := by
        refine ih rest.length ?_ rest rfl
        rw [← hn, List.length_append, List.length_cons]
        omega
      rw [lines_append_newline h]
      by_cases hr : line.getLast? = some '\r'
      · obtain ⟨start, rfl⟩ := List.getLast?_eq_some_iff.mp hr
        rw [dropReturn_append_return, List.append_assoc]
        exact .returnFeed (fun hm => h (List.mem_append_left _ hm)) hrest
      · rw [dropReturn, if_neg hr]
        exact .feed h hr hrest
    · by_cases hne : cs = []
      · subst hne
        exact .nil
      · rw [lines_of_notMem hne hmem]
        exact .last hne hmem

theorem isLines_iff : IsLines cs ls ↔ lines cs = ls :=
  ⟨IsLines.lines_eq, fun h => h ▸ isLines_lines cs⟩

theorem words_cons_of_blank {c : Char} (hc : isBlank c = true) (cs : List Char) :
    words (c :: cs) = words cs := by
  rw [words, splitWhere, if_pos hc]
  rfl

theorem IsWords.words_eq (h : IsWords cs ws) : words cs = ws := by
  induction h with
  | nil => rfl
  | blank hc _ ih => rw [words_cons_of_blank hc, ih]
  | last hne h => exact words_of_forall h hne
  | word hne h hc _ ih => rw [words_append_blank h hne hc, ih]

/-- A text starts with a stretch without blanks, which is all of it or ends at a blank. -/
theorem exists_stretch (cs : List Char) :
    ∃ word rest, cs = word ++ rest ∧ (∀ c ∈ word, isBlank c = false) ∧
      (rest = [] ∨ ∃ c after, rest = c :: after ∧ isBlank c = true) := by
  induction cs with
  | nil => exact ⟨[], [], rfl, by simp, .inl rfl⟩
  | cons c cs ih =>
    by_cases hc : isBlank c = true
    · exact ⟨[], c :: cs, rfl, by simp, .inr ⟨c, cs, rfl, hc⟩⟩
    · obtain ⟨word, rest, rfl, hword, hrest⟩ := ih
      exact ⟨c :: word, rest, rfl, by simpa [hc] using hword, hrest⟩

theorem isWords_words (cs : List Char) : IsWords cs (words cs) := by
  induction hn : cs.length using Nat.strongRecOn generalizing cs with
  | ind n ih =>
    obtain ⟨word, rest, rfl, hword, rfl | ⟨c, after, rfl, hc⟩⟩ := exists_stretch cs
    · rw [List.append_nil]
      by_cases hne : word = []
      · subst hne
        exact .nil
      · rw [words_of_forall hword hne]
        exact .last hne hword
    · have hafter : IsWords after (words after) := by
        refine ih after.length ?_ after rfl
        rw [← hn, List.length_append, List.length_cons]
        omega
      by_cases hne : word = []
      · subst hne
        rw [List.nil_append, words_cons_of_blank hc]
        exact .blank hc hafter
      · rw [words_append_blank hword hne hc]
        exact .word hne hword hc hafter

end Text

namespace Assembly

/-- The code of a line: what comes before the first two slashes. -/
structure IsCode (line code : List Char) : Prop where
  exists_comment : ∃ comment, line = code ++ comment ∧ (comment = [] ∨ ['/', '/'] <+: comment)
  first : ∀ i < code.length, ¬ ['/', '/'] <+: line.drop i

def HasWords (line : List Char) (words : List (List Char)) : Prop :=
  ∃ code, IsCode line code ∧ Text.IsWords code words

theorem isCode_dropComment (line : List Char) : IsCode line (dropComment line) := by
  fun_induction dropComment line with
  | case1 rest => exact ⟨⟨_, rfl, .inr (List.prefix_append _ rest)⟩, by simp⟩
  | case2 c cs hc ih =>
    obtain ⟨⟨comment, hsplit, hcomment⟩, hfirst⟩ := ih
    refine ⟨⟨comment, congrArg (c :: ·) hsplit, hcomment⟩, fun i hi => ?_⟩
    cases i with
    | zero =>
      rintro ⟨rest, hrest⟩
      obtain ⟨rfl, rfl⟩ := List.cons.inj hrest
      exact hc rest rfl rfl
    | succ i => exact hfirst i (Nat.lt_of_succ_lt_succ hi)
  | case3 => exact ⟨⟨[], rfl, .inl rfl⟩, by simp⟩

theorem IsCode.length_le {line code₁ code₂ : List Char} (h₁ : IsCode line code₁)
    (h₂ : IsCode line code₂) : code₂.length ≤ code₁.length := by
  by_contra hlt
  obtain ⟨⟨comment, hsplit, hcomment⟩, -⟩ := h₁
  obtain ⟨⟨comment', hsplit', -⟩, hfirst⟩ := h₂
  refine hfirst code₁.length (Nat.not_le.mp hlt) ?_
  rw [hsplit, List.drop_left]
  refine hcomment.resolve_left ?_
  rintro rfl
  have hlength := congrArg List.length (hsplit.symm.trans hsplit')
  rw [List.length_append, List.length_append, List.length_nil] at hlength
  omega

theorem IsCode.unique {line code₁ code₂ : List Char} (h₁ : IsCode line code₁)
    (h₂ : IsCode line code₂) : code₁ = code₂ := by
  have hlength := Nat.le_antisymm (h₂.length_le h₁) (h₁.length_le h₂)
  obtain ⟨comment, hsplit, -⟩ := h₁.exists_comment
  obtain ⟨comment', hsplit', -⟩ := h₂.exists_comment
  exact (List.append_inj (hsplit.symm.trans hsplit') hlength).1

theorem hasWords_iff {line : List Char} {words : List (List Char)} :
    HasWords line words ↔ lineWords line = words := by
  constructor
  · rintro ⟨code, hcode, hwords⟩
    rw [lineWords, ← hcode.unique (isCode_dropComment line), hwords.words_eq]
  · rintro rfl
    exact ⟨dropComment line, isCode_dropComment line, Text.isWords_words _⟩

end Assembly

end FalconAccount
