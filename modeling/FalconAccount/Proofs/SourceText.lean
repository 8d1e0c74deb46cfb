import FalconAccount.Assembly.Parser
import FalconAccount.ControlProgram
import FalconAccount.Proofs.HexText

/-!
# Lines, words and comments of a source

A line feed ends the line before it, a blank ends the word before it, and two slashes end what is read
of a line. Each law holds for any text after the mark, so a source is read from the front.
-/

namespace FalconAccount

namespace Text

variable {p : Char → Bool} {cs : List Char}

theorem splitWhere_of_forall (h : ∀ c ∈ cs, p c = false) : splitWhere p cs = [cs] := by
  induction cs with
  | nil => rfl
  | cons c cs ih =>
    rw [splitWhere, h c List.mem_cons_self, ih fun d hd => h d (List.mem_cons_of_mem c hd)]
    rfl

theorem splitWhere_append_cons (h : ∀ c ∈ cs, p c = false) {mark : Char} (hm : p mark = true)
    (rest : List Char) : splitWhere p (cs ++ mark :: rest) = cs :: splitWhere p rest := by
  induction cs with
  | nil => rw [List.nil_append, splitWhere, if_pos hm]
  | cons c cs ih =>
    rw [List.cons_append, splitWhere, h c List.mem_cons_self,
      ih fun d hd => h d (List.mem_cons_of_mem c hd)]
    rfl

theorem linesOfStretches_cons (line : List Char) {stretches : List (List Char)}
    (h : stretches ≠ []) :
    linesOfStretches (line :: stretches) = dropReturn line :: linesOfStretches stretches := by
  cases stretches with
  | nil => exact absurd rfl h
  | cons next rest => rfl

theorem lines_append_newline (h : '\n' ∉ cs) (rest : List Char) :
    lines (cs ++ '\n' :: rest) = dropReturn cs :: lines rest := by
  have hcs : ∀ c ∈ cs, (c == '\n') = false := fun c hc =>
    beq_eq_false_iff_ne.mpr fun he => h (he ▸ hc)
  rw [lines, splitWhere_append_cons hcs (by rfl), linesOfStretches_cons _ (splitWhere_ne_nil _ _)]
  rfl

theorem dropReturn_of_notMem (h : '\r' ∉ cs) : dropReturn cs = cs :=
  if_neg fun hl => h (List.mem_of_getLast? hl)

/-- Lines that are written one after another, each with its line feed, are read back. -/
theorem lines_flatMap_newline {ls : List (List Char)} (h : ∀ l ∈ ls, '\n' ∉ l ∧ '\r' ∉ l) :
    lines (ls.flatMap (· ++ ['\n'])) = ls := by
  induction ls with
  | nil => rfl
  | cons l ls ih =>
    obtain ⟨hl, hr⟩ := h l List.mem_cons_self
    rw [List.flatMap_cons, List.append_assoc, List.singleton_append, lines_append_newline hl,
      dropReturn_of_notMem hr, ih fun m hm => h m (List.mem_cons_of_mem l hm)]

@[simp] theorem words_nil : words [] = [] := rfl

theorem words_of_forall (h : ∀ c ∈ cs, isBlank c = false) (hne : cs ≠ []) : words cs = [cs] := by
  rw [words, splitWhere_of_forall h]
  simp [hne]

theorem forall_not_blank_of_any (h : cs.any isBlank = false) : ∀ c ∈ cs, isBlank c = false := by
  simpa using h

theorem words_append_blank (h : ∀ c ∈ cs, isBlank c = false) (hne : cs ≠ []) {blank : Char}
    (hb : isBlank blank = true) (rest : List Char) :
    words (cs ++ blank :: rest) = cs :: words rest := by
  rw [words, splitWhere_append_cons h hb, List.filter_cons_of_pos (by simpa using hne)]
  rfl

end Text

namespace Assembly

theorem dropComment_append_of_notMem {cs : List Char} (h : '/' ∉ cs) (rest : List Char) :
    dropComment (cs ++ rest) = cs ++ dropComment rest := by
  induction cs with
  | nil => rfl
  | cons c cs ih =>
    have hc : c ≠ '/' := fun he => h (he ▸ List.mem_cons_self)
    rw [List.cons_append, dropComment, ih fun hm => h (List.mem_cons_of_mem c hm), List.cons_append]
    intro tail he
    exact fun _ => hc he

theorem dropComment_of_notMem {cs : List Char} (h : '/' ∉ cs) : dropComment cs = cs := by
  simpa [dropComment] using dropComment_append_of_notMem h []

theorem readLine_of_words {version : Nat} {line name : List Char} {operands : List (List Char)}
    {i : Instruction} (hw : lineWords line = name :: operands)
    (hname : String.ofList name ≠ "#pragma")
    (h : readInstruction version name operands = .ok i) :
    readLine (some version) line = .ok (.instruction i) := by
  rw [readLine, hw]
  simp only [hname, if_false, h]
  rfl

theorem readLines_instruction {version : Option Nat} {line : List Char} {i : Instruction}
    (h : readLine version line = .ok (.instruction i)) (number : Nat) (rest : List (List Char)) :
    readLines number version (line :: rest) =
      (readLines (number + 1) version rest).map fun r => (r.1, i :: r.2) := by
  rw [readLines, h]
  change (readLines (number + 1) version rest >>= fun r => Except.ok (r.1, i :: r.2)) = _
  cases readLines (number + 1) version rest <;> rfl

theorem readLines_version {version : Option Nat} {line : List Char} {n : Nat}
    (h : readLine version line = .ok (.version n)) (number : Nat) (rest : List (List Char)) :
    readLines number version (line :: rest) = readLines (number + 1) (some n) rest := by
  rw [readLines, h]
  rfl

end Assembly

end FalconAccount
