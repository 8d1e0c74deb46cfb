/-!
# Replacing stretches of text

Every occurrence of a pattern gives way to a replacement. Occurrences are found from the left, and what
is put in is not searched again.
-/

namespace FalconAccount.Text

/-- `cs` with every occurrence of `pattern` replaced. An empty pattern occurs around every character. -/
def replace (pattern replacement : List Char) : List Char → List Char
  | [] => if pattern.isEmpty then replacement else []
  | c :: cs =>
    if pattern.isEmpty then replacement ++ c :: replace pattern replacement cs
    else if pattern.isPrefixOf (c :: cs) then
      replacement ++ replace pattern replacement (cs.drop (pattern.length - 1))
    else c :: replace pattern replacement cs
termination_by cs => cs.length
decreasing_by all_goals simp only [List.length_cons, List.length_drop]; omega

variable {pattern : List Char} (replacement : List Char)

theorem replace_nil (h : pattern ≠ []) : replace pattern replacement [] = [] := by
  simp [replace, h]

theorem replace_cons_of_not_start {c : Char} {cs : List Char} (h : ¬ pattern <+: c :: cs) :
    replace pattern replacement (c :: cs) = c :: replace pattern replacement cs := by
  have hne : pattern ≠ [] := fun he => h (he ▸ List.nil_prefix)
  rw [replace, if_neg (by simpa using hne), if_neg (by simpa using h)]

/-- Text in which the pattern does not occur stays as it is. -/
theorem replace_of_not_infix {cs : List Char} (hne : pattern ≠ []) (h : ¬ pattern <:+: cs) :
    replace pattern replacement cs = cs := by
  induction cs with
  | nil => exact replace_nil replacement hne
  | cons c cs ih =>
    rw [replace_cons_of_not_start replacement fun hp => h hp.isInfix,
      ih fun hi => h (List.infix_cons hi)]

theorem replace_append_self (h : pattern ≠ []) (cs : List Char) :
    replace pattern replacement (pattern ++ cs) = replacement ++ replace pattern replacement cs := by
  cases pattern with
  | nil => exact absurd rfl h
  | cons p ps =>
    have hp : (p :: ps).isPrefixOf (p :: (ps ++ cs)) = true := by simp
    rw [List.cons_append, replace, if_neg (by simp), if_pos hp]
    simp

/-- Text without the first character of the pattern stays as it is, whatever comes after it. -/
theorem replace_append_of_notMem {p : Char} {cs : List Char} (hp : pattern.head? = some p)
    (h : p ∉ cs) (rest : List Char) :
    replace pattern replacement (cs ++ rest) = cs ++ replace pattern replacement rest := by
  obtain ⟨ps, rfl⟩ := List.head?_eq_some_iff.mp hp
  induction cs with
  | nil => rfl
  | cons c cs ih =>
    have hc : ¬ (p :: ps) <+: c :: (cs ++ rest) := fun hpre =>
      h (by simp [(List.cons_prefix_cons.mp hpre).1])
    rw [List.cons_append, replace_cons_of_not_start replacement hc,
      ih fun hm => h (List.mem_cons_of_mem c hm), List.cons_append]

end FalconAccount.Text
