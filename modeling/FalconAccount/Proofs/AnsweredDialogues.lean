import FalconAccount.Proofs.Cancellation

/-!
# Dialogues answered by dialogues

The questions of a dialogue can be answered by dialogues of another kind. A run of the whole is then the
inner runs one after another: it takes their time, and it asks what they ask.
-/

namespace FalconAccount.Dialogue

variable {Q R σ : Type} {A : Q → Type} {B : R → Type} {α β γ : Type}

section Time

variable (answer : σ → (q : Q) → A q × σ)

theorem transcript_value (x : Dialogue Q A α) (s : σ) :
    (x.transcript answer s).value = (x.run answer s).1 := by
  obtain ⟨hvalue, -, -⟩ := runTimed_none_transcript answer (fun _ _ => 0) 0 x s
  exact Option.some.inj (hvalue.symm.trans (runTimed_none answer _ 0 x s).1)

theorem transcript_state (x : Dialogue Q A α) (s : σ) :
    (x.transcript answer s).state = (x.run answer s).2 := by
  obtain ⟨-, -, hstate⟩ := runTimed_none_transcript answer (fun _ _ => 0) 0 x s
  exact hstate.symm.trans (runTimed_none answer _ 0 x s).2

variable (delay : σ → Q → Nat)

theorem duration_bind (x : Dialogue Q A α) (f : α → Dialogue Q A β) (s : σ) :
    (x.bind f).duration answer delay s = x.duration answer delay s +
      (f (x.run answer s).1).duration answer delay (x.run answer s).2 := by
  induction x generalizing s with
  | done a => exact (Nat.zero_add _).symm
  | ask q next ih =>
    rw [bind_ask, duration, ih, ← Nat.add_assoc]
    rfl

variable {limit : Option Nat} {now : ℕ}

theorem runTimed_of_duration (x : Dialogue Q A α) (s : σ)
    (h : limit.all (now + x.duration answer delay s ≤ ·) = true) :
    (x.runTimed answer delay limit now s).outcome = some (x.run answer s).1 ∧
      (x.runTimed answer delay limit now s).state = (x.run answer s).2 := by
  cases limit with
  | none => exact runTimed_none answer delay now x s
  | some limit =>
    rw [runTimed_of_duration_le answer delay x s (by simpa using h)]
    exact runTimed_none answer delay now x s

theorem outcome_runTimed_eq_some_iff (hnow : limit.all (now ≤ ·) = true) (x : Dialogue Q A α) (s : σ)
    {a : α} :
    (x.runTimed answer delay limit now s).outcome = some a ↔
      limit.all (now + x.duration answer delay s ≤ ·) = true ∧ (x.run answer s).1 = a := by
  by_cases h : limit.all (now + x.duration answer delay s ≤ ·) = true
  · rw [(runTimed_of_duration answer delay x s h).1, Option.some_inj]
    exact (and_iff_right h).symm
  · refine iff_of_false (fun hend => ?_) fun hend => h hend.1
    cases limit with
    | none => exact h rfl
    | some limit =>
      have hlate : (x.runTimed answer delay (some limit) now s).outcome = none :=
        outcome_of_lt_duration answer delay x s (by simpa using hnow) (by simpa using h)
      cases hlate.symm.trans hend

end Time

section Answered

variable (answer : (q : Q) → Dialogue R B (A q)) (respond : σ → (r : R) → B r × σ)

theorem duration_answerBy (delay : σ → R → Nat) (x : Dialogue Q A α) (s : σ) :
    (x.answerBy answer).duration respond delay s =
      x.duration (fun s q => (answer q).run respond s)
        (fun s q => (answer q).duration respond delay s) s := by
  induction x generalizing s with
  | done a => rfl
  | ask q next ih =>
    rw [answerBy, duration_bind, ih]
    rfl

/-- Whether the whole ends, and how, is decided by the run in which every inner run is one answer. -/
theorem outcome_runTimed_answerBy (delay : σ → R → Nat) {limit : Option Nat} {now : ℕ}
    (hnow : limit.all (now ≤ ·) = true) (x : Dialogue Q A α) (s : σ) :
    ((x.answerBy answer).runTimed respond delay limit now s).outcome =
      (x.runTimed (fun s q => (answer q).run respond s)
        (fun s q => (answer q).duration respond delay s) limit now s).outcome := by
  refine Option.ext fun a => ?_
  rw [outcome_runTimed_eq_some_iff _ _ hnow, outcome_runTimed_eq_some_iff _ _ hnow,
    duration_answerBy, run_answerBy]

/-- What is picked out of the questions of the whole is what is picked out of the inner runs, one after
another, if that does not depend on the answers. -/
theorem filterMap_exchanges_answerBy (pick : R → Option γ) (picked : Q → List γ)
    (h : ∀ q s, ((answer q).transcript respond s).exchanges.filterMap (pick ·.1) = picked q)
    (x : Dialogue Q A α) (s : σ) :
    ((x.answerBy answer).transcript respond s).exchanges.filterMap (pick ·.1) =
      (x.transcript (fun s q => (answer q).run respond s) s).exchanges.flatMap (picked ·.1) := by
  induction x generalizing s with
  | done a => rfl
  | ask q next ih =>
    rw [answerBy, transcript_bind]
    change List.filterMap _ (_ ++ _) = picked q ++ _
    rw [List.filterMap_append, h, ih, transcript_value, transcript_state]
    rfl

end Answered

/-- Whatever the answers are, all questions are of this kind. -/
inductive AsksOnly (P : Q → Prop) : Dialogue Q A α → Prop
  | done (a : α) : AsksOnly P (.done a)
  | ask {q : Q} {next : A q → Dialogue Q A α} (hq : P q) (hnext : ∀ a, AsksOnly P (next a)) :
    AsksOnly P (.ask q next)

namespace AsksOnly

variable {P : Q → Prop} {x : Dialogue Q A α}

theorem bind {f : α → Dialogue Q A β} (hx : AsksOnly P x) (hf : ∀ a, AsksOnly P (f a)) :
    AsksOnly P (x.bind f) := by
  induction hx with
  | done a => exact hf a
  | ask hq _ ih => exact .ask hq ih

theorem answerBy {P' : R → Prop} {answer : (q : Q) → Dialogue R B (A q)} (hx : AsksOnly P x)
    (h : ∀ q, P q → AsksOnly P' (answer q)) : AsksOnly P' (x.answerBy answer) := by
  induction hx with
  | done a => exact .done a
  | ask hq _ ih => exact (h _ hq).bind ih

theorem of_mem_exchanges {answer : σ → (q : Q) → A q × σ} (hx : AsksOnly P x) {s : σ}
    {e : (q : Q) × A q} (he : e ∈ (x.transcript answer s).exchanges) : P e.1 := by
  induction hx generalizing s with
  | done a => cases he
  | ask hq _ ih =>
    rcases List.mem_cons.mp he with rfl | he
    · exact hq
    · exact ih _ he

end AsksOnly

end FalconAccount.Dialogue
