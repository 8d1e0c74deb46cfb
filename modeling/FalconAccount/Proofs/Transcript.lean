import FalconAccount.Parties

/-!
# Transcripts

The transcript of a run lists every question with the answer it got. It does not depend on time: a run
without a limit asks the questions of its transcript, in that order, and ends with its value and state.
-/

namespace FalconAccount

namespace Dialogue

variable {Q σ : Type} {A : Q → Type} {α β : Type}

variable (answer : σ → (q : Q) → A q × σ)

theorem Transcript.after_after (first second : List ((q : Q) × A q)) (t : Transcript Q A σ α) :
    (t.after second).after first = t.after (first ++ second) := by
  simp [after]

/-- The answers in these exchanges are those that the questions get one after another, from `s` on, and
`s'` is the state after them. -/
inductive Answered : σ → List ((q : Q) × A q) → σ → Prop where
  | nil (s : σ) : Answered s [] s
  | cons {s s' s'' : σ} {q : Q} {a : A q} {log : List ((q : Q) × A q)} :
      answer s q = (a, s') → Answered s' log s'' → Answered s (⟨q, a⟩ :: log) s''

theorem transcript_bind (x : Dialogue Q A α) (f : α → Dialogue Q A β) (s : σ) :
    (x.bind f).transcript answer s =
      ((f (x.transcript answer s).value).transcript answer (x.transcript answer s).state).after
        (x.transcript answer s).exchanges := by
  induction x generalizing s with
  | done a => rfl
  | ask q next ih =>
    rw [bind_ask, transcript, ih, Transcript.after_after]
    rfl

/-- A run without a limit shows its transcript, whatever time the answers take. -/
theorem runTimed_none_transcript (delay : σ → Q → Nat) (now : Nat) (x : Dialogue Q A α) (s : σ) :
    (x.runTimed answer delay none now s).outcome = some (x.transcript answer s).value ∧
      (x.runTimed answer delay none now s).asked.map Prod.snd =
        (x.transcript answer s).exchanges.map Sigma.fst ∧
      (x.runTimed answer delay none now s).state = (x.transcript answer s).state := by
  induction x generalizing now s with
  | done a => exact ⟨rfl, rfl, rfl⟩
  | ask q next ih =>
    obtain ⟨hvalue, hasked, hstate⟩ := ih _ (now + delay s q) (answer s q).2
    exact ⟨hvalue, congrArg (q :: ·) hasked, hstate⟩

/-- A run that no limit cuts off shows its transcript. -/
theorem runTimed_transcript (delay : σ → Q → Nat) (limit : Option Nat) (now : Nat)
    (x : Dialogue Q A α) (s : σ) {value : α}
    (h : (x.runTimed answer delay limit now s).outcome = some value) :
    value = (x.transcript answer s).value ∧
      (x.runTimed answer delay limit now s).asked.map Prod.snd =
        (x.transcript answer s).exchanges.map Sigma.fst := by
  induction x generalizing now s with
  | done a => exact ⟨(Option.some.inj h).symm, rfl⟩
  | ask q next ih =>
    rw [runTimed] at h ⊢
    by_cases hin : limit.all (now + delay s q ≤ ·) = true
    · simp only [hin] at h ⊢
      obtain ⟨hvalue, hasked⟩ := ih _ _ _ h
      exact ⟨hvalue, congrArg (q :: ·) hasked⟩
    · simp only [hin] at h
      cases h

end Dialogue

open Dialogue (Transcript)

abbrev Exchange : Type := (r : Request) × r.Reply

namespace Protocol

variable {σ α β ε : Type} (answer : σ → (r : Request) → r.Reply × σ)

def transcript (p : Protocol ε α) (s : σ) : Transcript Request Request.Reply σ (Except ε α) :=
  Dialogue.transcript answer p.run s

variable {answer} {s s' : σ} {log : List Exchange}

theorem transcript_ask (r : Request) (describe : Fault → ε) (s : σ) :
    (ask r describe).transcript answer s =
      ⟨(answer s r).1.mapError describe, [⟨r, (answer s r).1⟩], (answer s r).2⟩ := rfl

theorem transcript_bind_ok {p : Protocol ε α} {a : α} (f : α → Protocol ε β)
    (h : p.transcript answer s = ⟨.ok a, log, s'⟩) :
    (p >>= f).transcript answer s = ((f a).transcript answer s').after log := by
  change (p.run.bind _).transcript answer s = _
  rw [Dialogue.transcript_bind]
  change p.run.transcript answer s = _ at h
  rw [h]
  rfl

theorem transcript_bind_error {p : Protocol ε α} {e : ε} (f : α → Protocol ε β)
    (h : p.transcript answer s = ⟨.error e, log, s'⟩) :
    (p >>= f).transcript answer s = ⟨.error e, log, s'⟩ := by
  change (p.run.bind _).transcript answer s = _
  rw [Dialogue.transcript_bind]
  change p.run.transcript answer s = _ at h
  rw [h]
  change (Transcript.after log ⟨_, [], s'⟩) = _
  simp [Transcript.after]

theorem transcript_ask_ok {r : Request} {reply : r.Answer} (describe : Fault → ε)
    (h : answer s r = (.ok reply, s')) :
    (ask r describe).transcript answer s = ⟨.ok reply, [⟨r, .ok reply⟩], s'⟩ := by
  rw [transcript_ask, h]
  rfl

theorem transcript_ask_error {r : Request} {fault : Fault} (describe : Fault → ε)
    (h : answer s r = (.error fault, s')) :
    (ask r describe).transcript answer s = ⟨.error (describe fault), [⟨r, .error fault⟩], s'⟩ := by
  rw [transcript_ask, h]
  rfl

/-- Another form of the failure changes nothing else. -/
theorem transcript_adapt {ε' : Type} (f : ε → ε') {p : Protocol ε α} {result : Except ε α}
    (h : p.transcript answer s = ⟨result, log, s'⟩) :
    transcript answer (ExceptT.adapt f p : Protocol ε' α) s = ⟨result.mapError f, log, s'⟩ := by
  change Dialogue.transcript answer (p.run.bind fun result => .done (result.mapError f)) s = _
  rw [Dialogue.transcript_bind]
  change p.run.transcript answer s = _ at h
  rw [h]
  change Transcript.after log ⟨result.mapError f, [], s'⟩ = _
  simp [Transcript.after]

variable [Cancellable ε]

theorem runBetween_none_transcript (node : Node σ) (signer : Signer) (p : Protocol ε α) (s : σ) :
    (p.runBetween node signer Limits.none s).outcome =
        some (p.transcript (node.answerWith signer) s).value ∧
      (p.runBetween node signer Limits.none s).asked.map Prod.snd =
        (p.transcript (node.answerWith signer) s).exchanges.map Sigma.fst ∧
      (p.runBetween node signer Limits.none s).state =
        (p.transcript (node.answerWith signer) s).state :=
  Dialogue.runTimed_none_transcript _ _ _ _ _

/-- What ends otherwise than by being stopped shows the transcript, whatever the limits. -/
theorem runBetween_transcript (node : Node σ) (signer : Signer) (limits : Limits) (p : Protocol ε α)
    (s : σ) {result : Except ε α}
    (h : (p.runBetween node signer limits s).outcome = some result)
    (hgoes : ∀ reason, result ≠ .error (Cancellable.cancelled reason)) :
    result = (p.transcript (node.answerWith signer) s).value ∧
      (p.runBetween node signer limits s).asked.map Prod.snd =
        (p.transcript (node.answerWith signer) s).exchanges.map Sigma.fst := by
  unfold runBetween runWithin at h ⊢
  by_cases habort : limits.abort = some 0
  · rw [if_pos habort] at h
    exact absurd (Option.some.inj h).symm (hgoes .abort)
  · rw [if_neg habort] at h ⊢
    cases hfirst : limits.first? with
    | none =>
      rw [hfirst] at h
      exact Dialogue.runTimed_transcript _ _ none 0 p.run s h
    | some first =>
      rw [hfirst] at h
      refine Dialogue.runTimed_transcript _ _ (some first.1) 0 p.run s ?_
      cases hrun : (Dialogue.runTimed (node.answerWith signer) (node.delayWith signer)
          (some first.1) 0 p.run s).outcome with
      | none =>
        simp only [hrun, Option.getD_none] at h
        exact absurd (Option.some.inj h).symm (hgoes first.2)
      | some ended =>
        simp only [hrun, Option.getD_some] at h
        exact h

end Protocol

end FalconAccount
