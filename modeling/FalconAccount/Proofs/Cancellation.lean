import FalconAccount.Proofs.PaymentCourse

/-!
# Cancellation

A limit only cuts a run short. A run that is over before the limit is the run without a limit. Any other
run is stopped; up to the limit it asked the same questions at the same times, and after it none.
-/

namespace FalconAccount

namespace Dialogue

variable {Q σ : Type} {A : Q → Type} {α : Type}

/-- The time that a run without a limit takes: the delays of all its questions together. -/
def duration (answer : σ → (q : Q) → A q × σ) (delay : σ → Q → Nat) : Dialogue Q A α → σ → Nat
  | .done _, _ => 0
  | .ask q next, s => delay s q + (next (answer s q).1).duration answer delay (answer s q).2

variable (answer : σ → (q : Q) → A q × σ)

/-- If the delays do not depend on the state, they are those of the questions in the transcript. -/
theorem duration_eq_sum (delay : Q → Nat) (x : Dialogue Q A α) (s : σ) :
    x.duration answer (fun _ => delay) s =
      ((x.transcript answer s).exchanges.map fun e => delay e.1).sum := by
  induction x generalizing s with
  | done a => rfl
  | ask q next ih =>
    rw [duration, ih]
    rfl

section Limit

variable (delay : σ → Q → Nat) {limit now : ℕ}

theorem runTimed_ask_of_le {q : Q} (next : A q → Dialogue Q A α) {s : σ}
    (h : now + delay s q ≤ limit) :
    (ask q next).runTimed answer delay (some limit) now s =
      let rest := (next (answer s q).1).runTimed answer delay (some limit) (now + delay s q) (answer s q).2
      { rest with asked := (now, q) :: rest.asked } := by
  rw [runTimed, if_pos (by simpa using h)]

theorem runTimed_ask_of_lt {q : Q} (next : A q → Dialogue Q A α) {s : σ}
    (h : limit < now + delay s q) :
    (ask q next).runTimed answer delay (some limit) now s = ⟨none, [(now, q)], s⟩ := by
  rw [runTimed, if_neg (by simpa using h)]

theorem le_of_mem_asked (x : Dialogue Q A α) (s : σ) {t : ℕ} {q : Q}
    (h : (t, q) ∈ (x.runTimed answer delay none now s).asked) : now ≤ t := by
  induction x generalizing now s with
  | done a => cases h
  | ask first next ih =>
    rcases List.mem_cons.mp h with hfirst | hrest
    · exact (congrArg Prod.fst hfirst).ge
    · exact Nat.le_of_add_right_le (ih _ _ hrest)

/-- A run that is over by the limit is the run without a limit. -/
theorem runTimed_of_duration_le (x : Dialogue Q A α) (s : σ)
    (h : now + x.duration answer delay s ≤ limit) :
    x.runTimed answer delay (some limit) now s = x.runTimed answer delay none now s := by
  induction x generalizing now s with
  | done a => rfl
  | ask q next ih =>
    rw [duration, ← Nat.add_assoc] at h
    rw [runTimed_ask_of_le answer delay next (Nat.le_of_add_right_le h), ih _ _ h]
    rfl

theorem outcome_of_lt_duration (x : Dialogue Q A α) (s : σ) (hnow : now ≤ limit)
    (h : limit < now + x.duration answer delay s) :
    (x.runTimed answer delay (some limit) now s).outcome = none := by
  induction x generalizing now s with
  | done a => exact absurd hnow (Nat.not_le.mpr h)
  | ask q next ih =>
    rw [duration, ← Nat.add_assoc] at h
    by_cases hin : now + delay s q ≤ limit
    · rw [runTimed_ask_of_le answer delay next hin]
      exact ih _ _ hin h
    · rw [runTimed_ask_of_lt answer delay next (Nat.lt_of_not_le hin)]

/-- The questions up to the limit are the first ones of the run without a limit. -/
theorem asked_isPrefix (x : Dialogue Q A α) (s : σ) :
    (x.runTimed answer delay (some limit) now s).asked <+:
      (x.runTimed answer delay none now s).asked := by
  induction x generalizing now s with
  | done a => exact List.prefix_rfl
  | ask q next ih =>
    by_cases hin : now + delay s q ≤ limit
    · rw [runTimed_ask_of_le answer delay next hin]
      exact (List.prefix_cons_inj (now, q)).mpr (ih _ _)
    · rw [runTimed_ask_of_lt answer delay next (Nat.lt_of_not_le hin)]
      exact ⟨_, rfl⟩

/-- What is asked under a limit is what is asked by then without one. -/
theorem asked_eq_filter (x : Dialogue Q A α) (s : σ) (hnow : now ≤ limit) :
    (x.runTimed answer delay (some limit) now s).asked =
      (x.runTimed answer delay none now s).asked.filter (·.1 ≤ limit) := by
  induction x generalizing now s with
  | done a => rfl
  | ask q next ih =>
    change _ = ((now, q) :: _).filter _
    rw [List.filter_cons_of_pos (by simpa using hnow)]
    by_cases hin : now + delay s q ≤ limit
    · rw [runTimed_ask_of_le answer delay next hin]
      exact congrArg ((now, q) :: ·) (ih _ _ hin)
    · rw [runTimed_ask_of_lt answer delay next (Nat.lt_of_not_le hin)]
      -- the questions that follow are asked when the late answer is there
      have hlate : ∀ e ∈ ((next (answer s q).1).runTimed answer delay none (now + delay s q)
          (answer s q).2).asked, ¬ decide (e.1 ≤ limit) = true := by
        intro e he
        have hstart := le_of_mem_asked answer delay (q := e.2) _ _ he
        simp only [decide_eq_true_eq]
        omega
      exact congrArg ((now, q) :: ·) (List.filter_eq_nil_iff.mpr hlate).symm

end Limit

end Dialogue

namespace Limits

/-- The limit that stands for a cancellation. -/
def bound? (limits : Limits) : Cancellation → Option Nat
  | .deadline => limits.deadline
  | .abort => limits.abort

def IsFirst (limits : Limits) (limit : ℕ) : Prop :=
  (∃ reason, limits.bound? reason = some limit) ∧
    ∀ reason other, limits.bound? reason = some other → limit ≤ other

/-- The smallest limit comes first. On a tie the deadline does. -/
theorem IsFirst.exists_first? {limits : Limits} {limit : ℕ} (h : limits.IsFirst limit) :
    ∃ reason, limits.first? = some (limit, reason) ∧ limits.bound? reason = some limit := by
  obtain ⟨⟨reason, hreason⟩, hleast⟩ := h
  obtain ⟨deadline, abort⟩ := limits
  cases reason with
  | deadline =>
    obtain rfl : deadline = some limit := hreason
    cases abort with
    | none => exact ⟨.deadline, rfl, rfl⟩
    | some a => exact ⟨.deadline, if_neg (Nat.not_lt.mpr (hleast .abort a rfl)), rfl⟩
  | abort =>
    obtain rfl : abort = some limit := hreason
    cases deadline with
    | none => exact ⟨.abort, rfl, rfl⟩
    | some d =>
      rcases (hleast .deadline d rfl).eq_or_lt with rfl | hlt
      · exact ⟨.deadline, if_neg (Nat.lt_irrefl limit), rfl⟩
      · exact ⟨.abort, if_pos hlt, rfl⟩

end Limits

namespace Protocol

variable {σ ε α : Type} (answer : σ → (r : Request) → r.Reply × σ) (delay : σ → Request → Nat)

def duration (program : Protocol ε α) (s : σ) : Nat := Dialogue.duration answer delay program.run s

variable [Cancellable ε] {limits : Limits} {limit : ℕ} (program : Protocol ε α) (s : σ)

theorem runWithin_abort_zero (h : limits.abort = some 0) :
    program.runWithin answer delay limits s =
      ⟨some (.error (Cancellable.cancelled .abort)), [], s⟩ := by
  rw [runWithin, if_pos h]

theorem runWithin_none :
    program.runWithin answer delay Limits.none s =
      Dialogue.runTimed answer delay none 0 program.run s := rfl

variable (habort : limits.abort ≠ some 0)
include habort

theorem runWithin_of_first? {reason : Cancellation} (h : limits.first? = some (limit, reason)) :
    program.runWithin answer delay limits s =
      let result := Dialogue.runTimed answer delay (some limit) 0 program.run s
      { result with outcome := some (result.outcome.getD (.error (Cancellable.cancelled reason))) } := by
  rw [runWithin, if_neg habort, h]

variable (hfirst : limits.IsFirst limit)
include hfirst

/-- A protocol that is over by the first limit is not touched by the limits. -/
theorem runWithin_of_duration_le (h : program.duration answer delay s ≤ limit) :
    program.runWithin answer delay limits s = program.runWithin answer delay Limits.none s := by
  obtain ⟨reason, hreason, -⟩ := hfirst.exists_first?
  have hwhole := Dialogue.runTimed_of_duration_le answer delay program.run s
    ((Nat.zero_add _).trans_le h)
  obtain ⟨houtcome, -⟩ := Dialogue.runTimed_none answer delay 0 program.run s
  rw [runWithin_of_first? answer delay program s habort hreason, runWithin_none, hwhole]
  simp only [houtcome, Option.getD_some]
  rw [← houtcome]

/-- A protocol that takes longer is cancelled for the first limit, and has asked by then what it asks
without limits. -/
theorem runWithin_of_lt_duration (h : limit < program.duration answer delay s) :
    (∃ reason, limits.bound? reason = some limit ∧
      (program.runWithin answer delay limits s).outcome =
        some (.error (Cancellable.cancelled reason))) ∧
    (program.runWithin answer delay limits s).asked <+:
      (program.runWithin answer delay Limits.none s).asked ∧
    (program.runWithin answer delay limits s).asked =
      (program.runWithin answer delay Limits.none s).asked.filter (·.1 ≤ limit) := by
  obtain ⟨reason, hreason, hbound⟩ := hfirst.exists_first?
  have hcut := Dialogue.outcome_of_lt_duration answer delay program.run s (Nat.zero_le limit)
    (h.trans_eq (Nat.zero_add _).symm)
  rw [runWithin_of_first? answer delay program s habort hreason, runWithin_none]
  refine ⟨⟨reason, hbound, ?_⟩, Dialogue.asked_isPrefix answer delay program.run s,
    Dialogue.asked_eq_filter answer delay program.run s (Nat.zero_le limit)⟩
  simp only [hcut, Option.getD_none]

end Protocol

/-- Limits only cut a payment short. An abort before the start leaves nothing asked. Otherwise, with
`total` the time that the payment takes without limits, the smallest limit decides: if it is after that
time, the limits change nothing. If it is before, the payment is cancelled, for a limit that is the smallest
one; it has asked the first questions of the payment without limits, among them all that are asked before
the limit, and none after it. -/
theorem send_cut_short {σ : Type} (answer : σ → (r : Request) → r.Reply × σ)
    (delay : σ → Request → Nat) (key : PublicKey) (receiver : Address) (amount : UInt64)
    (options : SendOptions) (abort : Option Nat) (s : σ) :
    let unlimited := send key receiver amount { options with deadline := none }
    let full := unlimited.runWithin answer delay Limits.none s
    let total := unlimited.duration answer delay s
    let limits : Limits := ⟨options.deadline, abort⟩
    let run := (send key receiver amount options).runWithin answer delay limits s
    (abort = some 0 → run.outcome = some (.error (.error (.cancelled .abort))) ∧ run.asked = []) ∧
    (abort ≠ some 0 → ∀ limit, limits.IsFirst limit →
      (total < limit → run = full) ∧
      (limit < total →
        (∃ reason, limits.bound? reason = some limit ∧
          run.outcome = some (.error (.error (.cancelled reason)))) ∧
        run.asked <+: full.asked ∧
        (∀ t r, (t, r) ∈ full.asked → t < limit → (t, r) ∈ run.asked) ∧
        ∀ t r, (t, r) ∈ run.asked → t ≤ limit)) := by
  intro unlimited full total limits run
  refine ⟨?_, fun habort limit hfirst => ⟨?_, ?_⟩⟩
  · intro habort
    have hrun : run = ⟨some (.error (.error (.cancelled .abort))), [], s⟩ :=
      Protocol.runWithin_abort_zero answer delay unlimited s habort
    rw [hrun]
    exact ⟨rfl, rfl⟩
  · intro hlimit
    exact Protocol.runWithin_of_duration_le answer delay unlimited s habort hfirst hlimit.le
  · intro hlimit
    obtain ⟨hcancelled, hprefix, hasked⟩ :=
      Protocol.runWithin_of_lt_duration answer delay unlimited s habort hfirst hlimit
    refine ⟨hcancelled, hprefix, fun t r hfull ht => ?_, fun t r hrun => ?_⟩
    · change (t, r) ∈ (unlimited.runWithin answer delay limits s).asked
      rw [hasked]
      exact List.mem_filter.mpr ⟨hfull, decide_eq_true ht.le⟩
    · change (t, r) ∈ (unlimited.runWithin answer delay limits s).asked at hrun
      rw [hasked] at hrun
      exact of_decide_eq_true (List.mem_filter.mp hrun).2

/-- A node that takes a minute to confirm, and an abort before the deadline. -/
theorem send_cut_short_slow :
    let params : SuggestedParams := ⟨0, 1000, 70000, 71000, "mainnet-v1.0", Digest.zero⟩
    let answer : Unit → (r : Request) → r.Reply × Unit := fun _ r =>
      (match r with
        | .node .params => .ok params
        | .node (.compile _) => .error (.plain "down")
        | .node (.submit _) => .ok "another"
        | .node (.wait _ _) => .ok (.confirmed 70001)
        | .sign _ => .ok [1], ())
    let delay : Request → Nat := fun r =>
      match r with
      | .node (.wait _ _) => 60000
      | _ => 20
    let options := { SendOptions.default with deadline := some 300 }
    let run := (send onesKey .zero 5 options).runWithin answer (fun _ => delay)
      ⟨options.deadline, some 200⟩ ()
    run.outcome = some (.error (.error (.cancelled .abort))) ∧ ∀ t r, (t, r) ∈ run.asked → t ≤ 200 := by
  intro params answer delay options run
  obtain ⟨g, hbuild, -⟩ := TransactionGroup.exists_build_of_le params options.fee
    (Derivation.candidate onesKey 0).address .zero options.note (show (5 : UInt64) ≠ 0 by decide)
    (show options.fillerCount ≤ 15 by decide)
  have hprepared : Prepared onesKey .zero 5 { options with deadline := none }
      (Derivation.candidate onesKey 0) params g := ⟨search_onesKey, rfl, hbuild⟩
  have hsigned : [(1 : UInt8)] ≠ [] := by decide
  have hcourse := @Course.confirmed _ _ _ _ _ _ _ _ "another" 70001 hprepared hsigned
  have hlog : Dialogue.Answered answer () (submittedLog (Derivation.candidate onesKey 0) params g [1]
      "another" ++ [⟨.node (.wait g.payment.id.text options.maxRounds), .ok (.confirmed 70001)⟩]) () :=
    .cons rfl (.cons rfl (.cons rfl (.cons rfl (.nil ()))))
  have htotal : (send onesKey .zero 5 { options with deadline := none }).duration answer
      (fun _ => delay) () = 60060 := by
    rw [Protocol.duration, Dialogue.duration_eq_sum]
    change ((Protocol.transcript answer _ ()).exchanges.map _).sum = _
    rw [hcourse.transcript_send hlog]
    simp [submittedLog, signedLog, delay]
  have hfirst : Limits.IsFirst ⟨options.deadline, some 200⟩ 200 := by
    refine ⟨⟨.abort, rfl⟩, ?_⟩
    rintro (_ | _) other hother
    · obtain rfl := Option.some.inj hother
      decide
    · exact (Option.some.inj hother).le
  obtain ⟨-, hcut⟩ := send_cut_short answer (fun _ => delay) onesKey .zero 5 options (some 200) ()
  obtain ⟨-, hlong⟩ := hcut (by decide) 200 hfirst
  obtain ⟨⟨reason, hreason, houtcome⟩, -, -, hlate⟩ := hlong (htotal ▸ by decide)
  cases reason with
  | deadline => exact absurd hreason (by decide)
  | abort => exact ⟨houtcome, hlate⟩

end FalconAccount
