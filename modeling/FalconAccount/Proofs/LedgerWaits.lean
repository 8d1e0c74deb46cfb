import FalconAccount.Proofs.LedgerHistory

/-!
# Waiting on a ledger

Waits for one transaction add up: however a wait is cut into shorter ones, it ends with the same answer
and leaves the same ledger. When several clients share a ledger, what one of them waits for is decided by
the last group that was accepted with it, and a confirmation that was given once is given again.
-/

namespace FalconAccount

theorem exists_last_of_exists_mem {α : Type} {p : α → Prop} {xs : List α} (h : ∃ x ∈ xs, p x) :
    ∃ before x behind, xs = before ++ x :: behind ∧ p x ∧ ∀ y ∈ behind, ¬ p y := by
  induction xs with
  | nil => simp at h
  | cons x xs ih =>
    by_cases hlater : ∃ y ∈ xs, p y
    · obtain ⟨before, y, behind, rfl, hy⟩ := ih hlater
      exact ⟨x :: before, y, behind, rfl, hy⟩
    · have hx : p x := by simpa [hlater] using h
      exact ⟨[], x, xs, rfl, hx, by simpa using hlater⟩

namespace Ledger

section Parts

variable {l : Ledger} {id : String} {arrived rounds : UInt64}

theorem wait_atRound_of_confirmAfter (round a : UInt64) (h : l.arrival? id = some arrived)
    (hfate : l.fate = .confirmAfter rounds) :
    (l.atRound round).wait id a =
      if saturatingAdd arrived rounds ≤ saturatingAdd round a then
        (.confirmed (saturatingAdd arrived rounds),
          l.atRound (max round (saturatingAdd arrived rounds)))
      else (.pending, l.atRound (saturatingAdd round a)) :=
  wait_of_confirmAfter (l := l.atRound round) a h hfate

/-- The commit round may be reached in the first wait, in the second, or in neither. -/
theorem wait_wait_of_confirmAfter (h : l.arrival? id = some arrived)
    (hfate : l.fate = .confirmAfter rounds) (a b : UInt64) :
    (l.wait id a).2.wait id b = l.wait id (saturatingAdd a b) := by
  have hlast : saturatingAdd (saturatingAdd l.round a) b = saturatingAdd l.round (saturatingAdd a b) :=
    saturatingAdd_assoc l.round a b
  rw [wait_of_confirmAfter a h hfate, wait_of_confirmAfter (saturatingAdd a b) h hfate, ← hlast]
  generalize hcommit : saturatingAdd arrived rounds = commit
  by_cases hfirst : commit ≤ saturatingAdd l.round a
  · have hwhole : commit ≤ saturatingAdd (saturatingAdd l.round a) b :=
      UInt64.le_trans hfirst (le_saturatingAdd _ b)
    have hsecond : commit ≤ saturatingAdd (max l.round commit) b :=
      UInt64.le_trans (le_max_word_right l.round commit) (le_saturatingAdd _ b)
    rw [if_pos hfirst, if_pos hwhole, wait_atRound_of_confirmAfter _ b h hfate, hcommit,
      if_pos hsecond, max_max_word]
  · rw [if_neg hfirst, wait_atRound_of_confirmAfter _ b h hfate, hcommit]
    have hafter : saturatingAdd l.round a ≤ commit := UInt64.le_of_lt (UInt64.not_le.mp hfirst)
    have hround : l.round ≤ commit := UInt64.le_trans (le_saturatingAdd l.round a) hafter
    rw [max_word_of_le hafter, max_word_of_le hround]

theorem wait_wait (l : Ledger) (id : String) (a b : UInt64) :
    (l.wait id a).2.wait id b = l.wait id (saturatingAdd a b) := by
  cases h : l.arrival? id with
  | none =>
    rw [wait_of_unknown a h, wait_of_unknown (saturatingAdd a b) h, ← saturatingAdd_assoc]
    exact wait_of_unknown (l := l.atRound _) b h
  | some arrived =>
    cases hfate : l.fate with
    | confirmAfter rounds => exact wait_wait_of_confirmAfter h hfate a b
    | neverConfirm =>
      rw [wait_of_neverConfirm a h hfate, wait_of_neverConfirm (saturatingAdd a b) h hfate,
        ← saturatingAdd_assoc]
      exact wait_of_neverConfirm (l := l.atRound _) b h hfate
    | poolError reason =>
      rw [wait_of_poolError a h hfate, wait_of_poolError (saturatingAdd a b) h hfate,
        wait_of_poolError b h hfate]

/-- Waits one after another are one wait for the sum of their rounds. -/
theorem wait_after_waits (l : Ledger) (id : String) (earlier : List UInt64) (last : UInt64) :
    (l.after (earlier.map (.wait id))).wait id last =
      l.wait id (saturate ((earlier.map UInt64.toNat).sum + last.toNat)) := by
  induction earlier generalizing l with
  | nil => rw [List.map_nil, List.map_nil, after, List.sum_nil, Nat.zero_add, saturate_toNat]
  | cons first earlier ih =>
    rw [List.map_cons, List.map_cons, List.sum_cons, Nat.add_assoc, ← saturatingAdd_saturate,
      ← wait_wait]
    exact ih (l.wait id first).2

theorem answer_wait (l : Ledger) (id : String) (maxRounds : UInt64) :
    l.answer (.wait id maxRounds) = (.ok (l.wait id maxRounds).1, (l.wait id maxRounds).2) := rfl

/-- Waiting `a` rounds and then `b` rounds for a transaction gives the answer, and leaves the ledger, that
waiting once for both together does; and so do any number of waits. The rounds together are at most the
largest word. -/
theorem wait_in_parts (l : Ledger) (id : String) :
    (∀ a b : UInt64, (l.answer (.wait id a)).2.answer (.wait id b) =
      l.answer (.wait id (.ofNat (min (a.toNat + b.toNat) (2 ^ 64 - 1))))) ∧
    ∀ (earlier : List UInt64) (last : UInt64),
      (l.after (earlier.map (.wait id))).answer (.wait id last) =
        l.answer (.wait id (.ofNat (min ((earlier.map UInt64.toNat).sum + last.toNat) (2 ^ 64 - 1)))) := by
  constructor
  · intro a b
    have hwait : (l.wait id a).2.wait id b = l.wait id (saturatingAdd a b) := wait_wait l id a b
    rw [answer_wait l id a, answer_wait, hwait]
    rfl
  · intro earlier last
    rw [answer_wait, wait_after_waits]
    rfl

end Parts

section Histories

variable {l l' : Ledger} {call : NodeCall} {reply : call.Reply} {id : String}

theorem after_append (l : Ledger) (first second : List NodeCall) :
    l.after (first ++ second) = (l.after first).after second := by
  induction first generalizing l with
  | nil => rfl
  | cons call first ih => exact ih (l.answer call).2

theorem map_fst_history (l : Ledger) (calls : List NodeCall) :
    (l.history calls).map Sigma.fst = calls := by
  induction calls generalizing l with
  | nil => rfl
  | cons call calls ih => exact congrArg (call :: ·) (ih (l.answer call).2)

theorem of_history_eq_append {calls : List NodeCall} {earlier behind : List ((c : NodeCall) × c.Reply)}
    (h : l.history calls = earlier ++ ⟨call, reply⟩ :: behind) :
    l.history (earlier.map Sigma.fst) = earlier ∧
      reply = ((l.after (earlier.map Sigma.fst)).answer call).1 ∧
      ((l.after (earlier.map Sigma.fst)).answer call).2.history (behind.map Sigma.fst) = behind := by
  induction earlier generalizing l calls with
  | nil =>
    cases calls with
    | nil => cases h
    | cons asked calls =>
      obtain ⟨hfirst, rfl⟩ := List.cons.inj h
      cases hfirst
      refine ⟨rfl, rfl, ?_⟩
      rw [map_fst_history]
      rfl
  | cons first earlier ih =>
    cases calls with
    | nil => cases h
    | cons asked calls =>
      obtain ⟨rfl, hrest⟩ := List.cons.inj h
      obtain ⟨hearlier, hreply, hbehind⟩ := ih hrest
      exact ⟨congrArg (_ :: ·) hearlier, hreply, hbehind⟩

theorem after_append_cons (l : Ledger) (before between : List ((c : NodeCall) × c.Reply))
    (x : (c : NodeCall) × c.Reply) :
    l.after ((before ++ x :: between).map Sigma.fst) =
      ((l.after (before.map Sigma.fst)).answer x.1).2.after (between.map Sigma.fst) := by
  rw [List.map_append, after_append]
  rfl

theorem Effect.fate (h : Effect l call reply l') : l'.fate = l.fate := by
  cases h <;> rfl

theorem fate_after (l : Ledger) (calls : List NodeCall) : (l.after calls).fate = l.fate := by
  induction calls generalizing l with
  | nil => rfl
  | cons call calls ih => exact (ih (l.answer call).2).trans (effect_answer l call).fate

/-- In this exchange a group was accepted that has a transaction with the identifier. -/
def Accepts (id : String) (exchange : (c : NodeCall) × c.Reply) : Prop :=
  ∃ group ids, acceptedGroup? exchange = some group ∧ transactionIds group = .ok ids ∧
    id ∈ ids.map TxId.text

theorem Effect.arrival?_of_accepts (h : Effect l call reply l') (hid : Accepts id ⟨call, reply⟩) :
    l'.arrival? id = some l.round := by
  obtain ⟨group, ids, hgroup, hids, hmem⟩ := hid
  cases h with
  | accepted first haccept =>
    obtain ⟨-, read, hread, -, rfl⟩ := accept_eq_ok_iff.mp haccept
    obtain rfl := Option.some.inj hgroup
    obtain rfl := Except.ok.inj (hids.symm.trans hread)
    exact (arrival?_record l.counted _ id).trans (if_pos hmem)
  | refused haccept => cases hgroup
  | passed reply hcall hround =>
    cases call with
    | submit group => cases hcall
    | _ => cases hgroup

theorem Effect.arrival?_of_not_accepts (h : Effect l call reply l')
    (hid : ¬ Accepts id ⟨call, reply⟩) : l'.arrival? id = l.arrival? id := by
  cases h with
  | @accepted group s first haccept =>
    obtain ⟨-, ids, hids, -, rfl⟩ := accept_eq_ok_iff.mp haccept
    have hother : ¬ Submission.Has ⟨group, ids, l.round⟩ id :=
      fun hmem => hid ⟨group, ids, rfl, hids, hmem⟩
    exact (arrival?_record l.counted _ id).trans (if_neg hother)
  | refused haccept => rfl
  | passed reply hcall hround => rfl

theorem arrival?_after (l : Ledger) {calls : List NodeCall}
    (h : ∀ exchange ∈ l.history calls, ¬ Accepts id exchange) :
    (l.after calls).arrival? id = l.arrival? id := by
  induction calls generalizing l with
  | nil => rfl
  | cons call calls ih =>
    obtain ⟨hfirst, hrest⟩ := List.forall_mem_cons.mp h
    exact (ih (l.answer call).2 hrest).trans ((effect_answer l call).arrival?_of_not_accepts hfirst)

section Confirmations

variable {rounds maxRounds : UInt64}

theorem answer_wait_of_arrival {arrived : UInt64} (hfate : l.fate = .confirmAfter rounds)
    (harrival : l.arrival? id = some arrived)
    (hin : saturatingAdd arrived rounds ≤ saturatingAdd l.round maxRounds) :
    (l.answer (.wait id maxRounds)).1 = .ok (.confirmed (saturatingAdd arrived rounds)) := by
  rw [answer_wait, wait_of_confirmAfter maxRounds harrival hfate, if_pos hin]

/-- A confirmed transaction has arrived, and the ledger is in its commit round or a later one. -/
theorem exists_arrival_of_confirmed {committed : UInt64} (hfate : l.fate = .confirmAfter rounds)
    (h : (l.answer (.wait id maxRounds)).1 = .ok (.confirmed committed)) :
    ∃ arrived, (l.answer (.wait id maxRounds)).2.arrival? id = some arrived ∧
      saturatingAdd arrived rounds = committed ∧
      committed ≤ (l.answer (.wait id maxRounds)).2.round := by
  rw [answer_wait] at h ⊢
  cases harrival : l.arrival? id with
  | none =>
    rw [wait_of_unknown maxRounds harrival] at h
    cases h
  | some arrived =>
    rw [wait_of_confirmAfter maxRounds harrival hfate] at h ⊢
    by_cases hin : saturatingAdd arrived rounds ≤ saturatingAdd l.round maxRounds
    · rw [if_pos hin] at h ⊢
      cases h
      exact ⟨arrived, harrival, rfl, le_max_word_right l.round _⟩
    · rw [if_neg hin] at h
      cases h

/-- An accepted transaction is confirmed to whoever waits long enough, as long as it is not accepted
again. -/
theorem answer_wait_of_accepts (hfate : l.fate = .confirmAfter rounds)
    (haccepts : Accepts id ⟨call, (l.answer call).1⟩) {between : List NodeCall}
    (hbetween : ∀ x ∈ (l.answer call).2.history between, ¬ Accepts id x) (hlong : rounds ≤ maxRounds) :
    (((l.answer call).2.after between).answer (.wait id maxRounds)).1 =
      .ok (.confirmed (saturatingAdd l.round rounds)) := by
  have heffect := effect_answer l call
  have hround : l.round ≤ ((l.answer call).2.after between).round :=
    UInt64.le_trans heffect.round_le (round_le_after (l.answer call).2 between)
  refine answer_wait_of_arrival ?_ ?_ (saturatingAdd_mono hround hlong)
  · rw [fate_after, heffect.fate, hfate]
  · rw [arrival?_after _ hbetween, heffect.arrival?_of_accepts haccepts]

/-- What was confirmed is confirmed again, however short the wait, as long as it is not accepted again. -/
theorem answer_wait_of_confirmed {earlierMax committed : UInt64} (hfate : l.fate = .confirmAfter rounds)
    (hconfirmed : (l.answer (.wait id earlierMax)).1 = .ok (.confirmed committed))
    {between : List NodeCall}
    (hbetween : ∀ x ∈ (l.answer (.wait id earlierMax)).2.history between, ¬ Accepts id x) :
    (((l.answer (.wait id earlierMax)).2.after between).answer (.wait id maxRounds)).1 =
      .ok (.confirmed committed) := by
  obtain ⟨arrived, harrival, rfl, hreached⟩ := exists_arrival_of_confirmed hfate hconfirmed
  have hround := round_le_after (l.answer (.wait id earlierMax)).2 between
  refine answer_wait_of_arrival ?_ ?_ ?_
  · rw [fate_after, (effect_answer l _).fate, hfate]
  · rw [arrival?_after _ hbetween, harrival]
  · exact UInt64.le_trans (UInt64.le_trans hreached hround) (le_saturatingAdd _ maxRounds)

end Confirmations

end Histories

section Clients

variable {ι α : Type} [DecidableEq ι]

/-- What clients that share a ledger ask it, with the answers. Each client is a dialogue of its own, and
the schedule says whose turn it is; a client that has ended lets its turn pass. -/
def sharedHistory (l : Ledger) (clients : ι → Dialogue NodeCall NodeCall.Reply α) :
    (schedule : List ι) → List ((c : NodeCall) × c.Reply)
  | [] => []
  | i :: schedule =>
    match clients i with
    | .done _ => l.sharedHistory clients schedule
    | .ask call next =>
      ⟨call, (l.answer call).1⟩ ::
        (l.answer call).2.sharedHistory (Function.update clients i (next (l.answer call).1)) schedule

/-- To the ledger, clients that share it are one sequence of calls. -/
theorem exists_history_of_shared (l : Ledger) (clients : ι → Dialogue NodeCall NodeCall.Reply α)
    (schedule : List ι) : ∃ calls, l.sharedHistory clients schedule = l.history calls := by
  induction schedule generalizing l clients with
  | nil => exact ⟨[], rfl⟩
  | cons i schedule ih =>
    rw [sharedHistory]
    cases clients i with
    | done a => exact ih l clients
    | ask call next =>
      obtain ⟨calls, hcalls⟩ := ih (l.answer call).2 (Function.update clients i (next (l.answer call).1))
      exact ⟨call :: calls, congrArg (_ :: ·) hcalls⟩

/-- Any number of clients share a ledger that commits groups some rounds after they arrive, in any order of
their turns. A client that waits at least so many rounds for a transaction that was accepted before learns
its commit round, which follows from the round of the ledger when the last group with it arrived. Once the
commit round was told to anyone, it is told to everyone, however short the wait, unless another group with
the transaction was accepted since. -/
theorem shared_confirmations {start : Ledger} {rounds : UInt64} (hfate : start.fate = .confirmAfter rounds)
    (clients : ι → Dialogue NodeCall NodeCall.Reply α) (schedule : List ι) {id : String}
    {maxRounds : UInt64} {reply : (NodeCall.wait id maxRounds).Reply}
    {earlier behind : List ((c : NodeCall) × c.Reply)}
    (hshared : start.sharedHistory clients schedule =
      earlier ++ ⟨.wait id maxRounds, reply⟩ :: behind) :
    ((∃ x ∈ earlier, Accepts id x) → rounds ≤ maxRounds →
      ∃ before x between committed, earlier = before ++ x :: between ∧ Accepts id x ∧
        (∀ y ∈ between, ¬ Accepts id y) ∧ reply = .ok (.confirmed committed) ∧
        committed.toNat =
          min ((start.after (before.map Sigma.fst)).round.toNat + rounds.toNat) (2 ^ 64 - 1)) ∧
    ∀ before earlierMax committed between,
      earlier = before ++ ⟨.wait id earlierMax, .ok (.confirmed committed)⟩ :: between →
      (∀ y ∈ between, ¬ Accepts id y) → reply = .ok (.confirmed committed) := by
  obtain ⟨calls, hcalls⟩ := exists_history_of_shared start clients schedule
  obtain ⟨hearlier, rfl, -⟩ := of_history_eq_append (hcalls.symm.trans hshared)
  have hkept (calls : List NodeCall) : (start.after calls).fate = .confirmAfter rounds :=
    (fate_after start calls).trans hfate
  constructor
  · intro haccepted hlong
    obtain ⟨before, ⟨call, answer⟩, between, rfl, haccepts, hnone⟩ := exists_last_of_exists_mem haccepted
    obtain ⟨-, rfl, hbetween⟩ := of_history_eq_append hearlier
    have hreply := answer_wait_of_accepts (hkept _) haccepts (hbetween.symm ▸ hnone) hlong
    refine ⟨before, _, between, _, rfl, haccepts, hnone, ?_, toNat_saturatingAdd _ _⟩
    rw [after_append_cons]
    exact hreply
  · rintro before earlierMax committed between rfl hnone
    obtain ⟨-, hconfirmed, hbetween⟩ := of_history_eq_append hearlier
    rw [after_append_cons]
    exact answer_wait_of_confirmed (hkept _) hconfirmed.symm (hbetween.symm ▸ hnone)

/-- One client submits a payment and waits for it. In between, another lets four rounds pass and submits
the payment again, so the first learns of round 1005, and then the second does too. -/
theorem shared_confirmations_two :
    let params : SuggestedParams := ⟨0, 1000, 1000, 2000, "testnet-v1.0", Digest.zero⟩
    let payment : Transaction := .payment .zero .zero 5 [7] params
    let group := encodeGroup [⟨payment, ⟨[1], []⟩⟩]
    let id := payment.id.text
    let clients : Bool → Dialogue NodeCall NodeCall.Reply Unit := fun first =>
      if first then .ask (.submit group) fun _ => .ask (.wait id 1) fun _ => .done ()
      else .ask (.wait "unknown" 4) fun _ => .ask (.submit group) fun _ => .ask (.wait id 0) fun _ =>
        .done ()
    start.fate = .confirmAfter 1 ∧ ∃ before reply last,
      start.sharedHistory clients [true, false, false, true, false] =
        before ++ [⟨.wait id 1, reply⟩, ⟨.wait id 0, last⟩] ∧
      (∃ x ∈ before, Accepts id x) ∧ reply = .ok (.confirmed 1005) ∧ last = .ok (.confirmed 1005) := by
  intro params payment group id clients
  let l := start.after [.submit group, .wait "unknown" 4, .submit group]
  let before := start.history [.submit group, .wait "unknown" 4, .submit group]
  have hlog : start.sharedHistory clients [true, false, false, true, false] =
      before ++ [⟨.wait id 1, (l.answer (.wait id 1)).1⟩,
        ⟨.wait id 0, ((l.answer (.wait id 1)).2.answer (.wait id 0)).1⟩] := rfl
  have hids : transactionIds group = .ok [payment.id] := by decide +kernel
  have hgroup : acceptedGroup? ⟨.submit group, (start.answer (.submit group)).1⟩ = some group := by
    decide +kernel
  have haccepts : ∃ x ∈ before, Accepts id x :=
    ⟨_, List.mem_cons_self, group, [payment.id], hgroup, hids, List.mem_singleton_self id⟩
  have hround : (l.answer (.wait id 1)).1 = .ok (.confirmed 1005) := by decide +kernel
  obtain ⟨-, -, -, committed, -, -, -, hreply, -⟩ :=
    (shared_confirmations rfl clients _ hlog).1 haccepts (by decide)
  have hlast : ((l.answer (.wait id 1)).2.answer (.wait id 0)).1 = .ok (.confirmed committed) := by
    have hlog' := hlog
    rw [hreply, List.append_cons] at hlog'
    exact (shared_confirmations rfl clients _ hlog').2 before 1 committed [] rfl (by simp)
  rw [hround] at hreply
  obtain rfl := Confirmation.confirmed.inj (Except.ok.inj hreply)
  exact ⟨rfl, before, _, _, hlog, haccepts, hround, hlast⟩

end Clients

end Ledger

end FalconAccount
