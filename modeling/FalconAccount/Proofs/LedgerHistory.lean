import FalconAccount.Ledger.Simulator
import FalconAccount.LogicSig
import Mathlib.Tactic

/-!
# The history of a ledger

A call to the ledger does one of three things: it has a group accepted, it has a group refused, or it lets
rounds pass. So the log and the rounds only grow, the arrivals say which accepted group had an identifier
last, and a refused group leaves no trace but its count.
-/

namespace FalconAccount

def Submission.Has (s : Submission) (id : String) : Prop := id ∈ s.ids.map TxId.text

instance (s : Submission) (id : String) : Decidable (s.Has id) :=
  inferInstanceAs (Decidable (id ∈ s.ids.map TxId.text))

theorem GroupReader.length_le_of_readMembers {room position : ℕ} {bs : Bytes} {ids : List TxId}
    (h : readMembers room position bs = .ok ids) : ids.length ≤ room := by
  fun_induction readMembers generalizing ids with
  | case1 room position =>
    obtain rfl := Except.ok.inj h
    exact Nat.zero_le room
  | case2 | case3 | case4 => cases h
  | case5 room position bs _ body rest _ ih =>
    cases hrest : readMembers room (position + (bs.length - rest.length)) rest with
    | error e =>
      rw [hrest] at h
      cases h
    | ok others =>
      rw [hrest] at h
      obtain rfl := Except.ok.inj h
      exact Nat.succ_le_succ (ih hrest)

namespace Ledger

def atRound (l : Ledger) (round : UInt64) : Ledger := { l with round := round }

def counted (l : Ledger) : Ledger := { l with submitCalls := l.submitCalls + 1 }

section Calls

variable {l : Ledger} {group : Bytes} {s : Submission}

/-- A group is accepted unless the ledger refuses all groups, or it cannot be read, or it is empty. -/
theorem accept_eq_ok_iff :
    l.accept group = .ok s ↔ l.submitRefusal = none ∧
      ∃ ids, transactionIds group = .ok ids ∧ ids ≠ [] ∧ s = ⟨group, ids, l.round⟩ := by
  unfold accept
  cases l.submitRefusal with
  | some reason => simp [throw, throwThe, MonadExceptOf.throw, bind, Except.bind]
  | none =>
    cases transactionIds group with
    | error e => simp [bind, Except.bind, Except.mapError]
    | ok ids =>
      cases ids with
      | nil => simp [throw, throwThe, MonadExceptOf.throw, bind, Except.bind, Except.mapError]
      | cons id ids => simp [bind, Except.bind, Except.mapError, pure, Except.pure, eq_comm]

theorem submit_of_accept (h : l.accept group = .ok s) :
    l.submit group = (.ok ((s.ids.head?.map TxId.text).getD ""), l.counted.record s) := by
  rw [submit, h]
  rfl

theorem submit_of_refusal {fault : Fault} (h : l.accept group = .error fault) :
    l.submit group = (.error fault, l.counted) := by
  rw [submit, h]
  rfl

theorem submit_of_error {fault : Fault} (h : (l.submit group).1 = .error fault) :
    (l.submit group).2 = l.counted := by
  cases haccept : l.accept group with
  | error other => rw [submit_of_refusal haccept]
  | ok s =>
    rw [submit_of_accept haccept] at h
    cases h

/-- Submission fails for a refusal, for bytes that are no group of at most sixteen members, and for an
empty group. -/
theorem exists_submit_error_iff :
    (∃ fault, (l.submit group).1 = .error fault) ↔
      l.submitRefusal ≠ none ∨ (∃ e, transactionIds group = .error e) ∨ transactionIds group = .ok [] := by
  cases haccept : l.accept group with
  | error fault =>
    rw [submit_of_refusal haccept]
    refine iff_of_true ⟨fault, rfl⟩ ?_
    by_contra hnone
    push Not at hnone
    obtain ⟨hrefusal, hread, hne⟩ := hnone
    cases hids : transactionIds group with
    | error e => exact hread e hids
    | ok ids =>
      have hok := accept_eq_ok_iff.mpr ⟨hrefusal, ids, hids, fun h => hne (h ▸ hids), rfl⟩
      rw [haccept] at hok
      cases hok
  | ok s =>
    obtain ⟨hrefusal, ids, hids, hne, -⟩ := accept_eq_ok_iff.mp haccept
    simp [submit_of_accept haccept, hrefusal, hids, hne]

theorem submit_of_ok {first : String} (h : (l.submit group).1 = .ok first) :
    ∃ ids, transactionIds group = .ok ids ∧ ids.head?.map TxId.text = some first ∧
      (l.submit group).2.submissions = l.submissions ++ [⟨group, ids, l.round⟩] := by
  cases haccept : l.accept group with
  | error fault =>
    rw [submit_of_refusal haccept] at h
    cases h
  | ok s =>
    obtain ⟨-, ids, hids, hne, rfl⟩ := accept_eq_ok_iff.mp haccept
    obtain ⟨id, others, rfl⟩ := List.exists_cons_of_ne_nil hne
    rw [submit_of_accept haccept] at h ⊢
    exact ⟨_, hids, congrArg some (Except.ok.inj h), submissions_record l.counted _⟩

section Waiting

variable {id : String} {arrived rounds : UInt64} (maxRounds : UInt64)

theorem wait_of_unknown (h : l.arrival? id = none) :
    l.wait id maxRounds = (.pending, l.atRound (saturatingAdd l.round maxRounds)) := by
  simp only [wait, h, atRound]

theorem wait_of_confirmAfter (h : l.arrival? id = some arrived) (hfate : l.fate = .confirmAfter rounds) :
    l.wait id maxRounds =
      if saturatingAdd arrived rounds ≤ saturatingAdd l.round maxRounds then
        (.confirmed (saturatingAdd arrived rounds),
          l.atRound (max l.round (saturatingAdd arrived rounds)))
      else (.pending, l.atRound (saturatingAdd l.round maxRounds)) := by
  simp only [wait, h, hfate, atRound]

theorem wait_of_neverConfirm (h : l.arrival? id = some arrived) (hfate : l.fate = .neverConfirm) :
    l.wait id maxRounds = (.pending, l.atRound (saturatingAdd l.round maxRounds)) := by
  simp only [wait, h, hfate, atRound]

theorem wait_of_poolError {reason : String} (h : l.arrival? id = some arrived)
    (hfate : l.fate = .poolError reason) : l.wait id maxRounds = (.rejected reason, l) := by
  simp only [wait, h, hfate]

end Waiting

theorem exists_round_of_wait (l : Ledger) (id : String) (maxRounds : UInt64) :
    ∃ round, l.round ≤ round ∧ (l.wait id maxRounds).2 = l.atRound round := by
  have hlast := le_saturatingAdd l.round maxRounds
  cases harrival : l.arrival? id with
  | none => exact ⟨_, hlast, congrArg Prod.snd (wait_of_unknown maxRounds harrival)⟩
  | some arrived =>
    cases hfate : l.fate with
    | confirmAfter rounds =>
      rw [wait_of_confirmAfter maxRounds harrival hfate]
      split_ifs
      · exact ⟨_, le_max_word _ _, rfl⟩
      · exact ⟨_, hlast, rfl⟩
    | neverConfirm => exact ⟨_, hlast, congrArg Prod.snd (wait_of_neverConfirm maxRounds harrival hfate)⟩
    | poolError reason =>
      exact ⟨l.round, UInt64.le_refl _, congrArg Prod.snd (wait_of_poolError maxRounds harrival hfate)⟩

/-- All that a call can do to the ledger. -/
inductive Effect (l : Ledger) : (call : NodeCall) → call.Reply → Ledger → Prop where
  | accepted {group : Bytes} {s : Submission} (first : String) : l.accept group = .ok s →
      Effect l (.submit group) (.ok first) (l.counted.record s)
  | refused {group : Bytes} {fault : Fault} : l.accept group = .error fault →
      Effect l (.submit group) (.error fault) l.counted
  | passed {call : NodeCall} (reply : call.Reply) {round : UInt64} : call.isSubmit = false →
      l.round ≤ round → Effect l call reply (l.atRound round)

theorem effect_answer (l : Ledger) (call : NodeCall) :
    Effect l call (l.answer call).1 (l.answer call).2 := by
  cases call with
  | params => exact .passed _ rfl (UInt64.le_refl _)
  | compile source => exact .passed _ rfl (UInt64.le_refl _)
  | submit group =>
    change Effect l (.submit group) (l.submit group).1 (l.submit group).2
    cases haccept : l.accept group with
    | error fault =>
      rw [submit_of_refusal haccept]
      exact .refused haccept
    | ok s =>
      rw [submit_of_accept haccept]
      exact .accepted _ haccept
  | wait id maxRounds =>
    obtain ⟨round, hround, hwait⟩ := exists_round_of_wait l id maxRounds
    change Effect l (.wait id maxRounds) (.ok (l.wait id maxRounds).1) (l.wait id maxRounds).2
    rw [hwait]
    exact .passed _ rfl hround

end Calls

/-- Nothing has happened at the ledger yet. -/
structure Fresh (l : Ledger) : Prop where
  log : l.log = []
  submitCalls : l.submitCalls = 0
  arrivals : l.arrivals = []

/-- The ledger after some calls, one after another. -/
def after (l : Ledger) : List NodeCall → Ledger
  | [] => l
  | call :: calls => (l.answer call).2.after calls

/-- The calls with the answers they get, one after another. -/
def history (l : Ledger) : List NodeCall → List ((c : NodeCall) × c.Reply)
  | [] => []
  | call :: calls => ⟨call, (l.answer call).1⟩ :: (l.answer call).2.history calls

def acceptedGroup? : ((c : NodeCall) × c.Reply) → Option Bytes
  | ⟨.submit group, .ok _⟩ => some group
  | _ => none

/-- What holds of the log and the arrivals at all times. -/
structure Consistent (l : Ledger) : Prop where
  /-- An identifier arrived with the last submission that has it. -/
  arrival : ∀ id, l.arrival? id = (l.log.find? (·.Has id)).map Submission.round
  rounds : ∀ s ∈ l.log, s.round ≤ l.round
  /-- Later submissions stand before earlier ones. -/
  order : l.log.Pairwise fun later earlier => earlier.round ≤ later.round
  ids : ∀ s ∈ l.log, s.ids ≠ [] ∧ transactionIds s.bytes = .ok s.ids

section Steps

variable {l l' : Ledger} {call : NodeCall} {reply : call.Reply}

theorem Fresh.consistent (h : l.Fresh) : l.Consistent where
  arrival := by simp [arrival?, h.arrivals, h.log]
  rounds := by simp [h.log]
  order := by simp [h.log]
  ids := by simp [h.log]

theorem lookup_map_const {ids : List TxId} {round : UInt64} (id : String) :
    (ids.map fun i => (i.text, round)).lookup id =
      if id ∈ ids.map TxId.text then some round else none := by
  induction ids with
  | nil => rfl
  | cons i ids ih =>
    by_cases hid : id = i.text
    · simp [hid]
    · have hne : (id == i.text) = false := by simpa using hid
      simp only [List.map_cons, List.lookup_cons, hne, ih, List.mem_cons, hid, false_or]

/-- The members of a new submission arrive with it, and the other arrivals stay. -/
theorem arrival?_record (l : Ledger) (s : Submission) (id : String) :
    (l.record s).arrival? id = if s.Has id then some s.round else l.arrival? id := by
  have hmem : id ∈ s.ids.reverse.map TxId.text ↔ s.Has id := by
    simp [Submission.Has]
  rw [arrival?, record, List.lookup_append, lookup_map_const]
  by_cases hid : s.Has id
  · rw [if_pos hid, if_pos (hmem.mpr hid)]
    rfl
  · rw [if_neg hid, if_neg (hmem.not.mpr hid)]
    rfl

/-- Every call keeps the log and the arrivals consistent. -/
theorem Effect.consistent (h : Effect l call reply l') (hl : l.Consistent) : l'.Consistent := by
  cases h with
  | @accepted group s first haccept =>
    obtain ⟨-, ids, hids, hne, rfl⟩ := accept_eq_ok_iff.mp haccept
    refine ⟨fun id => ?_, ?_, ?_, ?_⟩
    · rw [arrival?_record]
      change _ = ((_ :: l.log).find? _).map _
      by_cases hid : Submission.Has ⟨group, ids, l.round⟩ id
      · rw [if_pos hid, List.find?_cons_of_pos (by simpa using hid)]
        rfl
      · rw [if_neg hid, List.find?_cons_of_neg (by simpa using hid)]
        exact hl.arrival id
    · exact List.forall_mem_cons.mpr ⟨UInt64.le_refl l.round, hl.rounds⟩
    · exact List.pairwise_cons.mpr ⟨hl.rounds, hl.order⟩
    · exact List.forall_mem_cons.mpr ⟨⟨hne, hids⟩, hl.ids⟩
  | refused haccept => exact ⟨hl.arrival, hl.rounds, hl.order, hl.ids⟩
  | passed reply hcall hround =>
    exact ⟨hl.arrival, fun s hs => UInt64.le_trans (hl.rounds s hs) hround, hl.order, hl.ids⟩

theorem Effect.round_le (h : Effect l call reply l') : l.round ≤ l'.round := by
  cases h with
  | accepted | refused => exact UInt64.le_refl l.round
  | passed reply hcall hround => exact hround

theorem Effect.exists_submissions (h : Effect l call reply l') :
    ∃ new : List Submission, l'.submissions = l.submissions ++ new ∧
      new.map Submission.bytes = (acceptedGroup? ⟨call, reply⟩).toList := by
  cases h with
  | @accepted group s first haccept =>
    obtain ⟨-, ids, -, -, rfl⟩ := accept_eq_ok_iff.mp haccept
    exact ⟨_, submissions_record l.counted _, rfl⟩
  | refused haccept => exact ⟨[], (List.append_nil _).symm, rfl⟩
  | passed reply hcall hround =>
    refine ⟨[], (List.append_nil _).symm, ?_⟩
    cases call with
    | submit group => cases hcall
    | _ => rfl

theorem Effect.submitCalls (h : Effect l call reply l') :
    l'.submitCalls = l.submitCalls + [call].countP NodeCall.isSubmit := by
  cases h with
  | accepted | refused => rfl
  | passed reply hcall hround => simp [atRound, hcall]

end Steps

section Logs

variable {l : Ledger} (h : l.Consistent)
include h

theorem Consistent.isSome_arrival?_iff (id : String) :
    (l.arrival? id).isSome ↔ ∃ s ∈ l.submissions, s.Has id := by
  rw [h.arrival id, Option.isSome_map, List.find?_isSome]
  simp [submissions]

/-- A recorded arrival is the round of the last submission that has the identifier. -/
theorem Consistent.exists_last_of_arrival? {id : String} {round : UInt64}
    (harrival : l.arrival? id = some round) :
    ∃ before s behind, l.submissions = before ++ s :: behind ∧ s.Has id ∧ s.round = round ∧
      ∀ other ∈ behind, ¬ other.Has id := by
  rw [h.arrival id, Option.map_eq_some_iff] at harrival
  obtain ⟨s, hfind, hround⟩ := harrival
  obtain ⟨hs, behind, before, hlog, hbehind⟩ := List.find?_eq_some_iff_append.mp hfind
  exact ⟨before.reverse, s, behind.reverse, by simp [submissions, hlog], by simpa using hs, hround,
    by simpa using hbehind⟩

theorem Consistent.arrival?_le {id : String} {round : UInt64}
    (harrival : l.arrival? id = some round) : round ≤ l.round := by
  obtain ⟨before, s, behind, hlog, -, hround, -⟩ := h.exists_last_of_arrival? harrival
  have hs : s ∈ l.submissions := by simp [hlog]
  exact hround ▸ h.rounds s (by simpa [submissions] using hs)

theorem Consistent.pairwise_submissions :
    (l.submissions.map Submission.round).Pairwise (· ≤ ·) := by
  rw [submissions, List.pairwise_map, List.pairwise_reverse]
  exact h.order

theorem Consistent.ids_of_mem {s : Submission} (hs : s ∈ l.submissions) :
    1 ≤ s.ids.length ∧ s.ids.length ≤ 16 ∧ transactionIds s.bytes = .ok s.ids := by
  obtain ⟨hne, hids⟩ := h.ids s (by simpa [submissions] using hs)
  exact ⟨List.length_pos_of_ne_nil hne, GroupReader.length_le_of_readMembers hids, hids⟩

end Logs

section Runs

variable (l : Ledger) (calls : List NodeCall)

theorem Consistent.after {l : Ledger} (h : l.Consistent) : (l.after calls).Consistent := by
  induction calls generalizing l with
  | nil => exact h
  | cons call calls ih => exact ih ((effect_answer l call).consistent h)

theorem round_le_after : l.round ≤ (l.after calls).round := by
  induction calls generalizing l with
  | nil => exact UInt64.le_refl l.round
  | cons call calls ih => exact UInt64.le_trans (effect_answer l call).round_le (ih _)

theorem exists_submissions_after :
    ∃ new : List Submission, (l.after calls).submissions = l.submissions ++ new ∧
      new.map Submission.bytes = (l.history calls).filterMap acceptedGroup? := by
  induction calls generalizing l with
  | nil => exact ⟨[], (List.append_nil _).symm, rfl⟩
  | cons call calls ih =>
    obtain ⟨first, hfirst, hbytes⟩ := (effect_answer l call).exists_submissions
    obtain ⟨others, hothers, hotherBytes⟩ := ih (l.answer call).2
    refine ⟨first ++ others, ?_, ?_⟩
    · rw [after, hothers, hfirst, List.append_assoc]
    · rw [List.map_append, hbytes, hotherBytes, history, List.filterMap_cons]
      cases acceptedGroup? ⟨call, (l.answer call).1⟩ <;> rfl

theorem submitCalls_after :
    (l.after calls).submitCalls = l.submitCalls + calls.countP NodeCall.isSubmit := by
  induction calls generalizing l with
  | nil => rfl
  | cons call calls ih =>
    have hcons : call :: calls = [call] ++ calls := rfl
    rw [after, ih, (effect_answer l call).submitCalls, hcons, List.countP_append, Nat.add_assoc]

end Runs

/-- After any calls to a fresh ledger: rounds never go back; what has arrived is what the accepted groups
have, and it arrived with the last group that has it, not after the current round; the log holds the
accepted groups in their order, is only added to, its rounds do not go back, and each entry has one to
sixteen identifiers, those that are read from its bytes; every submission was counted. A submission that
succeeds is logged in the current round, and one that fails, for whatever reason, is only counted. -/
theorem after_fresh {start : Ledger} (h : start.Fresh) (calls : List NodeCall) :
    let l := start.after calls
    (∀ later, l.round ≤ (l.after later).round) ∧
      (∀ id, (l.arrival? id).isSome ↔ ∃ s ∈ l.submissions, s.Has id) ∧
      (∀ id round, l.arrival? id = some round → round ≤ l.round ∧
        ∃ before s behind, l.submissions = before ++ s :: behind ∧ s.Has id ∧ s.round = round ∧
          ∀ other ∈ behind, ¬ other.Has id) ∧
      l.submissions.map Submission.bytes = (start.history calls).filterMap acceptedGroup? ∧
      (∀ later, l.submissions <+: (l.after later).submissions) ∧
      (l.submissions.map Submission.round).Pairwise (· ≤ ·) ∧
      (∀ s ∈ l.submissions,
        1 ≤ s.ids.length ∧ s.ids.length ≤ 16 ∧ transactionIds s.bytes = .ok s.ids) ∧
      l.submitCalls = calls.countP NodeCall.isSubmit ∧
      ∀ group,
        (∀ first, (l.answer (.submit group)).1 = .ok first → ∃ ids, transactionIds group = .ok ids ∧
          ids.head?.map TxId.text = some first ∧
          (l.answer (.submit group)).2.submissions = l.submissions ++ [⟨group, ids, l.round⟩]) ∧
        (∀ fault, (l.answer (.submit group)).1 = .error fault →
          (l.answer (.submit group)).2 = { l with submitCalls := l.submitCalls + 1 }) ∧
        ((∃ fault, (l.answer (.submit group)).1 = .error fault) ↔ l.submitRefusal ≠ none ∨
          (∃ e, transactionIds group = .error e) ∨ transactionIds group = .ok []) := by
  intro l
  have hl : l.Consistent := h.consistent.after calls
  obtain ⟨new, hnew, hbytes⟩ := exists_submissions_after start calls
  have hempty : start.submissions = [] := by rw [submissions, h.log, List.reverse_nil]
  have hcalls := submitCalls_after start calls
  rw [h.submitCalls, Nat.zero_add] at hcalls
  rw [hempty, List.nil_append] at hnew
  refine ⟨round_le_after l, hl.isSome_arrival?_iff, ?_, hnew ▸ hbytes, ?_, hl.pairwise_submissions,
    fun s => hl.ids_of_mem, hcalls, fun group => ⟨fun first => submit_of_ok, fun fault => submit_of_error,
      exists_submit_error_iff⟩⟩
  · exact fun id round harrival => ⟨hl.arrival?_le harrival, hl.exists_last_of_arrival? harrival⟩
  · intro later
    obtain ⟨others, hothers, -⟩ := exists_submissions_after l later
    exact ⟨others, hothers.symm⟩

/-- A group, some rounds, the same group again, and bytes that are no group. -/
theorem after_fresh_resubmitted :
    let params : SuggestedParams := ⟨0, 1000, 1000, 2000, "testnet-v1.0", Digest.zero⟩
    let group := encodeGroup [⟨.payment .zero .zero 5 [7] params, ⟨[1], []⟩⟩]
    let l := start.after [.params, .submit group, .wait "unknown" 4, .submit group, .submit [0xc0]]
    start.Fresh ∧ l.submitCalls = 3 ∧ l.submissions.map Submission.bytes = [group, group] ∧
      (l.submissions.map Submission.round).Pairwise (· ≤ ·) ∧
      ∀ id round, l.arrival? id = some round → round ≤ l.round := by
  intro params group l
  have hfresh : start.Fresh := ⟨rfl, rfl, rfl⟩
  obtain ⟨-, -, harrival, hbytes, -, hrounds, -, hcalls, -⟩ := after_fresh hfresh
    [.params, .submit group, .wait "unknown" 4, .submit group, .submit [0xc0]]
  refine ⟨hfresh, hcalls, hbytes.trans ?_, hrounds, fun id round h => (harrival id round h).1⟩
  decide +kernel

end Ledger

end FalconAccount
