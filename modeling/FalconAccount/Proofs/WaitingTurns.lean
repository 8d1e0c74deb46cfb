import FalconAccount.Proofs.RoundServer

/-!
# The turns of waiting

After one request for the node's status, waiting takes turns: a look at the pool, and a wait for the next
block. Replies are given as a sequence, of which every request takes the next one. The first reply that
decides something ends the waiting; a look that fails counts as one that says nothing.
-/

namespace FalconAccount.NodeClient

/-- What is decided by a reply to a look at the pool. A round above zero comes before a pool error. -/
inductive Decides : Http.Reply → Confirmation → Prop
  | confirmed {reply : Http.Reply} {p : Pending} {round : UInt64}
    (h : interpret readPending reply = .ok p) (hround : p.confirmedRound = some round)
    (hpos : 0 < round) : Decides reply (.confirmed round)
  | rejected {reply : Http.Reply} {p : Pending} (h : interpret readPending reply = .ok p)
    (hround : ∀ round, p.confirmedRound = some round → round = 0) (herror : p.poolError ≠ "") :
    Decides reply (.rejected p.poolError)

/-- The look failed, or it succeeded and says nothing about the transaction. -/
inductive Undecided : Http.Reply → Prop
  | failed {reply : Http.Reply} {e : NodeError} (h : interpret readPending reply = .error e) :
    Undecided reply
  | silent {reply : Http.Reply} {p : Pending} (h : interpret readPending reply = .ok p)
    (hround : ∀ round, p.confirmedRound = some round → round = 0) (herror : p.poolError = "") :
    Undecided reply

def BlockCame (reply : Http.Reply) : Prop := ∃ round, interpret readRound reply = .ok round

/-- Every request gets the next reply. The state is the list of the requests so far. -/
def inTurn (replies : ℕ → Http.Reply) (asked : List Http.Request) (request : Http.Request) :
    Http.Reply × List Http.Request :=
  (replies asked.length, asked ++ [request])

section Turns

variable (endpoint : Endpoint) (id : String)

def lookRequest : Http.Request := getRequest endpoint (pendingPath id)

def blockRequest (round : ℕ) : Http.Request :=
  getRequest endpoint s!"/v2/status/wait-for-block-after/{round}"

def turn (round : ℕ) : List Http.Request := [lookRequest endpoint id, blockRequest endpoint round]

/-- The requests of `count` turns, for consecutive rounds from `start` on. -/
def turns (start count : ℕ) : List Http.Request :=
  (List.range' start count).flatMap (turn endpoint id)

/-- How at most `rounds` turns from the round `start` on end, and with which requests, if the first of
them gets the reply with the number `first`. In the turn `i` the look gets the reply `first + 2 * i`, and
the wait for the block the one after it. -/
inductive TurnsEnd (replies : ℕ → Http.Reply) (first start rounds : ℕ) :
    Except NodeError Confirmation → List Http.Request → Prop
  /-- A look decides. -/
  | decided {i : ℕ} {decision : Confirmation} (hi : i < rounds)
    (hbefore : ∀ j < i, Undecided (replies (first + 2 * j)) ∧ BlockCame (replies (first + 2 * j + 1)))
    (h : Decides (replies (first + 2 * i)) decision) :
    TurnsEnd replies first start rounds (.ok decision)
      (turns endpoint id start i ++ [lookRequest endpoint id])
  /-- A wait for a block fails. -/
  | failed {i : ℕ} {e : NodeError} (hi : i < rounds)
    (hbefore : ∀ j < i, Undecided (replies (first + 2 * j)) ∧ BlockCame (replies (first + 2 * j + 1)))
    (hlook : Undecided (replies (first + 2 * i)))
    (h : interpret readRound (replies (first + 2 * i + 1)) = .error e) :
    TurnsEnd replies first start rounds (.error e) (turns endpoint id start (i + 1))
  /-- All turns are taken. -/
  | pending (hall : ∀ j < rounds,
      Undecided (replies (first + 2 * j)) ∧ BlockCame (replies (first + 2 * j + 1))) :
    TurnsEnd replies first start rounds (.ok .pending) (turns endpoint id start rounds)

end Turns

/-- What the client takes from the reply to a look. -/
def decisionOf (reply : Http.Reply) : Option Confirmation :=
  (interpret readPending reply).toOption.bind Pending.decision?

theorem decisionOf_of_ok {reply : Http.Reply} {p : Pending} (h : interpret readPending reply = .ok p) :
    decisionOf reply = p.decision? := by
  rw [decisionOf, h]
  rfl

theorem Pending.decision?_of_no_round {p : Pending}
    (h : ∀ round, p.confirmedRound = some round → round = 0) :
    p.decision? = if p.poolError.isEmpty then none else some (.rejected p.poolError) := by
  have hfilter : p.confirmedRound.filter (0 < ·) = none := by
    rw [Option.filter_eq_none_iff]
    intro round hround
    simp [h round hround]
  rw [decision?, hfilter]

theorem decisionOf_of_undecided {reply : Http.Reply} (h : Undecided reply) :
    decisionOf reply = none := by
  cases h with
  | failed h =>
    rw [decisionOf, h]
    rfl
  | silent h hround herror =>
    rw [decisionOf_of_ok h, Pending.decision?_of_no_round hround, herror]
    rfl

theorem decisionOf_of_decides {reply : Http.Reply} {decision : Confirmation}
    (h : Decides reply decision) : decisionOf reply = some decision := by
  cases h with
  | confirmed h hround hpos =>
    rw [decisionOf_of_ok h]
    simp [Pending.decision?, hround, Option.filter, hpos]
  | rejected h hround herror =>
    rw [decisionOf_of_ok h, Pending.decision?_of_no_round hround, if_neg (by simpa using herror)]

theorem undecided_or_decides (reply : Http.Reply) :
    Undecided reply ∨ ∃ decision, Decides reply decision := by
  cases h : interpret readPending reply with
  | error e => exact .inl (.failed h)
  | ok p =>
    by_cases hround : ∃ round, p.confirmedRound = some round ∧ 0 < round
    · obtain ⟨round, hround, hpos⟩ := hround
      exact .inr ⟨_, .confirmed h hround hpos⟩
    · have hzero : ∀ round, p.confirmedRound = some round → round = 0 := by
        intro round hsome
        by_contra hne
        exact hround ⟨round, hsome, UInt64.pos_iff_ne_zero.mpr hne⟩
      by_cases herror : p.poolError = ""
      · exact .inl (.silent h hzero herror)
      · exact .inr ⟨_, .rejected h hzero herror⟩

theorem Undecided.not_decides {reply : Http.Reply} {decision : Confirmation} (h : Undecided reply) :
    ¬ Decides reply decision := by
  intro hdecides
  have hnone := decisionOf_of_undecided h
  rw [decisionOf_of_decides hdecides] at hnone
  cases hnone

section Runs

variable {endpoint : Endpoint} {id : String}

theorem run_follow_of_lost {σ : Type} {answer : σ → Http.Request → Http.Reply × σ} {s s₁ s₂ : σ}
    {looked : Except NodeError Pending} {e : NodeError} (k : ℕ) {current : UInt64}
    (hlook : (pending endpoint id).run answer s = (looked, s₁))
    (h : looked.toOption.bind Pending.decision? = none)
    (hblock : (waitForBlockAfter endpoint current).run answer s₁ = (Except.error e, s₂)) :
    (follow endpoint id (k + 1) current).run answer s = (Except.error e, s₂) := by
  rw [follow]
  change (Dialogue.bind _ _).run answer s = _
  rw [Dialogue.run_bind, hlook]
  simp only [h]
  change (Dialogue.bind _ _).run answer s₁ = _
  rw [Dialogue.run_bind, hblock]
  rfl

variable {replies : ℕ → Http.Reply} (htoken : Http.isHeaderValue endpoint.token = true)
include htoken

theorem run_get_inTurn {α : Type} (path : String) (read : Json.Value → Option α)
    (asked : List Http.Request) :
    (get endpoint path read).run (inTurn replies) asked =
      (interpret read (replies asked.length), asked ++ [getRequest endpoint path]) := by
  rw [get, call, if_pos htoken]
  rfl

theorem run_pending_inTurn (asked : List Http.Request) :
    (pending endpoint id).run (inTurn replies) asked =
      (interpret readPending (replies asked.length), asked ++ [lookRequest endpoint id]) :=
  run_get_inTurn htoken _ _ asked

theorem run_waitForBlockAfter_inTurn (round : UInt64) (asked : List Http.Request) :
    (waitForBlockAfter endpoint round).run (inTurn replies) (asked ++ [lookRequest endpoint id]) =
      (interpret readRound (replies (asked.length + 1)), asked ++ turn endpoint id round.toNat) := by
  have hlength : (asked ++ [lookRequest endpoint id]).length = asked.length + 1 :=
    List.length_append
  have hturn : asked ++ turn endpoint id round.toNat =
      asked ++ [lookRequest endpoint id] ++ [blockRequest endpoint round.toNat] := by
    rw [List.append_assoc]
    rfl
  rw [← hlength, hturn]
  exact run_get_inTurn htoken _ readRound _

variable (k : ℕ) (current : UInt64) {asked : List Http.Request}

theorem run_follow_of_decides {decision : Confirmation}
    (h : Decides (replies asked.length) decision) :
    (follow endpoint id (k + 1) current).run (inTurn replies) asked =
      (.ok decision, asked ++ [lookRequest endpoint id]) :=
  run_follow_of_decision k current (run_pending_inTurn htoken asked) (decisionOf_of_decides h)

theorem run_follow_of_noBlock {e : NodeError} (hlook : Undecided (replies asked.length))
    (h : interpret readRound (replies (asked.length + 1)) = .error e) :
    (follow endpoint id (k + 1) current).run (inTurn replies) asked =
      (.error e, asked ++ turn endpoint id current.toNat) := by
  have hblock : (waitForBlockAfter endpoint current).run (inTurn replies)
      (asked ++ [lookRequest endpoint id]) = (.error e, asked ++ turn endpoint id current.toNat) := by
    rw [run_waitForBlockAfter_inTurn htoken, h]
  exact run_follow_of_lost k (run_pending_inTurn htoken asked) (decisionOf_of_undecided hlook) hblock

theorem run_follow_of_turn (hlook : Undecided (replies asked.length))
    (h : BlockCame (replies (asked.length + 1))) :
    (follow endpoint id (k + 1) current).run (inTurn replies) asked =
      (follow endpoint id k (current + 1)).run (inTurn replies)
        (asked ++ turn endpoint id current.toNat) := by
  obtain ⟨last, h⟩ := h
  have hblock : (waitForBlockAfter endpoint current).run (inTurn replies)
      (asked ++ [lookRequest endpoint id]) = (.ok last, asked ++ turn endpoint id current.toNat) := by
    rw [run_waitForBlockAfter_inTurn htoken, h]
  exact run_follow_of_undecided k (run_pending_inTurn htoken asked) (decisionOf_of_undecided hlook)
    hblock

end Runs

section Ends

variable {endpoint : Endpoint} {id : String} {replies : ℕ → Http.Reply} {first start rounds : ℕ}
  {result : Except NodeError Confirmation} {following : List Http.Request}

theorem turns_succ (endpoint : Endpoint) (id : String) (start count : ℕ) :
    turns endpoint id start (count + 1) =
      turn endpoint id start ++ turns endpoint id (start + 1) count := by
  rw [turns, List.range'_succ, List.flatMap_cons]
  rfl

theorem forall_turns_succ {i : ℕ} (hlook : Undecided (replies first))
    (hblock : BlockCame (replies (first + 1)))
    (h : ∀ j < i, Undecided (replies (first + 2 + 2 * j)) ∧
      BlockCame (replies (first + 2 + 2 * j + 1))) :
    ∀ j < i + 1, Undecided (replies (first + 2 * j)) ∧ BlockCame (replies (first + 2 * j + 1)) := by
  rw [Nat.forall_lt_succ_left]
  refine ⟨⟨hlook, hblock⟩, fun j hj => ?_⟩
  have hshift : first + 2 * (j + 1) = first + 2 + 2 * j := by omega
  rw [hshift]
  exact h j hj

/-- A turn that ends nothing comes before the turns that are left. -/
theorem TurnsEnd.after_turn (hlook : Undecided (replies first))
    (hblock : BlockCame (replies (first + 1)))
    (h : TurnsEnd endpoint id replies (first + 2) (start + 1) rounds result following) :
    TurnsEnd endpoint id replies first start (rounds + 1) result
      (turn endpoint id start ++ following) := by
  have hshift (j : ℕ) : first + 2 + 2 * j = first + 2 * (j + 1) := by omega
  cases h with
  | decided hi hbefore h =>
    rw [← List.append_assoc, ← turns_succ]
    rw [hshift] at h
    exact .decided (Nat.succ_lt_succ hi) (forall_turns_succ hlook hblock hbefore) h
  | failed hi hbefore hundecided h =>
    rw [← turns_succ]
    rw [hshift] at hundecided h
    exact .failed (Nat.succ_lt_succ hi) (forall_turns_succ hlook hblock hbefore) hundecided h
  | pending hall =>
    rw [← turns_succ]
    exact .pending (forall_turns_succ hlook hblock hall)

/-- The turns from the round `current` on, where none of them comes to the largest round. -/
theorem exists_run_follow (htoken : Http.isHeaderValue endpoint.token = true) (rounds : ℕ)
    {current : UInt64} (hfit : current.toNat + rounds < UInt64.size) (asked : List Http.Request) :
    ∃ result following,
      (follow endpoint id rounds current).run (inTurn replies) asked = (result, asked ++ following) ∧
        TurnsEnd endpoint id replies asked.length current.toNat rounds result following := by
  induction rounds generalizing current asked with
  | zero => exact ⟨_, [], by rw [List.append_nil]; rfl, .pending (by simp)⟩
  | succ rounds ih =>
    rcases undecided_or_decides (replies asked.length) with hlook | ⟨decision, hdecides⟩
    · cases hblock : interpret readRound (replies (asked.length + 1)) with
      | error e =>
        refine ⟨.error e, turns endpoint id current.toNat 1, ?_, ?_⟩
        · rw [run_follow_of_noBlock htoken rounds current hlook hblock]
          simp [turns]
        · exact .failed (Nat.succ_pos _) (by simp) hlook hblock
      | ok last =>
        have hnext : (current + 1).toNat = current.toNat + 1 := toNat_add_one (by omega)
        obtain ⟨result, following, hrun, hends⟩ := @ih (current + 1) (by omega)
          (asked ++ turn endpoint id current.toNat)
        rw [List.length_append, hnext] at hends
        refine ⟨result, turn endpoint id current.toNat ++ following, ?_, ?_⟩
        · rw [run_follow_of_turn htoken rounds current hlook ⟨last, hblock⟩, hrun, List.append_assoc]
        · exact hends.after_turn hlook ⟨last, hblock⟩
    · refine ⟨.ok decision, [lookRequest endpoint id], ?_, ?_⟩
      · exact run_follow_of_decides htoken rounds current hdecides
      · exact .decided (i := 0) (Nat.succ_pos _) (by simp) hdecides

end Ends

/-- The replies are the same, except that a look that decides nothing may be answered by another one that
decides nothing. The looks are the requests with odd numbers. -/
def SameDecisions (replies other : ℕ → Http.Reply) : Prop :=
  ∀ k, other k = replies k ∨ k % 2 = 1 ∧ Undecided (replies k) ∧ Undecided (other k)

namespace SameDecisions

variable {replies other : ℕ → Http.Reply} (h : SameDecisions replies other) {k : ℕ}
include h

theorem of_even (hk : k % 2 = 0) : other k = replies k := by
  rcases h k with hsame | ⟨hodd, -, -⟩
  · exact hsame
  · omega

theorem undecided (hundecided : Undecided (replies k)) : Undecided (other k) := by
  rcases h k with hsame | ⟨-, -, hother⟩
  · rwa [hsame]
  · exact hother

theorem of_decides {decision : Confirmation} (hdecides : Decides (replies k) decision) :
    other k = replies k := by
  rcases h k with hsame | ⟨-, hundecided, -⟩
  · exact hsame
  · exact absurd hdecides hundecided.not_decides

theorem run_follow {endpoint : Endpoint} {id : String}
    (htoken : Http.isHeaderValue endpoint.token = true) (rounds : ℕ) (current : UInt64)
    {asked : List Http.Request} (hodd : asked.length % 2 = 1) :
    (follow endpoint id rounds current).run (inTurn other) asked =
      (follow endpoint id rounds current).run (inTurn replies) asked := by
  induction rounds generalizing current asked with
  | zero => rfl
  | succ rounds ih =>
    rcases undecided_or_decides (replies asked.length) with hlook | ⟨decision, hdecides⟩
    · have hsame : other (asked.length + 1) = replies (asked.length + 1) := h.of_even (by omega)
      cases hblock : interpret readRound (replies (asked.length + 1)) with
      | error e =>
        rw [run_follow_of_noBlock htoken rounds current hlook hblock,
          run_follow_of_noBlock htoken rounds current (h.undecided hlook) (hsame ▸ hblock)]
      | ok last =>
        have hturn : (asked ++ turn endpoint id current.toNat).length % 2 = 1 := by
          simp [turn, hodd]
        rw [run_follow_of_turn htoken rounds current hlook ⟨last, hblock⟩,
          run_follow_of_turn htoken rounds current (h.undecided hlook) ⟨last, hsame ▸ hblock⟩,
          ih (current + 1) hturn]
    · rw [run_follow_of_decides htoken rounds current hdecides,
        run_follow_of_decides htoken rounds current ((h.of_decides hdecides).symm ▸ hdecides)]

end SameDecisions

section Wait

variable (endpoint : Endpoint) (id : String) (maxRounds : UInt64) (replies : ℕ → Http.Reply)

def statusRequest : Http.Request := getRequest endpoint statusPath

variable {endpoint replies}

theorem run_lastRound_inTurn (htoken : Http.isHeaderValue endpoint.token = true) :
    (lastRound endpoint).run (inTurn replies) [] =
      (interpret readRound (replies 0), [statusRequest endpoint]) :=
  run_get_inTurn htoken statusPath readRound []

theorem run_wait_of_badToken (htoken : Http.isHeaderValue endpoint.token = false) :
    (wait endpoint id maxRounds).run (inTurn replies) [] = (.error .unreachable, []) := by
  rw [wait, lastRound, get, call, htoken]
  rfl

theorem run_wait_of_noStatus (htoken : Http.isHeaderValue endpoint.token = true) {e : NodeError}
    (h : interpret readRound (replies 0) = .error e) :
    (wait endpoint id maxRounds).run (inTurn replies) [] = (.error e, [statusRequest endpoint]) := by
  unfold wait
  change (Dialogue.bind _ _).run _ _ = _
  rw [Dialogue.run_bind, run_lastRound_inTurn htoken, h]
  rfl

/-- The rounds of the waiting are counted from the one after the node's last, up to the largest one. -/
theorem run_wait_of_status (htoken : Http.isHeaderValue endpoint.token = true) {last : UInt64}
    (h : interpret readRound (replies 0) = .ok last) :
    (wait endpoint id maxRounds).run (inTurn replies) [] =
      (follow endpoint id (min maxRounds.toNat (maxWord - (saturatingAdd last 1).toNat))
        (saturatingAdd last 1)).run (inTurn replies) [statusRequest endpoint] := by
  have hstatus : (lastRound endpoint).run (inTurn replies) [] =
      (.ok last, [statusRequest endpoint]) := by
    rw [run_lastRound_inTurn htoken, h]
  have hrounds : (saturatingAdd (saturatingAdd last 1) maxRounds).toNat - (saturatingAdd last 1).toNat =
      min maxRounds.toNat (maxWord - (saturatingAdd last 1).toNat) := by
    rw [toNat_saturatingAdd]
    omega
  rw [run_wait maxRounds hstatus, hrounds]

/-- Waiting does not see which of the replies that decide nothing a look gets. -/
theorem SameDecisions.run_wait {other : ℕ → Http.Reply} (h : SameDecisions replies other) :
    (wait endpoint id maxRounds).run (inTurn other) [] =
      (wait endpoint id maxRounds).run (inTurn replies) [] := by
  cases htoken : Http.isHeaderValue endpoint.token with
  | false => rw [run_wait_of_badToken id maxRounds htoken, run_wait_of_badToken id maxRounds htoken]
  | true =>
    have hstatus : other 0 = replies 0 := h.of_even rfl
    cases hlast : interpret readRound (replies 0) with
    | error e =>
      rw [run_wait_of_noStatus id maxRounds htoken hlast,
        run_wait_of_noStatus id maxRounds htoken (hstatus ▸ hlast)]
    | ok last =>
      rw [run_wait_of_status id maxRounds htoken hlast,
        run_wait_of_status id maxRounds htoken (hstatus ▸ hlast), h.run_follow htoken _ _ rfl]

variable (endpoint replies)

/-- The result of waiting and the requests that it sends, where every request gets the next reply. -/
def waited : Except NodeError Confirmation × List Http.Request :=
  (wait endpoint id maxRounds).run (inTurn replies) []

/-- Waiting asks for the node's status, whose failure is its result, and then takes turns: for the
consecutive rounds after the node's last one, at most as many as it may, and none for the largest round or
beyond. The first decision of a look or failure to wait for a block ends it. Which of the replies that
decide nothing a look gets makes no difference, to the requests or to the result. Where no request can
carry the token, none is sent. -/
theorem wait_takes_turns :
    (Http.isHeaderValue endpoint.token = false →
      waited endpoint id maxRounds replies = (.error .unreachable, [])) ∧
    (Http.isHeaderValue endpoint.token = true →
      (∀ e, interpret readRound (replies 0) = .error e →
        waited endpoint id maxRounds replies = (.error e, [statusRequest endpoint])) ∧
      ∀ last, interpret readRound (replies 0) = .ok last →
        ∃ start rounds result following,
          start = min (last.toNat + 1) (2 ^ 64 - 1) ∧
          rounds = min maxRounds.toNat (2 ^ 64 - 1 - start) ∧
          waited endpoint id maxRounds replies = (result, statusRequest endpoint :: following) ∧
          TurnsEnd endpoint id replies 1 start rounds result following) ∧
    ∀ other, SameDecisions replies other →
      waited endpoint id maxRounds other = waited endpoint id maxRounds replies := by
  refine ⟨run_wait_of_badToken id maxRounds, fun htoken => ⟨fun e he => ?_, fun last hlast => ?_⟩,
    fun other h => h.run_wait id maxRounds⟩
  · exact run_wait_of_noStatus id maxRounds htoken he
  · have hfit : (saturatingAdd last 1).toNat +
        min maxRounds.toNat (maxWord - (saturatingAdd last 1).toNat) < UInt64.size := by
      have hmax : UInt64.size = maxWord + 1 := rfl
      rw [toNat_saturatingAdd]
      omega
    obtain ⟨result, following, hrun, hends⟩ := @exists_run_follow endpoint id replies htoken _ _ hfit
      [statusRequest endpoint]
    exact ⟨_, _, result, following, toNat_saturatingAdd last 1, rfl,
      (run_wait_of_status id maxRounds htoken hlast).trans hrun, hends⟩

/-- A node in round 500 is lost at the first look and confirms at the second one. -/
theorem wait_takes_turns_lostLook :
    let endpoint : Endpoint := ⟨"http://localhost", ""⟩
    let round (n : UInt64) : Http.Reply := .answered 200 (some (RoundServer.roundBody n))
    let look (n : UInt64) : Http.Reply := .answered 200 (some (RoundServer.pendingBody n))
    let replies (first : Http.Reply) : ℕ → Http.Reply
      | 0 => round 500
      | 1 => first
      | 2 => round 502
      | _ => look 502
    let ended : Except NodeError Confirmation × List Http.Request :=
      (.ok (.confirmed 502), [statusRequest endpoint, lookRequest endpoint "TXID",
        blockRequest endpoint 501, lookRequest endpoint "TXID"])
    Http.isHeaderValue endpoint.token = true ∧
      interpret readRound (replies .unreachable 0) = .ok 500 ∧
      SameDecisions (replies .unreachable) (replies (look 0)) ∧
      waited endpoint "TXID" 2 (replies .unreachable) = ended ∧
      waited endpoint "TXID" 2 (replies (look 0)) = ended := by
  intro endpoint round look replies ended
  have htoken : Http.isHeaderValue endpoint.token = true := by decide
  have hstatus : interpret readRound (round 500) = .ok 500 := RoundServer.interpret_roundBody 500
  have hblock : interpret readRound (round 502) = .ok 502 := RoundServer.interpret_roundBody 502
  have hlost : Undecided .unreachable := .failed rfl
  have hsilent : Undecided (look 0) :=
    .silent (RoundServer.interpret_pendingBody 0) (by simp) rfl
  have hlook : interpret readPending (look 502) = .ok ⟨some 502, ""⟩ :=
    RoundServer.interpret_pendingBody 502
  have hdecides : Decides (look 502) (.confirmed 502) := .confirmed hlook rfl (by decide)
  have hsame : SameDecisions (replies .unreachable) (replies (look 0)) := by
    intro k
    match k with
    | 0 => exact .inl rfl
    | 1 => exact .inr ⟨rfl, hlost, hsilent⟩
    | 2 => exact .inl rfl
    | _ + 3 => exact .inl rfl
  obtain ⟨-, hturns, hother⟩ := wait_takes_turns endpoint "TXID" 2 (replies .unreachable)
  obtain ⟨start, rounds, result, following, rfl, rfl, hrun, hends⟩ := (hturns htoken).2 500 hstatus
  have hended : waited endpoint "TXID" 2 (replies .unreachable) = ended := by
    rw [hrun]
    cases hends with
    | @decided i decision hi hbefore h =>
      match i with
      | 0 => exact absurd h hlost.not_decides
      | 1 =>
        have hsome := decisionOf_of_decides h
        rw [show replies .unreachable (1 + 2 * 1) = look 502 from rfl, decisionOf_of_decides hdecides]
          at hsome
        rw [← Option.some.inj hsome]
        rfl
      | i + 2 => exact absurd (hi.trans_le (min_le_left _ _)) (by simp)
    | @failed i e hi hbefore hundecided h =>
      match i with
      | 0 => cases hblock.symm.trans h
      | 1 => exact absurd hdecides hundecided.not_decides
      | i + 2 => exact absurd (hi.trans_le (min_le_left _ _)) (by simp)
    | pending hall => exact absurd hdecides (hall 1 (by decide)).1.not_decides
  exact ⟨htoken, hstatus, hsame, hended, (hother _ hsame).trans hended⟩

end Wait

end FalconAccount.NodeClient
