import FalconAccount.NodeClient
import Mathlib.Tactic

/-!
# Waiting at a node that commits in a given round

A node tells its last round, moves on when someone waits for a block, and knows a transaction as
confirmed from its commit round on. Waiting looks once before each block, so the first look sees the
round in which the waiting began, the next one the second round after it, and from there on no round is
left out. The last block that is waited for is not looked at.
-/

namespace FalconAccount

theorem toNat_add_one {n : UInt64} (hfit : n.toNat + 1 < UInt64.size) : (n + 1).toNat = n.toNat + 1 := by
  rw [UInt64.toNat_add]
  exact Nat.mod_eq_of_lt hfit

namespace NodeClient

variable {σ α : Type} {answer : σ → Http.Request → Http.Reply × σ} {endpoint : Endpoint} {id : String}
  {s s₁ s₂ : σ}

def getRequest (endpoint : Endpoint) (path : String) : Http.Request where
  method := .get
  url := endpoint.url ++ path
  token := if endpoint.token.isEmpty then none else some endpoint.token
  contentType := none
  body := []

def statusPath : String := "/v2/status"

/-- The path that answers when a block after `round` is there. -/
def blockPath (round : UInt64) : String := s!"/v2/status/wait-for-block-after/{round.toNat}"

def pendingPath (id : String) : String := s!"/v2/transactions/pending/{id}"

theorem run_get {read : Json.Value → Option α} {path : String} {reply : Http.Reply} {a : α}
    (htoken : Http.isHeaderValue endpoint.token = true)
    (h : answer s (getRequest endpoint path) = (reply, s₁)) (hread : interpret read reply = .ok a) :
    (get endpoint path read).run answer s = (.ok a, s₁) := by
  rw [get, call, if_pos htoken]
  change (interpret read (answer s (getRequest endpoint path)).1,
    (answer s (getRequest endpoint path)).2) = _
  rw [h, hread]

theorem run_follow_of_decision {looked : Except NodeError Pending} {decision : Confirmation} (k : ℕ)
    (current : UInt64) (hlook : (pending endpoint id).run answer s = (looked, s₁))
    (h : looked.toOption.bind Pending.decision? = some decision) :
    (follow endpoint id (k + 1) current).run answer s = (.ok decision, s₁) := by
  rw [follow]
  change (Dialogue.bind _ _).run answer s = _
  rw [Dialogue.run_bind, hlook]
  simp only [h]
  rfl

theorem run_follow_of_undecided {looked : Except NodeError Pending} {last : UInt64} (k : ℕ)
    {current : UInt64} (hlook : (pending endpoint id).run answer s = (looked, s₁))
    (h : looked.toOption.bind Pending.decision? = none)
    (hblock : (waitForBlockAfter endpoint current).run answer s₁ = (.ok last, s₂)) :
    (follow endpoint id (k + 1) current).run answer s =
      (follow endpoint id k (current + 1)).run answer s₂ := by
  rw [follow]
  change (Dialogue.bind _ _).run answer s = _
  rw [Dialogue.run_bind, hlook]
  simp only [h]
  change (Dialogue.bind _ _).run answer s₁ = (follow endpoint id k (current + 1)).run answer s₂
  rw [Dialogue.run_bind, hblock]

theorem run_wait {last : UInt64} (maxRounds : UInt64)
    (h : (lastRound endpoint).run answer s = (.ok last, s₁)) :
    (wait endpoint id maxRounds).run answer s =
      (follow endpoint id
        ((saturatingAdd (saturatingAdd last 1) maxRounds).toNat - (saturatingAdd last 1).toNat)
        (saturatingAdd last 1)).run answer s₁ := by
  unfold wait
  change (Dialogue.bind _ _).run answer s = _
  rw [Dialogue.run_bind, h]

/-- Where no round is too large, the waiting takes as many turns as it may, from the next round on. -/
theorem run_wait_of_fit {last maxRounds : UInt64}
    (hfit : last.toNat + maxRounds.toNat + 1 < UInt64.size)
    (h : (lastRound endpoint).run answer s = (.ok last, s₁)) :
    (wait endpoint id maxRounds).run answer s =
      (follow endpoint id maxRounds.toNat (last + 1)).run answer s₁ := by
  have hmax : UInt64.size = maxWord + 1 := rfl
  have hnext : (last + 1).toNat = last.toNat + 1 := toNat_add_one (by omega)
  have hstart : saturatingAdd last 1 = last + 1 := by
    refine UInt64.toNat_inj.mp ?_
    rw [toNat_saturatingAdd, UInt64.toNat_one]
    omega
  have hcount : (saturatingAdd (last + 1) maxRounds).toNat - (last + 1).toNat = maxRounds.toNat := by
    rw [toNat_saturatingAdd]
    omega
  rw [run_wait maxRounds h, hstart, hcount]

end NodeClient

open NodeClient

/-- A node at an endpoint, in states of which `round` gives the last round, that commits the transaction
`id` in the round `commit`. -/
structure CommitsIn {σ : Type} (answer : σ → Http.Request → Http.Reply × σ) (round : σ → UInt64)
    (endpoint : Endpoint) (id : String) (commit : UInt64) : Prop where
  /-- Requests can carry the token. -/
  token : Http.isHeaderValue endpoint.token = true
  /-- The status tells the last round. -/
  status : ∀ s, ∃ reply s', answer s (getRequest endpoint statusPath) = (reply, s') ∧
    interpret readRound reply = .ok (round s) ∧ round s' = round s
  /-- Waiting for a block after a round gives at least the round after it. -/
  block : ∀ s (after : UInt64), after.toNat + 1 < UInt64.size → ∃ reply s' last,
    answer s (getRequest endpoint (blockPath after)) = (reply, s') ∧
      interpret readRound reply = .ok last ∧ (round s').toNat = max (round s).toNat (after.toNat + 1)
  /-- From the commit round on the pool tells that round, and zero before it. -/
  pending : ∀ s, ∃ reply s', answer s (getRequest endpoint (pendingPath id)) = (reply, s') ∧
    interpret readPending reply = .ok ⟨some (if commit ≤ round s then commit else 0), ""⟩ ∧
    round s' = round s

namespace CommitsIn

variable {σ : Type} {answer : σ → Http.Request → Http.Reply × σ} {round : σ → UInt64}
  {endpoint : Endpoint} {id : String} {commit : UInt64}

theorem run_lastRound (h : CommitsIn answer round endpoint id commit) (s : σ) :
    ∃ s', (lastRound endpoint).run answer s = (.ok (round s), s') ∧ round s' = round s := by
  obtain ⟨reply, s', hanswer, hread, hround⟩ := h.status s
  exact ⟨s', run_get h.token hanswer hread, hround⟩

theorem run_waitForBlockAfter (h : CommitsIn answer round endpoint id commit) (s : σ)
    {after : UInt64} (hfit : after.toNat + 1 < UInt64.size) :
    ∃ last s', (waitForBlockAfter endpoint after).run answer s = (.ok last, s') ∧
      (round s').toNat = max (round s).toNat (after.toNat + 1) := by
  obtain ⟨reply, s', last, hanswer, hread, hround⟩ := h.block s after hfit
  exact ⟨last, s', run_get h.token hanswer hread, hround⟩

theorem run_pending (h : CommitsIn answer round endpoint id commit) (hpos : 0 < commit) (s : σ) :
    ∃ looked s', (NodeClient.pending endpoint id).run answer s = (.ok looked, s') ∧
      looked.decision? = (if commit ≤ round s then some (.confirmed commit) else none) ∧
      round s' = round s := by
  obtain ⟨reply, s', hanswer, hread, hround⟩ := h.pending s
  refine ⟨_, s', run_get h.token hanswer hread, ?_, hround⟩
  by_cases hc : commit ≤ round s
  · simp [Pending.decision?, Option.filter, hc, hpos]
  · simp [Pending.decision?, Option.filter, hc]

/-- Before the commit round, one turn of the waiting only takes the node on. -/
theorem run_follow_of_lt (h : CommitsIn answer round endpoint id commit) {s : σ} (k : ℕ)
    (current : UInt64) (hlate : round s < commit) (hfit : current.toNat + 1 < UInt64.size) :
    ∃ s', (round s').toNat = max (round s).toNat (current.toNat + 1) ∧
      (follow endpoint id (k + 1) current).run answer s =
        (follow endpoint id k (current + 1)).run answer s' := by
  have hpos : 0 < commit := UInt64.lt_of_le_of_lt (UInt64.zero_le) hlate
  obtain ⟨looked, s₁, hlook, hdecision, hround⟩ := h.run_pending hpos s
  obtain ⟨last, s₂, hblock, hmax⟩ := h.run_waitForBlockAfter s₁ hfit
  rw [if_neg (UInt64.not_le.mpr hlate)] at hdecision
  rw [hround] at hmax
  exact ⟨s₂, hmax, run_follow_of_undecided k hlook hdecision hblock⟩

/-- Waiting `k` rounds from the node's own round on sees those rounds, the first one included. -/
theorem run_follow (h : CommitsIn answer round endpoint id commit) (hpos : 0 < commit) (k : ℕ)
    {s : σ} {current : UInt64} (hround : round s = current) (hfit : current.toNat + k < UInt64.size) :
    ((follow endpoint id k current).run answer s).1 =
      .ok (if 0 < k ∧ commit.toNat < current.toNat + k then .confirmed commit else .pending) := by
  induction k generalizing s current with
  | zero => rfl
  | succ k ih =>
    by_cases hc : commit ≤ round s
    · obtain ⟨looked, s₁, hlook, hdecision, -⟩ := h.run_pending hpos s
      rw [if_pos hc] at hdecision
      rw [hround, UInt64.le_iff_toNat_le] at hc
      rw [run_follow_of_decision k current hlook hdecision, if_pos (by omega)]
    · have hsucc : (current + 1).toNat = current.toNat + 1 := toNat_add_one (by omega)
      obtain ⟨s', hmax, hrun⟩ := h.run_follow_of_lt k current (UInt64.not_le.mp hc) (by omega)
      rw [hround] at hc hmax
      rw [UInt64.le_iff_toNat_le] at hc
      have hnext : round s' = current + 1 := UInt64.toNat_inj.mp (by omega)
      rw [hrun, ih hnext (by omega), hsucc]
      -- With no turn left the commit round lies above the last look.
      have hsame : 0 < k ∧ commit.toNat < current.toNat + 1 + k ↔
          0 < k + 1 ∧ commit.toNat < current.toNat + (k + 1) := by omega
      simp only [hsame]

/-- Waiting for a transaction that is committed later sees it up to the last round, except when only one
round is waited for. -/
theorem run_wait (h : CommitsIn answer round endpoint id commit) {s : σ} {maxRounds : UInt64}
    (hlate : round s < commit)
    (hfit : (round s).toNat + maxRounds.toNat + 1 < UInt64.size) :
    ((wait endpoint id maxRounds).run answer s).1 =
      .ok (if 2 ≤ maxRounds ∧ commit.toNat ≤ (round s).toNat + maxRounds.toNat then
        .confirmed commit else .pending) := by
  obtain ⟨s₁, hstatus, hround⟩ := h.run_lastRound s
  rw [run_wait_of_fit hfit hstatus]
  cases hrounds : maxRounds.toNat with
  | zero =>
    have hfew : ¬ (2 : UInt64) ≤ maxRounds := by
      simp [UInt64.le_iff_toNat_le, hrounds]
    simp [hfew, follow, Dialogue.run]
  | succ k =>
    have hfirst : (round s + 1).toNat = (round s).toNat + 1 := toNat_add_one (by omega)
    have hsecond : (round s + 1 + 1).toNat = (round s).toNat + 2 := by
      rw [toNat_add_one (by omega), hfirst]
    obtain ⟨s₂, hround₂, hrun⟩ := h.run_follow_of_lt k (round s + 1) (hround ▸ hlate)
      (by omega)
    have hnext : round s₂ = round s + 1 + 1 := by
      refine UInt64.toNat_inj.mp ?_
      rw [hround₂, hround]
      omega
    have hpos : 0 < commit := UInt64.lt_of_le_of_lt UInt64.zero_le hlate
    rw [hrun, h.run_follow hpos k hnext (by omega), hsecond]
    have hsame : 0 < k ∧ commit.toNat < (round s).toNat + 2 + k ↔
        2 ≤ maxRounds ∧ commit.toNat ≤ (round s).toNat + (k + 1) := by
      rw [UInt64.le_iff_toNat_le, hrounds]
      simp
      omega
    simp only [hsame]

end CommitsIn

end FalconAccount
