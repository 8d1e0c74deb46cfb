import FalconAccount.Ledger.Simulator
import FalconAccount.Proofs.RoundServer

/-!
# The round bound of waiting

A node asked over HTTP and the ledger in memory are two answers to the same question: what becomes of a
transaction within a number of rounds. For a transaction that both commit in the same round they agree,
except for a wait of one round and a transaction committed in the next one: the ledger confirms it, and
the node is not asked again after its block.
-/

namespace FalconAccount

/-- The ledger knows the transaction `id` and commits it in the round `commit`. -/
def Ledger.Commits (l : Ledger) (id : String) (commit : UInt64) : Prop :=
  ∃ arrived rounds, l.arrival? id = some arrived ∧ l.fate = .confirmAfter rounds ∧
    saturatingAdd arrived rounds = commit

theorem Ledger.Commits.wait {l : Ledger} {id : String} {commit maxRounds : UInt64}
    (h : l.Commits id commit) (hfit : l.round.toNat + maxRounds.toNat < UInt64.size) :
    (l.wait id maxRounds).1 =
      if commit.toNat ≤ l.round.toNat + maxRounds.toNat then .confirmed commit else .pending := by
  obtain ⟨arrived, rounds, harrival, hfate, hcommit⟩ := h
  have hmax : UInt64.size = maxWord + 1 := rfl
  have hlast : (saturatingAdd l.round maxRounds).toNat = l.round.toNat + maxRounds.toNat := by
    rw [toNat_saturatingAdd]
    omega
  simp only [Ledger.wait, harrival, hfate, hcommit, UInt64.le_iff_toNat_le, hlast]
  by_cases hc : commit.toNat ≤ l.round.toNat + maxRounds.toNat
  · simp [hc]
  · simp [hc]

/-- The answer over HTTP to a wait for a transaction that the node commits later. -/
theorem CommitsIn.answer_wait {σ : Type} {answer : σ → Http.Request → Http.Reply × σ}
    {round : σ → UInt64} {endpoint : Endpoint} {id : String} {commit maxRounds : UInt64} {s : σ}
    (h : CommitsIn answer round endpoint id commit) (hlate : round s < commit)
    (hfit : (round s).toNat + maxRounds.toNat + 1 < UInt64.size) :
    ((NodeClient.answer endpoint (.wait id maxRounds)).run answer s).1 =
      .ok (if 2 ≤ maxRounds ∧ commit.toNat ≤ (round s).toNat + maxRounds.toNat then
        .confirmed commit else .pending) := by
  rw [NodeClient.answer]
  change ((Dialogue.bind _ _).run answer s).1 = _
  rw [Dialogue.run_bind]
  change Except.mapError NodeError.toFault ((NodeClient.wait endpoint id maxRounds).run answer s).1 = _
  rw [h.run_wait hlate hfit]
  rfl

/-- Only a wait of one round leaves out its last round. -/
theorem one_round_iff {round commit maxRounds : UInt64} (hlate : round < commit)
    (hfit : round.toNat + maxRounds.toNat + 1 < UInt64.size) :
    ((2 ≤ maxRounds ∧ commit.toNat ≤ round.toNat + maxRounds.toNat) ↔
        commit.toNat ≤ round.toNat + maxRounds.toNat) ↔
      ¬ (maxRounds = 1 ∧ commit = round + 1) := by
  have htwo : (2 : UInt64) ≤ maxRounds ↔ 2 ≤ maxRounds.toNat := UInt64.le_iff_toNat_le
  have hone : maxRounds = 1 ↔ maxRounds.toNat = 1 := UInt64.toNat_inj.symm
  have hnext : commit = round + 1 ↔ commit.toNat = round.toNat + 1 := by
    rw [← UInt64.toNat_inj, toNat_add_one (by omega)]
  rw [UInt64.lt_iff_toNat_lt] at hlate
  rw [htwo, hone, hnext]
  omega

/-- A node that commits a transaction in the round `commit`, and a ledger in the same round that does so
too, are waited at. Both say what becomes of the transaction within `maxRounds` rounds: the ledger
confirms it if its commit round is among them, and the node does so unless there is only one such round.
So they agree but for a transaction committed in the next round and a wait of one round. -/
theorem waits_agree_iff {σ : Type} {answer : σ → Http.Request → Http.Reply × σ} {round : σ → UInt64}
    {endpoint : Endpoint} {id : String} {commit : UInt64}
    (h : CommitsIn answer round endpoint id commit) {l : Ledger} (hl : l.Commits id commit) {s : σ}
    (hround : l.round = round s) (hlate : round s < commit) {maxRounds : UInt64}
    (hfit : (round s).toNat + maxRounds.toNat + 1 < UInt64.size) :
    let asked := ((NodeClient.answer endpoint (.wait id maxRounds)).run answer s).1
    let simulated := (l.answer (.wait id maxRounds)).1
    asked = .ok (if 2 ≤ maxRounds ∧ commit.toNat ≤ (round s).toNat + maxRounds.toNat then
        .confirmed commit else .pending) ∧
      simulated = .ok (if commit.toNat ≤ (round s).toNat + maxRounds.toNat then
        .confirmed commit else .pending) ∧
      (asked = simulated ↔ ¬ (maxRounds = 1 ∧ commit = round s + 1)) := by
  intro asked simulated
  have hasked := h.answer_wait hlate hfit
  have hsimulated : simulated = .ok (if commit.toNat ≤ (round s).toNat + maxRounds.toNat then
      .confirmed commit else .pending) := by
    rw [← hround] at hfit ⊢
    exact congrArg Except.ok (hl.wait (Nat.lt_of_succ_lt hfit))
  refine ⟨hasked, hsimulated, ?_⟩
  rw [← one_round_iff hlate hfit, show asked = _ from hasked, hsimulated]
  by_cases hin : commit.toNat ≤ (round s).toNat + maxRounds.toNat
  · by_cases htwo : 2 ≤ maxRounds
    · simp [hin, htwo]
    · simp [hin, htwo]
  · simp [hin]

/-- Two rounds, and a transaction committed in the second. -/
theorem waits_agree_two :
    let endpoint : Endpoint := ⟨"http://localhost", ""⟩
    let l := { Ledger.start with
      fate := .confirmAfter 2, round := 500, arrivals := [("TXID", 500)] }
    ((NodeClient.answer endpoint (.wait "TXID" 2)).run (RoundServer.answer endpoint 502) 500).1 =
        (l.answer (.wait "TXID" 2)).1 ∧
      (l.answer (.wait "TXID" 2)).1 = .ok (.confirmed 502) := by
  intro endpoint l
  have hcommits : l.Commits "TXID" 502 := ⟨500, 2, rfl, rfl, by decide⟩
  have hnode : CommitsIn (RoundServer.answer endpoint 502) (fun round => round) endpoint "TXID" 502 :=
    RoundServer.commitsIn (by decide) "TXID" 502
  have hround : l.round = (fun round => round) (500 : UInt64) := rfl
  have hfit : (500 : UInt64).toNat + (2 : UInt64).toNat + 1 < UInt64.size := by decide
  obtain ⟨-, hsimulated, hagree⟩ := waits_agree_iff hnode hcommits hround (by decide) hfit
  exact ⟨hagree.mpr (by decide), hsimulated⟩

/-- One round, and a transaction committed in it. -/
theorem waits_differ_one :
    let endpoint : Endpoint := ⟨"http://localhost", ""⟩
    let l := { Ledger.start with
      fate := .confirmAfter 1, round := 500, arrivals := [("TXID", 500)] }
    CommitsIn (RoundServer.answer endpoint 501) (fun round => round) endpoint "TXID" 501 ∧
      l.Commits "TXID" 501 ∧
      ((NodeClient.answer endpoint (.wait "TXID" 1)).run (RoundServer.answer endpoint 501) 500).1 =
        .ok .pending ∧
      (l.answer (.wait "TXID" 1)).1 = .ok (.confirmed 501) := by
  intro endpoint l
  have hnode : CommitsIn (RoundServer.answer endpoint 501) (fun round => round) endpoint "TXID" 501 :=
    RoundServer.commitsIn (by decide) "TXID" 501
  have hcommits : l.Commits "TXID" 501 := ⟨500, 1, rfl, rfl, by decide⟩
  have hlate : (fun round : UInt64 => round) 500 < 501 := by decide
  have hfit : (500 : UInt64).toNat + (1 : UInt64).toNat + 1 < UInt64.size := by decide
  have hwait : (l.wait "TXID" 1).1 = .confirmed 501 :=
    (hcommits.wait (Nat.lt_of_succ_lt hfit)).trans (if_pos (by decide))
  exact ⟨hnode, hcommits, hnode.answer_wait hlate hfit, congrArg Except.ok hwait⟩

end FalconAccount
