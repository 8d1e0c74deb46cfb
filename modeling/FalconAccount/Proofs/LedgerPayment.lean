import FalconAccount.Proofs.LedgerHistory
import FalconAccount.Proofs.PaymentCourse

/-!
# Payments at the ledger

A payment between a signer and the ledger in memory, from the first question to the last. The ledger
refuses the parameters, or it refuses the group, or it reads off the bytes of the group the identifiers of
the members that were built. Then its rule alone decides how the payment ends, and in which round.
-/

namespace FalconAccount

theorem checkNetwork_of_accepts {network : Network} {params : SuggestedParams}
    (h : network.accepts params.genesisId = true) : checkNetwork network params = .ok () := by
  unfold Network.accepts at h
  unfold checkNetwork
  cases hexpected : network.genesisId? with
  | none => rfl
  | some expected =>
    rw [hexpected] at h
    exact if_pos (eq_of_beq h)

theorem accepts_of_checkNetwork {network : Network} {params : SuggestedParams}
    (h : checkNetwork network params = .ok ()) : network.accepts params.genesisId = true := by
  unfold checkNetwork at h
  unfold Network.accepts
  cases hexpected : network.genesisId? with
  | none => rfl
  | some expected =>
    simp only [hexpected] at h
    split at h
    · next heq => exact beq_iff_eq.mpr heq
    · cases h

theorem Network.length_genesisId_lt {network : Network} {genesisId : String}
    (h : network.accepts genesisId = true)
    (hprivate : network = .devNet → (Bytes.ofString genesisId).length < UInt32.size) :
    (Bytes.ofString genesisId).length < UInt32.size := by
  cases network with
  | devNet => exact hprivate rfl
  | mainNet | testNet | betaNet =>
    rw [← eq_of_beq h]
    decide

/-- A node reads the identifiers of the members off the signed group of a prepared payment, if the lengths
of its texts can be told. -/
theorem Prepared.transactionIds_eq {key : PublicKey} {receiver : Address} {amount : UInt64}
    {options : SendOptions} {d : Derivation} {params : SuggestedParams} {g : TransactionGroup}
    {signature : Bytes} (h : Prepared key receiver amount options d params g)
    (hnote : options.note.length < UInt32.size) (hsignature : signature.length < UInt32.size)
    (hprivate : options.network = .devNet → (Bytes.ofString params.genesisId).length < UInt32.size) :
    transactionIds (signedBytes d g signature) = .ok (g.transactions.map Transaction.id) := by
  obtain ⟨-, hfillers, hfrom⟩ := TransactionGroup.build_eq_ok_iff.mp h.group
  have hgenesis := Network.length_genesisId_lt (accepts_of_checkNetwork h.network) hprivate
  have hprogram : d.program.bytes.length < UInt32.size := by
    rw [Derivation.length_program_of_search h.account]
    decide
  exact transactionIds_signedBytes hfrom (fits_signedMembers hfrom hnote hgenesis hsignature hprogram)
    hfillers

namespace Ledger

def suggested (l : Ledger) : SuggestedParams :=
  .ofLastRound l.round l.feePerByte l.minFee l.genesisId l.genesisHash

/-- The ledger after it took the group of a payment, signed by the account `d`. -/
def taken (l : Ledger) (d : Derivation) (g : TransactionGroup) (signature : Bytes) : Ledger :=
  l.counted.record
    ⟨signedBytes d g signature, g.payment.id :: g.fillers.map Transaction.id, l.round⟩

/-- A payment that is waited for in the round of its arrival ends with this result and in this round. -/
def Settles (l : Ledger) (id : TxId) (maxRounds : UInt64) (result : Except ProtocolError TxId)
    (round : UInt64) : Prop :=
  let last := min (l.round.toNat + maxRounds.toNat) maxWord
  match l.fate with
  | .confirmAfter rounds =>
    let commit := min (l.round.toNat + rounds.toNat) maxWord
    if commit ≤ last then result = .ok id ∧ round.toNat = commit
    else result = .error (.confirmationTimeout id maxRounds) ∧ round.toNat = last
  | .neverConfirm => result = .error (.confirmationTimeout id maxRounds) ∧ round.toNat = last
  | .poolError reason => result = .error (.submissionRejected (.plain reason)) ∧ round = l.round

theorem Settles.confirmed {l : Ledger} {id : TxId} {maxRounds rounds : UInt64}
    {result : Except ProtocolError TxId} {round : UInt64} (h : l.Settles id maxRounds result round)
    (hfate : l.fate = .confirmAfter rounds)
    (hin : min (l.round.toNat + rounds.toNat) maxWord ≤
      min (l.round.toNat + maxRounds.toNat) maxWord) :
    result = .ok id ∧ round.toNat = min (l.round.toNat + rounds.toNat) maxWord := by
  simpa only [Settles, hfate, if_pos hin] using h

/-- The wait decides how a payment ends that arrived in the current round. -/
theorem settles_of_arrival? {l : Ledger} {id : TxId} (h : l.arrival? id.text = some l.round)
    (maxRounds : UInt64) :
    ∃ confirmation round, l.wait id.text maxRounds = (confirmation, l.atRound round) ∧
      l.Settles id maxRounds (confirmationResult id maxRounds confirmation) round := by
  have hlast := toNat_saturatingAdd l.round maxRounds
  unfold Settles
  cases hfate : l.fate with
  | confirmAfter rounds =>
    have hcommit := toNat_saturatingAdd l.round rounds
    have hround : max l.round (saturatingAdd l.round rounds) = saturatingAdd l.round rounds :=
      if_pos (le_saturatingAdd l.round rounds)
    rw [wait_of_confirmAfter maxRounds h hfate, hround]
    simp only [UInt64.le_iff_toNat_le, hcommit, hlast]
    split_ifs with hin
    · exact ⟨_, _, rfl, rfl, hcommit⟩
    · exact ⟨_, _, rfl, rfl, hlast⟩
  | neverConfirm => exact ⟨_, _, wait_of_neverConfirm maxRounds h hfate, rfl, hlast⟩
  | poolError reason => exact ⟨_, l.round, wait_of_poolError maxRounds h hfate, rfl, rfl⟩

section Payments

variable {key : PublicKey} {d : Derivation} {receiver : Address} {amount : UInt64}
  {options : SendOptions} {l : Ledger} {signer : Signer} {g : TransactionGroup} {signature : Bytes}
  {reason : String}

theorem params_of_none (h : l.paramsRefusal = none) : l.params = .ok l.suggested := by
  rw [params, h]
  rfl

theorem arrival?_taken (l : Ledger) (d : Derivation) (g : TransactionGroup) (signature : Bytes) :
    (l.taken d g signature).arrival? g.payment.id.text = some l.round := by
  rw [taken, arrival?_record]
  exact if_pos List.mem_cons_self

theorem transcript_send_of_paramsRefusal (haccount : Derivation.search key = .ok d)
    (hamount : amount ≠ 0) (hrefusal : l.paramsRefusal = some reason) :
    (send key receiver amount options).transcript ((Node.immediate answer).answerWith signer) l =
      ⟨.error (.error (.paramsUnavailable (.plain reason))),
        [⟨.node .params, .error (.plain reason)⟩], l⟩ := by
  have hparams : l.params = .error (.plain reason) := by rw [params, hrefusal]
  exact (Course.paramsFault _ haccount hamount).transcript_send
    (.cons (Prod.ext hparams rfl) (.nil l))

theorem exists_prepared (haccount : Derivation.search key = .ok d) (receiver : Address)
    (hamount : amount ≠ 0) (hfillers : options.fillerCount ≤ 15)
    (hnetwork : options.network.accepts l.genesisId = true) :
    ∃ g, Prepared key receiver amount options d l.suggested g := by
  obtain ⟨g, hbuild, -⟩ := TransactionGroup.exists_build_of_le l.suggested options.fee d.address
    receiver options.note hamount hfillers
  exact ⟨g, haccount, checkNetwork_of_accepts hnetwork, hbuild⟩

variable (h : Prepared key receiver amount options d l.suggested g)
  (hparams : l.paramsRefusal = none)
  (hsign : signer.sign g.payment.id.digest.toList = .ok signature) (hne : signature ≠ [])
include h hparams hsign hne

theorem transcript_send_of_submitRefusal (hrefusal : l.submitRefusal = some reason) :
    ∃ log, (send key receiver amount options).transcript
      ((Node.immediate answer).answerWith signer) l =
        ⟨.error (.error (.submissionRejected (.plain reason))), log, l.counted⟩ := by
  have haccept : l.accept (signedBytes d g signature) = .error (.plain reason) := by
    rw [accept, hrefusal]
    rfl
  exact ⟨_, (Course.refused _ h hne).transcript_send
    (.cons (Prod.ext (params_of_none hparams) rfl) (.cons (Prod.ext hsign rfl)
      (.cons (submit_of_refusal haccept) (.nil _))))⟩

/-- A group that is read back is taken, and the wait for its payment decides. -/
theorem transcript_send_of_taken (hsubmit : l.submitRefusal = none)
    (hread : transactionIds (signedBytes d g signature) = .ok (g.transactions.map Transaction.id)) :
    ∃ log result round, (send key receiver amount options).transcript
        ((Node.immediate answer).answerWith signer) l =
          ⟨result.mapError .error, log, (l.taken d g signature).atRound round⟩ ∧
      l.Settles g.payment.id options.maxRounds result round := by
  have haccept := accept_eq_ok_iff.mpr ⟨hsubmit, _, hread, List.cons_ne_nil _ _, rfl⟩
  obtain ⟨confirmation, round, hwait, hsettles⟩ :=
    settles_of_arrival? (arrival?_taken l d g signature) options.maxRounds
  have hreply : (l.taken d g signature).answer (.wait g.payment.id.text options.maxRounds) =
      (.ok confirmation, (l.taken d g signature).atRound round) := by
    simp only [answer, hwait]
  exact ⟨_, _, round, transcript_send_of_submitted h hne
    (.cons (Prod.ext (params_of_none hparams) rfl) (.cons (Prod.ext hsign rfl)
      (.cons (submit_of_accept haccept) (.cons hreply (.nil _))))), hsettles⟩

end Payments

end Ledger

/-- A payment of a positive amount, with at most fifteen fillers, to a ledger in any state that is on the
network of the payment. If the ledger refuses parameters, the payment fails and nothing happens; if it
refuses groups, the payment fails and one more group was offered. Otherwise there is one more group in
the log, of the built members with the payment first, in the round in which the payment began, and the
payment settles by the rule of the ledger. Names of a private genesis must fit on the wire for this. -/
theorem send_at_ledger {key : PublicKey} {d : Derivation} (hsearch : Derivation.search key = .ok d)
    (receiver : Address) {amount : UInt64} (hamount : 0 < amount) {options : SendOptions}
    (hfillers : options.fillerCount ≤ 15) (hnote : options.note.length < UInt32.size)
    (hdeadline : options.deadline = none) {signer : Signer}
    (hsigner : ∀ message, ∃ signature, signer.sign message = .ok signature ∧ signature ≠ [] ∧
      signature.length < UInt32.size)
    {l : Ledger} (hnetwork : options.network.accepts l.genesisId = true) :
    let run := (send key receiver amount options).runBetween (Node.immediate Ledger.answer) signer
      ⟨options.deadline, none⟩ l
    match l.paramsRefusal, l.submitRefusal with
    | some reason, _ =>
      run.outcome = some (.error (.error (.paramsUnavailable (.plain reason)))) ∧ run.state = l
    | none, some reason =>
      run.outcome = some (.error (.error (.submissionRejected (.plain reason)))) ∧
        run.state = { l with submitCalls := l.submitCalls + 1 }
    | none, none =>
      (options.network = .devNet → (Bytes.ofString l.genesisId).length < UInt32.size) →
      ∃ g signature result round,
        TransactionGroup.build l.suggested options.fee options.fillerCount d.address receiver amount
            options.note = .ok g ∧
          signer.sign g.payment.id.digest.toList = .ok signature ∧
          g.fillers.length = options.fillerCount.toNat ∧
          run.outcome = some (result.mapError .error) ∧
          run.state = (l.taken d g signature).atRound round ∧
          run.state.submissions = l.submissions ++
            [⟨signedBytes d g signature, g.payment.id :: g.fillers.map Transaction.id, l.round⟩] ∧
          run.state.submitCalls = l.submitCalls + 1 ∧
          l.Settles g.payment.id options.maxRounds result round := by
  intro run
  have hpositive : amount ≠ 0 := UInt64.pos_iff_ne_zero.mp hamount
  obtain ⟨houtcome, -, hstate⟩ := Protocol.runBetween_none_transcript (Node.immediate Ledger.answer)
    signer (send key receiver amount options) l
  have hrun : run = (send key receiver amount options).runBetween (Node.immediate Ledger.answer) signer
      Limits.none l := by
    unfold run
    rw [hdeadline]
    rfl
  rw [← hrun] at houtcome hstate
  obtain ⟨g, hprepared⟩ :=
    Ledger.exists_prepared hsearch receiver hpositive hfillers hnetwork
  obtain ⟨signature, hsign, hne, hlength⟩ := hsigner g.payment.id.digest.toList
  split
  case h_1 reason hparams =>
    rw [Ledger.transcript_send_of_paramsRefusal hsearch hpositive hparams] at houtcome hstate
    exact ⟨houtcome, hstate⟩
  case h_2 reason hparams hsubmit =>
    obtain ⟨log, htranscript⟩ :=
      Ledger.transcript_send_of_submitRefusal hprepared hparams hsign hne hsubmit
    rw [htranscript] at houtcome hstate
    exact ⟨houtcome, hstate⟩
  case h_3 hparams hsubmit =>
    intro hprivate
    obtain ⟨-, -, hfrom⟩ := TransactionGroup.build_eq_ok_iff.mp hprepared.group
    obtain ⟨log, result, round, htranscript, hsettles⟩ := Ledger.transcript_send_of_taken hprepared
      hparams hsign hne hsubmit (hprepared.transactionIds_eq hnote hlength hprivate)
    rw [htranscript] at houtcome hstate
    refine ⟨g, signature, result, round, hprepared.group, hsign, hfrom.length_fillers, houtcome, hstate,
      ?_, ?_, hsettles⟩
    · rw [hstate]
      exact Ledger.submissions_record l.counted _
    · rw [hstate]
      rfl

/-- The default payment on the test network, at a ledger that commits on the next round. -/
theorem send_at_ledger_start :
    let signer : Signer := ⟨fun _ => .ok [1], 0⟩
    let options := { SendOptions.default with network := .testNet }
    let run := (send onesKey .zero 5 options).runBetween (Node.immediate Ledger.answer) signer
      ⟨options.deadline, none⟩ Ledger.start
    ∃ id, run.outcome = some (.ok id) ∧ run.state.round = 1001 ∧ run.state.submitCalls = 1 ∧
      ∃ s, run.state.submissions = [s] ∧ s.ids.head? = some id ∧ s.ids.length = 4 ∧ s.round = 1000 := by
  intro signer options run
  obtain ⟨g, signature, result, round, -, -, hfillers, houtcome, hstate, hlog, -, hsettles⟩ :=
    send_at_ledger search_onesKey .zero (show (0 : UInt64) < 5 by decide)
      (show options.fillerCount ≤ 15 by decide) (show options.note.length < UInt32.size by decide)
      (show options.deadline = none from rfl)
      (show ∀ message, ∃ signature, signer.sign message = .ok signature ∧ signature ≠ [] ∧
        signature.length < UInt32.size from fun _ => ⟨[1], rfl, by decide, by decide⟩)
      (show options.network.accepts Ledger.start.genesisId = true by decide)
      (fun hprivate => absurd hprivate (by decide))
  have hrun : (send onesKey .zero 5 options).runBetween (Node.immediate Ledger.answer) signer
      ⟨options.deadline, none⟩ Ledger.start = run := rfl
  rw [hrun] at houtcome hstate hlog
  obtain ⟨rfl, hround⟩ := hsettles.confirmed (show _ = Fate.confirmAfter 1 from rfl) (by decide)
  refine ⟨g.payment.id, houtcome, ?_, ?_, _, hlog, rfl, ?_, rfl⟩
  · rw [hstate]
    exact UInt64.toNat_inj.mp hround
  · rw [hstate]
    rfl
  · exact congrArg (· + 1) ((List.length_map _).trans hfillers)

end FalconAccount
