import FalconAccount.Proofs.Signing

/-!
# The stages of a payment

A payment is prepared, signed, submitted and waited for. Each stage has its transcript: what it asks, the
answers, and what it ends with. A stage that fails ends the payment, and what was asked before stays.
-/

namespace FalconAccount

variable (key : PublicKey) (receiver : Address) (amount : UInt64) (options : SendOptions)

/-- A payment of which all stages before signing have succeeded: from the account `d`, with parameters
`params`, in the group `g`. -/
structure Prepared (d : Derivation) (params : SuggestedParams) (g : TransactionGroup) : Prop where
  account : Derivation.search key = .ok d
  network : checkNetwork options.network params = .ok ()
  group : TransactionGroup.build params options.fee options.fillerCount d.address receiver amount
    options.note = .ok g

/-- The exchanges of a prepared payment up to its signature. -/
def signedLog (params : SuggestedParams) (g : TransactionGroup) (signature : Bytes) : List Exchange :=
  [⟨.node .params, .ok params⟩, ⟨.sign g.payment.id.digest.toList, .ok signature⟩]

/-- The exchanges of a prepared payment up to its submission. -/
def submittedLog (d : Derivation) (params : SuggestedParams) (g : TransactionGroup) (signature : Bytes)
    (reported : String) : List Exchange :=
  signedLog params g signature ++
    [⟨.node (.submit (signedBytes d g signature)), .ok reported⟩]

section Stages

variable {key receiver amount options}
variable {σ : Type} {answer : σ → (r : Request) → r.Reply × σ} {s s₁ s₂ s₃ s₄ : σ} {d : Derivation}
  {params : SuggestedParams} {g : TransactionGroup} {signature : Bytes} {reported : String}
  {fault : Fault}

theorem Prepared.amount_ne_zero (h : Prepared key receiver amount options d params g) : amount ≠ 0 :=
  (TransactionGroup.build_eq_ok_iff.mp h.group).1

theorem Prepared.sender_eq (h : Prepared key receiver amount options d params g) :
    g.payment.sender = d.address := by
  obtain ⟨-, -, hfrom⟩ := TransactionGroup.build_eq_ok_iff.mp h.group
  rw [hfrom.payment]
  rfl

theorem transcript_buildGroup_zero (sender : Address) :
    (buildGroup sender receiver 0 options).transcript answer s =
      ⟨.error (.error .invalidAmount), [], s⟩ := rfl

theorem transcript_buildGroup_of_fault (sender : Address) (ha : amount ≠ 0)
    (h : answer s (.node .params) = (.error fault, s₁)) :
    (buildGroup sender receiver amount options).transcript answer s =
      ⟨.error (.error (.paramsUnavailable fault)), [⟨.node .params, .error fault⟩], s₁⟩ := by
  unfold buildGroup
  rw [if_neg ha]
  exact Protocol.transcript_bind_error _ (Protocol.transcript_ask_error _ h)

variable (options) in
/-- With parameters, the network decides, and then how many fillers there are to be. -/
theorem transcript_buildGroup_of_params (sender receiver : Address) (ha : amount ≠ 0)
    (h : answer s (.node .params) = (.ok params, s₁)) :
    (buildGroup sender receiver amount options).transcript answer s =
      ⟨(checkNetwork options.network params).mapError .error >>= fun _ =>
          TransactionGroup.build params options.fee options.fillerCount sender receiver amount
            options.note,
        [⟨.node .params, .ok params⟩], s₁⟩ := by
  unfold buildGroup
  rw [if_neg ha]
  refine (Protocol.transcript_bind_ok _ (Protocol.transcript_ask_ok _ h)).trans ?_
  cases checkNetwork options.network params <;> rfl

theorem transcript_send_of_exhausted {e : ProtocolError} (h : Derivation.search key = .error e) :
    (send key receiver amount options).transcript answer s = ⟨.error (.error e), [], s⟩ := by
  unfold send
  rw [h]
  rfl

theorem send_of_account (h : Derivation.search key = .ok d) :
    send key receiver amount options = (do
      let group ← buildGroup d.address receiver amount options
      ExceptT.adapt .error (signAndSubmit group d options.maxRounds)) := by
  unfold send
  rw [h]
  rfl

theorem transcript_send_of_unbuilt {e : Failure} {log : List Exchange}
    (haccount : Derivation.search key = .ok d)
    (h : (buildGroup d.address receiver amount options).transcript answer s = ⟨.error e, log, s₁⟩) :
    (send key receiver amount options).transcript answer s = ⟨.error e, log, s₁⟩ := by
  rw [send_of_account haccount]
  exact Protocol.transcript_bind_error _ h

theorem transcript_send_of_prepared (h : Prepared key receiver amount options d params g)
    (hparams : answer s (.node .params) = (.ok params, s₁)) {result : Except ProtocolError TxId}
    {log : List Exchange}
    (hsubmit : (signAndSubmit g d options.maxRounds).transcript answer s₁ = ⟨result, log, s₂⟩) :
    (send key receiver amount options).transcript answer s =
      ⟨result.mapError .error, ⟨.node .params, .ok params⟩ :: log, s₂⟩ := by
  have hbuild := transcript_buildGroup_of_params options d.address receiver h.amount_ne_zero hparams
  rw [h.network, h.group] at hbuild
  rw [send_of_account h.account, Protocol.transcript_bind_ok _ hbuild,
    Protocol.transcript_adapt Failure.error hsubmit]
  rfl

def submitAndWait (bytes : Bytes) (id : TxId) (maxRounds : UInt64) :
    Protocol ProtocolError TxId := do
  let _reported ← Protocol.askNode (.submit bytes) .submissionRejected
  let confirmation ← Protocol.askNode (.wait id.text maxRounds) .confirmationUnavailable
  Protocol.ofExcept (confirmationResult id maxRounds confirmation)

theorem signAndSubmit_eq (maxRounds : UInt64) :
    signAndSubmit g d maxRounds =
      signGroup g d >>= fun signed => submitAndWait signed.bytes signed.id maxRounds := rfl

theorem transcript_submitAndWait_of_refused {bytes : Bytes} (id : TxId) (maxRounds : UInt64)
    (h : answer s (.node (.submit bytes)) = (.error fault, s₁)) :
    (submitAndWait bytes id maxRounds).transcript answer s =
      ⟨.error (.submissionRejected fault), [⟨.node (.submit bytes), .error fault⟩], s₁⟩ :=
  Protocol.transcript_bind_error _ (Protocol.transcript_ask_error _ h)

theorem transcript_submitAndWait_of_submitted {bytes : Bytes} {id : TxId} {maxRounds : UInt64}
    {reply : Except Fault Confirmation}
    (hsubmit : answer s (.node (.submit bytes)) = (.ok reported, s₁))
    (hwait : answer s₁ (.node (.wait id.text maxRounds)) = (reply, s₂)) :
    (submitAndWait bytes id maxRounds).transcript answer s =
      ⟨reply.mapError .confirmationUnavailable >>= confirmationResult id maxRounds,
        [⟨.node (.submit bytes), .ok reported⟩, ⟨.node (.wait id.text maxRounds), reply⟩], s₂⟩ := by
  refine (Protocol.transcript_bind_ok _ (Protocol.transcript_ask_ok _ hsubmit)).trans ?_
  cases reply with
  | error fault =>
    exact congrArg (Dialogue.Transcript.after _)
      (Protocol.transcript_bind_error _ (Protocol.transcript_ask_error _ hwait))
  | ok confirmation =>
    exact congrArg (Dialogue.Transcript.after _)
      (Protocol.transcript_bind_ok _ (Protocol.transcript_ask_ok _ hwait))

theorem transcript_signAndSubmit_of_signature {maxRounds : UInt64}
    (hsender : g.payment.sender = d.address) (hne : signature ≠ [])
    (hsign : answer s (.sign g.payment.id.digest.toList) = (.ok signature, s₁)) :
    (signAndSubmit g d maxRounds).transcript answer s =
      ((submitAndWait (signedBytes d g signature) g.payment.id maxRounds).transcript answer s₁).after
        [⟨.sign g.payment.id.digest.toList, .ok signature⟩] := by
  have hgroup := transcript_signGroup_of_signature hsender hne hsign
  rw [signAndSubmit_eq, Protocol.transcript_bind_ok _ hgroup]

theorem transcript_signAndSubmit_of_unsigned {maxRounds : UInt64} {e : ProtocolError}
    {log : List Exchange} (h : (signGroup g d).transcript answer s = ⟨.error e, log, s₁⟩) :
    (signAndSubmit g d maxRounds).transcript answer s = ⟨.error e, log, s₁⟩ := by
  rw [signAndSubmit_eq]
  exact Protocol.transcript_bind_error _ h

theorem transcript_send_of_signature (h : Prepared key receiver amount options d params g)
    (hne : signature ≠ []) (hparams : answer s (.node .params) = (.ok params, s₁))
    (hsign : answer s₁ (.sign g.payment.id.digest.toList) = (.ok signature, s₂))
    {result : Except ProtocolError TxId} {log : List Exchange}
    (hsubmit : (submitAndWait (signedBytes d g signature) g.payment.id options.maxRounds).transcript
      answer s₂ = ⟨result, log, s₃⟩) :
    (send key receiver amount options).transcript answer s =
      ⟨result.mapError .error, signedLog params g signature ++ log, s₃⟩ := by
  refine transcript_send_of_prepared h hparams ?_
  rw [transcript_signAndSubmit_of_signature h.sender_eq hne hsign, hsubmit]
  rfl

end Stages

end FalconAccount
