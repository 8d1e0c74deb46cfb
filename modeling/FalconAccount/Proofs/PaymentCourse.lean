import FalconAccount.Proofs.PaymentStages

/-!
# The course of a payment

A payment goes through its stages in a fixed order and ends at the first that fails. There is one course
for every way in which it can end; each lists the questions asked on the way with their answers. The
answers of the parties decide which course a payment takes.
-/

namespace FalconAccount

variable (key : PublicKey) (receiver : Address) (amount : UInt64) (options : SendOptions)

/-- What a payment asks and how it ends, for each stage that can be the first to fail, in their order,
and for success. -/
inductive Course : List Exchange → Except Failure TxId → Prop where
  | exhausted : Derivation.search key = .error .derivationExhausted →
      Course [] (.error (.error .derivationExhausted))
  | zeroAmount {d : Derivation} : Derivation.search key = .ok d → amount = 0 →
      Course [] (.error (.error .invalidAmount))
  | paramsFault {d : Derivation} (fault : Fault) : Derivation.search key = .ok d → amount ≠ 0 →
      Course [⟨.node .params, .error fault⟩] (.error (.error (.paramsUnavailable fault)))
  | wrongNetwork {d : Derivation} {params : SuggestedParams} {expected : String} :
      Derivation.search key = .ok d → amount ≠ 0 →
      options.network.genesisId? = some expected → expected ≠ params.genesisId →
      Course [⟨.node .params, .ok params⟩]
        (.error (.error (.networkMismatch expected params.genesisId)))
  | tooManyFillers {d : Derivation} {params : SuggestedParams} :
      Derivation.search key = .ok d → amount ≠ 0 →
      checkNetwork options.network params = .ok () → 15 < options.fillerCount →
      options.fillerCount.toNat < maxWord →
      Course [⟨.node .params, .ok params⟩]
        (.error (.error (.encoding (.groupSize (options.fillerCount + 1)))))
  /-- There are so many fillers that one more is no word: the program panics. -/
  | overflow {d : Derivation} {params : SuggestedParams} :
      Derivation.search key = .ok d → amount ≠ 0 →
      checkNetwork options.network params = .ok () → options.fillerCount.toNat = maxWord →
      Course [⟨.node .params, .ok params⟩] (.error .overflow)
  | signerFault {d : Derivation} {params : SuggestedParams} {g : TransactionGroup} (fault : Fault) :
      Prepared key receiver amount options d params g →
      Course [⟨.node .params, .ok params⟩, ⟨.sign g.payment.id.digest.toList, .error fault⟩]
        (.error (.error (.signatureFailure fault)))
  | emptySignature {d : Derivation} {params : SuggestedParams} {g : TransactionGroup} :
      Prepared key receiver amount options d params g →
      Course (signedLog params g [])
        (.error (.error (.signatureFailure (.plain "signer returned an empty signature"))))
  | refused {d : Derivation} {params : SuggestedParams} {g : TransactionGroup} {signature : Bytes}
      (fault : Fault) : Prepared key receiver amount options d params g → signature ≠ [] →
      Course (signedLog params g signature ++
          [⟨.node (.submit (signedBytes d g signature)), .error fault⟩])
        (.error (.error (.submissionRejected fault)))
  | unavailable {d : Derivation} {params : SuggestedParams} {g : TransactionGroup} {signature : Bytes}
      {reported : String} (fault : Fault) : Prepared key receiver amount options d params g →
      signature ≠ [] →
      Course (submittedLog d params g signature reported ++
          [⟨.node (.wait g.payment.id.text options.maxRounds), .error fault⟩])
        (.error (.error (.confirmationUnavailable fault)))
  | rejected {d : Derivation} {params : SuggestedParams} {g : TransactionGroup} {signature : Bytes}
      {reported : String} (reason : String) : Prepared key receiver amount options d params g →
      signature ≠ [] →
      Course (submittedLog d params g signature reported ++
          [⟨.node (.wait g.payment.id.text options.maxRounds), .ok (.rejected reason)⟩])
        (.error (.error (.submissionRejected (.plain reason))))
  | pending {d : Derivation} {params : SuggestedParams} {g : TransactionGroup} {signature : Bytes}
      {reported : String} : Prepared key receiver amount options d params g → signature ≠ [] →
      Course (submittedLog d params g signature reported ++
          [⟨.node (.wait g.payment.id.text options.maxRounds), .ok .pending⟩])
        (.error (.error (.confirmationTimeout g.payment.id options.maxRounds)))
  | confirmed {d : Derivation} {params : SuggestedParams} {g : TransactionGroup} {signature : Bytes}
      {reported : String} (round : UInt64) : Prepared key receiver amount options d params g →
      signature ≠ [] →
      Course (submittedLog d params g signature reported ++
          [⟨.node (.wait g.payment.id.text options.maxRounds), .ok (.confirmed round)⟩])
        (.ok g.payment.id)

section Courses

variable {key receiver amount options}
variable {σ : Type} {answer : σ → (r : Request) → r.Reply × σ} {s s₁ s₂ s₃ s₄ : σ} {d : Derivation}
  {params : SuggestedParams} {g : TransactionGroup} {signature : Bytes} {reported : String}

theorem transcript_send_of_submitted {reply : Except Fault Confirmation}
    (h : Prepared key receiver amount options d params g) (hne : signature ≠ [])
    (hlog : Dialogue.Answered answer s (submittedLog d params g signature reported ++
      [⟨.node (.wait g.payment.id.text options.maxRounds), reply⟩]) s₄) :
    (send key receiver amount options).transcript answer s =
      ⟨(reply.mapError .confirmationUnavailable >>=
          confirmationResult g.payment.id options.maxRounds).mapError .error,
        submittedLog d params g signature reported ++
          [⟨.node (.wait g.payment.id.text options.maxRounds), reply⟩], s₄⟩ := by
  obtain _ | ⟨hparams, _ | ⟨hsign, _ | ⟨hsubmit, _ | ⟨hwait, ⟨⟩⟩⟩⟩⟩ := hlog
  rw [transcript_send_of_signature h hne hparams hsign
    (transcript_submitAndWait_of_submitted hsubmit hwait)]
  rfl

/-- A course whose answers the parties give is the one that the payment takes. -/
theorem Course.transcript_send {log : List Exchange} {result : Except Failure TxId}
    (hcourse : Course key receiver amount options log result)
    (hlog : Dialogue.Answered answer s log s₄) :
    (send key receiver amount options).transcript answer s = ⟨result, log, s₄⟩ := by
  cases hcourse with
  | exhausted haccount =>
    cases hlog
    exact transcript_send_of_exhausted haccount
  | zeroAmount haccount ha =>
    cases hlog
    subst ha
    exact transcript_send_of_unbuilt haccount (transcript_buildGroup_zero _)
  | paramsFault fault haccount ha =>
    obtain _ | ⟨hparams, ⟨⟩⟩ := hlog
    exact transcript_send_of_unbuilt haccount (transcript_buildGroup_of_fault _ ha hparams)
  | @wrongNetwork d params expected haccount ha hexpected hne =>
    obtain _ | ⟨hparams, ⟨⟩⟩ := hlog
    have hnetwork : checkNetwork options.network params =
        .error (.networkMismatch expected params.genesisId) := by
      rw [checkNetwork, hexpected]
      exact if_neg hne
    refine transcript_send_of_unbuilt haccount ?_
    rw [transcript_buildGroup_of_params _ _ _ ha hparams, hnetwork]
    rfl
  | tooManyFillers haccount ha hnetwork hfillers hmax =>
    obtain _ | ⟨hparams, ⟨⟩⟩ := hlog
    refine transcript_send_of_unbuilt haccount ?_
    rw [transcript_buildGroup_of_params _ _ _ ha hparams, hnetwork,
      TransactionGroup.build_of_tooMany ha hfillers hmax]
    rfl
  | overflow haccount ha hnetwork hmax =>
    obtain _ | ⟨hparams, ⟨⟩⟩ := hlog
    refine transcript_send_of_unbuilt haccount ?_
    rw [transcript_buildGroup_of_params _ _ _ ha hparams, hnetwork,
      TransactionGroup.build_of_overflow ha hmax]
    rfl
  | signerFault fault h =>
    obtain _ | ⟨hparams, _ | ⟨hsign, ⟨⟩⟩⟩ := hlog
    exact transcript_send_of_prepared h hparams (transcript_signAndSubmit_of_unsigned
      (transcript_signGroup_of_fault h.sender_eq hsign))
  | emptySignature h =>
    obtain _ | ⟨hparams, _ | ⟨hsign, ⟨⟩⟩⟩ := hlog
    exact transcript_send_of_prepared h hparams (transcript_signAndSubmit_of_unsigned
      (transcript_signGroup_of_empty h.sender_eq hsign))
  | refused fault h hne =>
    obtain _ | ⟨hparams, _ | ⟨hsign, _ | ⟨hsubmit, ⟨⟩⟩⟩⟩ := hlog
    exact transcript_send_of_signature h hne hparams hsign
      (transcript_submitAndWait_of_refused _ _ hsubmit)
  | unavailable fault h hne => exact transcript_send_of_submitted h hne hlog
  | rejected reason h hne => exact transcript_send_of_submitted h hne hlog
  | pending h hne => exact transcript_send_of_submitted h hne hlog
  | confirmed round h hne => exact transcript_send_of_submitted h hne hlog

theorem Course.exists_of_ok {log : List Exchange} {id : TxId}
    (h : Course key receiver amount options log (.ok id)) :
    ∃ d params g signature reported round, Prepared key receiver amount options d params g ∧
      id = g.payment.id ∧ log = submittedLog d params g signature reported ++
        [⟨.node (.wait id.text options.maxRounds), .ok (.confirmed round)⟩] := by
  cases h with
  | confirmed round hprepared => exact ⟨_, _, _, _, _, round, hprepared, rfl, rfl⟩

theorem exists_course_of_signature (h : Prepared key receiver amount options d params g)
    (hne : signature ≠ []) (hparams : answer s (.node .params) = (.ok params, s₁))
    (hsign : answer s₁ (.sign g.payment.id.digest.toList) = (.ok signature, s₂)) :
    ∃ log result s', Course key receiver amount options log result ∧
      Dialogue.Answered answer s log s' := by
  rcases hsubmit : answer s₂ (.node (.submit (signedBytes d g signature))) with ⟨submitted, s₃⟩
  cases submitted with
  | error fault =>
    exact ⟨_, _, s₃, .refused fault h hne, .cons hparams (.cons hsign (.cons hsubmit (.nil s₃)))⟩
  | ok reported =>
    rcases hwait : answer s₃ (.node (.wait g.payment.id.text options.maxRounds)) with ⟨waited, s₄⟩
    have hlog : Dialogue.Answered answer s (submittedLog d params g signature reported ++
        [⟨.node (.wait g.payment.id.text options.maxRounds), waited⟩]) s₄ :=
      .cons hparams (.cons hsign (.cons hsubmit (.cons hwait (.nil s₄))))
    cases waited with
    | error fault => exact ⟨_, _, s₄, .unavailable fault h hne, hlog⟩
    | ok confirmation =>
      cases confirmation with
      | confirmed round => exact ⟨_, _, s₄, .confirmed round h hne, hlog⟩
      | rejected reason => exact ⟨_, _, s₄, .rejected reason h hne, hlog⟩
      | pending => exact ⟨_, _, s₄, .pending h hne, hlog⟩

theorem exists_course_of_prepared (h : Prepared key receiver amount options d params g)
    (hparams : answer s (.node .params) = (.ok params, s₁)) :
    ∃ log result s', Course key receiver amount options log result ∧
      Dialogue.Answered answer s log s' := by
  rcases hsign : answer s₁ (.sign g.payment.id.digest.toList) with ⟨signed, s₂⟩
  cases signed with
  | error fault =>
    exact ⟨_, _, s₂, .signerFault fault h, .cons hparams (.cons hsign (.nil s₂))⟩
  | ok signature =>
    by_cases hne : signature = []
    · subst hne
      exact ⟨_, _, s₂, .emptySignature h, .cons hparams (.cons hsign (.nil s₂))⟩
    · exact exists_course_of_signature h hne hparams hsign

theorem exists_course_of_params (haccount : Derivation.search key = .ok d) (ha : amount ≠ 0)
    (hparams : answer s (.node .params) = (.ok params, s₁)) :
    ∃ log result s', Course key receiver amount options log result ∧
      Dialogue.Answered answer s log s' := by
  have hlog : Dialogue.Answered answer s [⟨.node .params, .ok params⟩] s₁ := .cons hparams (.nil s₁)
  cases hnetwork : checkNetwork options.network params with
  | error e =>
    obtain ⟨expected, hexpected, hne⟩ := exists_genesisId_of_checkNetwork hnetwork
    exact ⟨_, _, s₁, .wrongNetwork haccount ha hexpected hne, hlog⟩
  | ok _ =>
    by_cases hfillers : options.fillerCount ≤ 15
    · obtain ⟨g, hbuild, -⟩ := TransactionGroup.exists_build_of_le params options.fee d.address
        receiver options.note ha hfillers
      exact exists_course_of_prepared ⟨haccount, hnetwork, hbuild⟩ hparams
    · rcases toNat_lt_or_eq_maxWord options.fillerCount with hmax | hmax
      · exact ⟨_, _, s₁, .tooManyFillers haccount ha hnetwork (UInt64.not_le.mp hfillers) hmax, hlog⟩
      · exact ⟨_, _, s₁, .overflow haccount ha hnetwork hmax, hlog⟩

variable (key receiver amount options) (answer) (s)

/-- Whatever the parties answer, there is a course with their answers. -/
theorem exists_course :
    ∃ log result s', Course key receiver amount options log result ∧
      Dialogue.Answered answer s log s' := by
  cases haccount : Derivation.search key with
  | error e =>
    obtain rfl := Derivation.eq_exhausted_of_searchFrom haccount
    exact ⟨_, _, s, .exhausted haccount, .nil s⟩
  | ok d =>
    by_cases ha : amount = 0
    · exact ⟨_, _, s, .zeroAmount haccount ha, .nil s⟩
    · rcases hparams : answer s (.node .params) with ⟨replied, s₁⟩
      cases replied with
      | error fault => exact ⟨_, _, s₁, .paramsFault fault haccount ha, .cons hparams (.nil s₁)⟩
      | ok params => exact exists_course_of_params haccount ha hparams

end Courses

def nodeCalls (log : List Exchange) : List NodeCall := log.filterMap (·.1.nodeCall?)

/-- The node took the group, whatever identifier it reported. -/
def Submitted (log : List Exchange) : Prop :=
  ∃ bytes reported, (⟨.node (.submit bytes), .ok reported⟩ : Exchange) ∈ log

def Confirmed (log : List Exchange) : Prop :=
  ∃ id maxRounds round, (⟨.node (.wait id maxRounds), .ok (.confirmed round)⟩ : Exchange) ∈ log

/-- The order of a payment whose signed group is `group` and whose identifier is `id`. -/
structure Orderly (log : List Exchange) (result : Except Failure TxId) (group : Bytes)
    (id : TxId) : Prop where
  calls : nodeCalls log <+: [.params, .submit group, .wait id.text options.maxRounds]
  /-- What is submitted was built from the answers so far and signed by the signer. -/
  signed : ∀ bytes, .submit bytes ∈ nodeCalls log → ∃ d params g signature,
    Prepared key receiver amount options d params g ∧ signature ≠ [] ∧
      signedLog params g signature <+: log ∧ group = signedBytes d g signature ∧ id = g.payment.id
  /-- The payment succeeds exactly if it was submitted and confirmed. -/
  paid : ∀ final, result = .ok final ↔ final = id ∧ Submitted log ∧ Confirmed log
  /-- If the payment fails with a foreign sender, that is what the signer said. -/
  sender : ∀ sender derived,
    result = .error (.error (.signatureFailure (senderFault sender derived))) →
    ∃ message, (⟨.sign message, .error (senderFault sender derived)⟩ : Exchange) ∈ log

section Order

variable {key receiver amount options}
variable {log : List Exchange} {result : Except Failure TxId} {group : Bytes} {id : TxId}

theorem Orderly.compile_notMem (h : Orderly key receiver amount options log result group id)
    (source : String) : .compile source ∉ nodeCalls log := by
  intro hmem
  simpa using h.calls.subset hmem

theorem Orderly.countP_isSubmit_le (h : Orderly key receiver amount options log result group id) :
    (nodeCalls log).countP NodeCall.isSubmit ≤ 1 :=
  h.calls.sublist.countP_le

theorem not_submitted_of_calls (hcalls : nodeCalls log <+: [.params]) : ¬ Submitted log := by
  rintro ⟨bytes, reported, hmem⟩
  have hcall : .submit bytes ∈ nodeCalls log := List.mem_filterMap.mpr ⟨_, hmem, rfl⟩
  simpa using hcalls.subset hcall

theorem Orderly.of_not_submitted (hcalls : nodeCalls log <+: [.params])
    (hresult : ∀ final, result ≠ .ok final)
    (hsender : ∀ sender derived,
      result = .error (.error (.signatureFailure (senderFault sender derived))) →
      ∃ message, (⟨.sign message, .error (senderFault sender derived)⟩ : Exchange) ∈ log) :
    Orderly key receiver amount options log result group id where
  calls := hcalls.trans (List.prefix_append _ _)
  signed := by
    intro bytes hmem
    simpa using hcalls.subset hmem
  paid final :=
    ⟨fun h => absurd h (hresult final), fun h => absurd h.2.1 (not_submitted_of_calls hcalls)⟩
  sender := hsender

theorem Orderly.of_signed {d : Derivation} {params : SuggestedParams} {g : TransactionGroup}
    {signature : Bytes} (h : Prepared key receiver amount options d params g) (hne : signature ≠ [])
    (hlog : signedLog params g signature <+: log)
    (hcalls : nodeCalls log <+: [.params, .submit (signedBytes d g signature),
      .wait g.payment.id.text options.maxRounds])
    (hpaid : ∀ final, result = .ok final ↔
      final = g.payment.id ∧ Submitted log ∧ Confirmed log)
    (hsender : ∀ fault, result ≠ .error (.error (.signatureFailure fault))) :
    Orderly key receiver amount options log result (signedBytes d g signature) g.payment.id where
  calls := hcalls
  signed := fun _ _ => ⟨d, params, g, signature, h, hne, hlog, rfl, rfl⟩
  paid := hpaid
  sender := fun _ _ he => absurd he (hsender _)

theorem Orderly.of_submitted {d : Derivation} {params : SuggestedParams} {g : TransactionGroup}
    {signature : Bytes} {reported : String} {reply : Except Fault Confirmation}
    (h : Prepared key receiver amount options d params g) (hne : signature ≠ [])
    (hpaid : ∀ final, result = .ok final ↔
      final = g.payment.id ∧ ∃ round, reply = .ok (.confirmed round))
    (hsender : ∀ fault, result ≠ .error (.error (.signatureFailure fault))) :
    Orderly key receiver amount options (submittedLog d params g signature reported ++
        [⟨.node (.wait g.payment.id.text options.maxRounds), reply⟩]) result
      (signedBytes d g signature) g.payment.id := by
  refine .of_signed h hne ?_ ?_ ?_ hsender
  · rw [submittedLog, List.append_assoc]
    exact List.prefix_append _ _
  · simp [nodeCalls, submittedLog, signedLog, Request.nodeCall?]
  · intro final
    rw [hpaid final]
    simp [Submitted, Confirmed, submittedLog, signedLog, eq_comm]

theorem senderFault_ne_empty (sender derived : Address) :
    senderFault sender derived ≠ .plain "signer returned an empty signature" := by
  intro h
  have htext := congrArg (String.toList ∘ Fault.message) h
  simp [senderFault, Fault.plain, toString] at htext

theorem Course.orderly (h : Course key receiver amount options log result) :
    ∃ group id, Orderly key receiver amount options log result group id := by
  cases h with
  | exhausted haccount =>
    exact ⟨[], ⟨Digest.zero⟩, .of_not_submitted (by simp [nodeCalls]) (by simp) (by simp)⟩
  | zeroAmount haccount ha =>
    exact ⟨[], ⟨Digest.zero⟩, .of_not_submitted (by simp [nodeCalls]) (by simp) (by simp)⟩
  | paramsFault fault haccount ha =>
    exact ⟨[], ⟨Digest.zero⟩, .of_not_submitted (by simp [nodeCalls, Request.nodeCall?]) (by simp)
      (by simp)⟩
  | wrongNetwork haccount ha hexpected hne =>
    exact ⟨[], ⟨Digest.zero⟩, .of_not_submitted (by simp [nodeCalls, Request.nodeCall?]) (by simp)
      (by simp)⟩
  | tooManyFillers haccount ha hnetwork hfillers hmax =>
    exact ⟨[], ⟨Digest.zero⟩, .of_not_submitted (by simp [nodeCalls, Request.nodeCall?]) (by simp)
      (by simp)⟩
  | overflow haccount ha hnetwork hmax =>
    exact ⟨[], ⟨Digest.zero⟩, .of_not_submitted (by simp [nodeCalls, Request.nodeCall?]) (by simp)
      (by simp)⟩
  | signerFault fault h =>
    refine ⟨[], ⟨Digest.zero⟩, .of_not_submitted (by simp [nodeCalls, Request.nodeCall?]) (by simp) ?_⟩
    intro sender derived he
    obtain rfl : fault = senderFault sender derived := by simpa using he
    exact ⟨_, List.mem_cons_of_mem _ List.mem_cons_self⟩
  | emptySignature h =>
    refine ⟨[], ⟨Digest.zero⟩, .of_not_submitted (by simp [nodeCalls, signedLog, Request.nodeCall?])
      (by simp) ?_⟩
    intro sender derived he
    exact absurd (by simpa using he.symm) (senderFault_ne_empty sender derived)
  | refused fault h hne =>
    refine ⟨_, _, .of_signed h hne (List.prefix_append _ _) ?_ ?_ (by simp)⟩
    · simp [nodeCalls, signedLog, Request.nodeCall?]
    · simp [Submitted, Confirmed, signedLog]
  | unavailable fault h hne => exact ⟨_, _, .of_submitted h hne (by simp) (by simp)⟩
  | rejected reason h hne => exact ⟨_, _, .of_submitted h hne (by simp) (by simp)⟩
  | pending h hne => exact ⟨_, _, .of_submitted h hne (by simp) (by simp)⟩
  | confirmed round h hne =>
    exact ⟨_, _, .of_submitted h hne (by simp [eq_comm]) (by simp)⟩

end Order

/-- Without a deadline, a payment takes the one course whose answers the node and the signer give, asks
what that course asks, and ends as it does. In this course the calls to the node are in order and never
for a compilation, at most one is a submission, and the payment succeeds exactly if it was submitted and
confirmed. -/
theorem send_takes_course {σ : Type} (node : Node σ) (signer : Signer) (s : σ)
    (hdeadline : options.deadline = none) :
    let run := (send key receiver amount options).runBetween node signer ⟨options.deadline, none⟩ s
    ∃ log result, run.outcome = some result ∧ run.asked.map Prod.snd = log.map Sigma.fst ∧
      (Course key receiver amount options log result ∧
        Dialogue.Answered (node.answerWith signer) s log run.state ∧
        ∀ log' result' s', Course key receiver amount options log' result' →
          Dialogue.Answered (node.answerWith signer) s log' s' → log' = log ∧ result' = result) ∧
      (∃ group id, Orderly key receiver amount options log result group id) ∧
      (∀ source, .compile source ∉ nodeCalls log) ∧
      (nodeCalls log).countP NodeCall.isSubmit ≤ 1 := by
  intro run
  obtain ⟨log, result, s', hcourse, hlog⟩ :=
    exists_course key receiver amount options (node.answerWith signer) s
  obtain ⟨houtcome, hasked, hstate⟩ := Protocol.runBetween_none_transcript node signer
    (send key receiver amount options) s
  have hrun : run = (send key receiver amount options).runBetween node signer Limits.none s := by
    unfold run
    rw [hdeadline]
    rfl
  rw [hcourse.transcript_send hlog, ← hrun] at houtcome hasked hstate
  obtain ⟨group, id, horder⟩ := hcourse.orderly
  refine ⟨log, result, houtcome, hasked, ⟨hcourse, hstate ▸ hlog, ?_⟩, ⟨group, id, horder⟩,
    horder.compile_notMem, horder.countP_isSubmit_le⟩
  intro log' result' s'' hcourse' hlog'
  have hsame := (hcourse'.transcript_send hlog').symm.trans (hcourse.transcript_send hlog)
  exact ⟨congrArg Dialogue.Transcript.exchanges hsame, congrArg Dialogue.Transcript.value hsame⟩

/-- A node that confirms whatever it takes, and reports an identifier of its own. -/
theorem send_takes_course_onesKey :
    let params : SuggestedParams := ⟨0, 1000, 70000, 71000, "mainnet-v1.0", Digest.zero⟩
    let node : Node Unit := Node.immediate fun _ call =>
      (match call with
        | .params => .ok params
        | .compile _ => .error (.plain "down")
        | .submit _ => .ok "another"
        | .wait _ _ => .ok (.confirmed 70001), ())
    let signer : Signer := ⟨fun _ => .ok [1], 0⟩
    let options := SendOptions.default
    ∃ id, ((send onesKey .zero 5 options).runBetween node signer ⟨options.deadline, none⟩ ()).outcome =
      some (.ok id) := by
  intro params node signer options
  obtain ⟨log, result, houtcome, -, ⟨-, -, honly⟩, -⟩ :=
    send_takes_course onesKey .zero 5 options node signer () rfl
  obtain ⟨g, hbuild, -⟩ := TransactionGroup.exists_build_of_le params options.fee
    (Derivation.candidate onesKey 0).address .zero options.note (show (5 : UInt64) ≠ 0 by decide)
    (show options.fillerCount ≤ 15 by decide)
  have hprepared : Prepared onesKey .zero 5 options (Derivation.candidate onesKey 0) params g :=
    ⟨search_onesKey, rfl, hbuild⟩
  have hsigned : [(1 : UInt8)] ≠ [] := by decide
  have hconfirmed := @Course.confirmed _ _ _ _ _ _ _ _ "another" 70001 hprepared hsigned
  obtain ⟨-, hresult⟩ := honly _ _ () hconfirmed
    (.cons rfl (.cons rfl (.cons rfl (.cons rfl (.nil ())))))
  exact ⟨g.payment.id, houtcome.trans (congrArg some hresult.symm)⟩

/-- With the largest number of fillers there are too many of them, but the payment panics and has no
error. -/
theorem send_panics_of_mostFillers :
    let params : SuggestedParams := ⟨0, 1000, 70000, 71000, "mainnet-v1.0", Digest.zero⟩
    let node : Node Unit := Node.immediate fun _ call =>
      (match call with
        | .params => .ok params
        | .compile _ => .error (.plain "down")
        | .submit _ => .ok ""
        | .wait _ _ => .ok (.confirmed 70001), ())
    let signer : Signer := ⟨fun _ => .ok [1], 0⟩
    let options := { SendOptions.default with fillerCount := 18446744073709551615 }
    let run := (send onesKey .zero 5 options).runBetween node signer ⟨options.deadline, none⟩ ()
    15 < options.fillerCount ∧ run.asked.map Prod.snd = [.node .params] ∧
      run.outcome = some (.error .overflow) ∧ ∀ e, run.outcome ≠ some (.error (.error e)) := by
  intro params node signer options run
  have hcourse : Course onesKey .zero 5 options [⟨.node .params, .ok params⟩] (.error .overflow) :=
    .overflow search_onesKey (by decide) rfl
      (show UInt64.toNat 18446744073709551615 = maxWord by decide)
  have hlog : Dialogue.Answered (node.answerWith signer) () [⟨.node .params, .ok params⟩] () :=
    .cons rfl (.nil ())
  obtain ⟨houtcome, hasked, -⟩ := Protocol.runBetween_none_transcript node signer
    (send onesKey .zero 5 options) ()
  rw [hcourse.transcript_send hlog] at houtcome hasked
  have hpanics : run.outcome = some (.error .overflow) := houtcome
  refine ⟨show (15 : UInt64) < 18446744073709551615 by decide, hasked, hpanics, fun e => ?_⟩
  rw [hpanics]
  nofun

end FalconAccount
