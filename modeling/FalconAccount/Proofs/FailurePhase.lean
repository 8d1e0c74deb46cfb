import FalconAccount.Proofs.PaymentCourse

/-!
# The phase in which a payment fails

A payment fails in one phase, the first whose part does not succeed. What an error reports is read off
the error alone, so the two have to be compared for every way to fail. They agree but for one: a group
with too many fillers is never built, and its error reports the phase of signing.
-/

namespace FalconAccount

section Fails

variable {σ : Type} (answer : σ → (r : Request) → r.Reply × σ) (key : PublicKey) (receiver : Address)
  (amount : UInt64) (options : SendOptions) (s : σ)

/-- The group `g` of a payment from `d` is built, and the parties are then in the state `s'`. -/
structure GroupBuilt (d : Derivation) (g : TransactionGroup) (s' : σ) : Prop where
  account : Derivation.search key = .ok d
  group : ∃ log, (buildGroup d.address receiver amount options).transcript answer s =
    ⟨.ok g, log, s'⟩

def GroupSigned (signed : SignedGroup) (s' : σ) : Prop :=
  ∃ d g s₁ log, GroupBuilt answer key receiver amount options s d g s₁ ∧
    (signGroup g d).transcript answer s₁ = ⟨.ok signed, log, s'⟩

def GroupTaken (signed : SignedGroup) (s' : σ) : Prop :=
  ∃ reported s₁, GroupSigned answer key receiver amount options s signed s₁ ∧
    answer s₁ (.node (.submit signed.bytes)) = (.ok reported, s')

/-- A payment fails in a phase: all that comes before succeeds, and the phase itself does not. -/
inductive FailsIn : Phase → Prop where
  | underived {e : ProtocolError} : Derivation.search key = .error e → FailsIn .derive
  | unbuilt {d : Derivation} {e : Failure} {log : List Exchange} {s' : σ} :
      Derivation.search key = .ok d →
      (buildGroup d.address receiver amount options).transcript answer s = ⟨.error e, log, s'⟩ →
      FailsIn .build
  | unsigned {d : Derivation} {g : TransactionGroup} {e : ProtocolError} {log : List Exchange}
      {s₁ s' : σ} : GroupBuilt answer key receiver amount options s d g s₁ →
      (signGroup g d).transcript answer s₁ = ⟨.error e, log, s'⟩ → FailsIn .sign
  | refused {signed : SignedGroup} {fault : Fault} {s₁ s' : σ} :
      GroupSigned answer key receiver amount options s signed s₁ →
      answer s₁ (.node (.submit signed.bytes)) = (.error fault, s') → FailsIn .submit
  | dropped {signed : SignedGroup} {reason : String} {s₁ s' : σ} :
      GroupTaken answer key receiver amount options s signed s₁ →
      answer s₁ (.node (.wait signed.id.text options.maxRounds)) = (.ok (.rejected reason), s') →
      FailsIn .submit
  | unavailable {signed : SignedGroup} {fault : Fault} {s₁ s' : σ} :
      GroupTaken answer key receiver amount options s signed s₁ →
      answer s₁ (.node (.wait signed.id.text options.maxRounds)) = (.error fault, s') →
      FailsIn .confirm
  | pending {signed : SignedGroup} {s₁ s' : σ} :
      GroupTaken answer key receiver amount options s signed s₁ →
      answer s₁ (.node (.wait signed.id.text options.maxRounds)) = (.ok .pending, s') →
      FailsIn .confirm

end Fails

/-- The phase in which a payment comes to an error. -/
def ProtocolError.origin : ProtocolError → Phase
  | .encoding _ => .build
  | e => e.phase

theorem ProtocolError.origin_eq_phase {e : ProtocolError} (h : ∀ cause, e ≠ .encoding cause) :
    e.origin = e.phase := by
  cases e with
  | encoding cause => exact absurd rfl (h cause)
  | _ => rfl

section Stages

variable {key : PublicKey} {receiver : Address} {amount : UInt64} {options : SendOptions}
variable {σ : Type} {answer : σ → (r : Request) → r.Reply × σ} {s s₁ s' : σ} {d : Derivation}
  {g : TransactionGroup} {signed : SignedGroup} {e : ProtocolError} {log : List Exchange}

theorem phase_of_checkNetwork_error {network : Network} {params : SuggestedParams}
    (h : checkNetwork network params = .error e) : e.phase = .build ∧ ∀ cause, e ≠ .encoding cause := by
  obtain ⟨expected, hexpected, hne⟩ := exists_genesisId_of_checkNetwork h
  rw [checkNetwork, hexpected] at h
  simp only [if_neg hne] at h
  cases h
  exact ⟨rfl, by simp⟩

/-- What can go wrong in building a group: too many fillers are an error of the encoding, if the program
does not panic. -/
theorem groupSize_of_build_error {params : SuggestedParams} {mode : FeeMode} {fillerCount : UInt64}
    {sender : Address} {note : Bytes} (ha : amount ≠ 0)
    (h : TransactionGroup.build params mode fillerCount sender receiver amount note =
      .error (.error e)) :
    15 < fillerCount ∧ e = .encoding (.groupSize (fillerCount + 1)) := by
  by_cases hfillers : fillerCount ≤ 15
  · obtain ⟨g, hbuild, -⟩ := TransactionGroup.exists_build_of_le params mode sender receiver note ha
      hfillers
    rw [hbuild] at h
    cases h
  · have htooMany := UInt64.not_le.mp hfillers
    rcases toNat_lt_or_eq_maxWord fillerCount with hmax | hmax
    · rw [TransactionGroup.build_of_tooMany ha htooMany hmax] at h
      exact ⟨htooMany, (Failure.error.inj (Except.error.inj h)).symm⟩
    · rw [TransactionGroup.build_of_overflow ha hmax] at h
      cases h

theorem origin_of_buildGroup_error {sender : Address} {failure : Failure}
    (h : (buildGroup sender receiver amount options).transcript answer s = ⟨.error failure, log, s'⟩) :
    (∀ e, failure = .error e →
        e.origin = .build ∧ ∀ cause, e = .encoding cause → 15 < options.fillerCount) ∧
      ∀ exchange ∈ log, exchange.1 = .node .params := by
  by_cases ha : amount = 0
  · subst ha
    cases (transcript_buildGroup_zero sender).symm.trans h
    refine ⟨?_, by simp⟩
    rintro e ⟨⟩
    exact ⟨rfl, by simp⟩
  · rcases hparams : answer s (.node .params) with ⟨replied, s₁⟩
    cases replied with
    | error fault =>
      cases (transcript_buildGroup_of_fault sender ha hparams).symm.trans h
      refine ⟨?_, by simp⟩
      rintro e ⟨⟩
      exact ⟨rfl, by simp⟩
    | ok params =>
      rw [transcript_buildGroup_of_params options sender receiver ha hparams] at h
      injection h with hvalue hlog hstate
      subst hlog
      refine ⟨?_, by simp⟩
      rintro e rfl
      cases hnetwork : checkNetwork options.network params with
      | error refusal =>
        obtain ⟨hphase, hplain⟩ := phase_of_checkNetwork_error hnetwork
        rw [hnetwork] at hvalue
        obtain rfl : refusal = e := Failure.error.inj (Except.error.inj hvalue)
        exact ⟨(ProtocolError.origin_eq_phase hplain).trans hphase,
          fun cause he => absurd he (hplain cause)⟩
      | ok _ =>
        rw [hnetwork] at hvalue
        obtain ⟨hfillers, rfl⟩ := groupSize_of_build_error ha hvalue
        exact ⟨rfl, fun _ _ => hfillers⟩

theorem signatureFailure_of_signGroup_error {d : Derivation}
    (h : (signGroup g d).transcript answer s = ⟨.error e, log, s'⟩) :
    ∃ fault, e = .signatureFailure fault := by
  by_cases hsender : g.payment.sender = d.address
  · rcases hsign : answer s (.sign g.payment.id.digest.toList) with ⟨replied, s₁⟩
    cases replied with
    | error fault =>
      cases (transcript_signGroup_of_fault hsender hsign).symm.trans h
      exact ⟨fault, rfl⟩
    | ok signature =>
      by_cases hne : signature = []
      · subst hne
        cases (transcript_signGroup_of_empty hsender hsign).symm.trans h
        exact ⟨_, rfl⟩
      · cases (transcript_signGroup_of_signature hsender hne hsign).symm.trans h
  · unfold signGroup at h
    rw [if_pos hsender] at h
    have hvalue := congrArg Dialogue.Transcript.value h
    exact ⟨_, (Except.error.inj hvalue).symm⟩

theorem GroupBuilt.value_send (h : GroupBuilt answer key receiver amount options s d g s₁) :
    ((send key receiver amount options).transcript answer s).value =
      ((signAndSubmit g d options.maxRounds).transcript answer s₁).value.mapError .error := by
  obtain ⟨before, hgroup⟩ := h.group
  rw [send_of_account h.account, Protocol.transcript_bind_ok _ hgroup,
    Protocol.transcript_adapt Failure.error rfl]
  rfl

theorem GroupSigned.value_send (h : GroupSigned answer key receiver amount options s signed s₁) :
    ((send key receiver amount options).transcript answer s).value =
      ((submitAndWait signed.bytes signed.id options.maxRounds).transcript answer s₁).value.mapError
        .error := by
  obtain ⟨d, g, s₂, log, hbuilt, hsign⟩ := h
  rw [hbuilt.value_send, signAndSubmit_eq, Protocol.transcript_bind_ok _ hsign]
  rfl

theorem GroupTaken.value_send {reply : Except Fault Confirmation}
    (h : GroupTaken answer key receiver amount options s signed s₁)
    (hwait : answer s₁ (.node (.wait signed.id.text options.maxRounds)) = (reply, s')) :
    ((send key receiver amount options).transcript answer s).value =
      (reply.mapError .confirmationUnavailable >>=
        confirmationResult signed.id options.maxRounds).mapError .error := by
  obtain ⟨reported, s₂, hsigned, hsubmit⟩ := h
  rw [hsigned.value_send, transcript_submitAndWait_of_submitted hsubmit hwait]

/-- A payment that fails in a phase comes to an error of that phase, if the program does not panic. -/
theorem FailsIn.value_send {phase : Phase} (h : FailsIn answer key receiver amount options s phase) :
    ∃ failure, ((send key receiver amount options).transcript answer s).value = .error failure ∧
      ∀ e, failure = .error e →
        e.origin = phase ∧ ∀ cause, e = .encoding cause → 15 < options.fillerCount := by
  have hplain {e : ProtocolError} (horigin : e.origin = phase) (he : ∀ cause, e ≠ .encoding cause) :
      ∀ raised, Failure.error e = .error raised →
        raised.origin = phase ∧ ∀ cause, raised = .encoding cause → 15 < options.fillerCount := by
    rintro _ ⟨⟩
    exact ⟨horigin, fun cause hcause => absurd hcause (he cause)⟩
  cases h with
  | underived haccount =>
    obtain rfl := Derivation.eq_exhausted_of_searchFrom haccount
    rw [transcript_send_of_exhausted haccount]
    exact ⟨_, rfl, hplain rfl (by simp)⟩
  | unbuilt haccount hbuild =>
    rw [transcript_send_of_unbuilt haccount hbuild]
    exact ⟨_, rfl, (origin_of_buildGroup_error hbuild).1⟩
  | unsigned hbuilt hsign =>
    obtain ⟨fault, rfl⟩ := signatureFailure_of_signGroup_error hsign
    rw [hbuilt.value_send, transcript_signAndSubmit_of_unsigned hsign]
    exact ⟨_, rfl, hplain rfl (by simp)⟩
  | refused hsigned hsubmit =>
    rw [hsigned.value_send, transcript_submitAndWait_of_refused _ _ hsubmit]
    exact ⟨_, rfl, hplain rfl (by simp)⟩
  | dropped htaken hwait =>
    rw [htaken.value_send hwait]
    exact ⟨_, rfl, hplain rfl (by simp)⟩
  | unavailable htaken hwait =>
    rw [htaken.value_send hwait]
    exact ⟨_, rfl, hplain rfl (by simp)⟩
  | pending htaken hwait =>
    rw [htaken.value_send hwait]
    exact ⟨_, rfl, hplain rfl (by simp)⟩

theorem GroupTaken.exists_failsIn (h : GroupTaken answer key receiver amount options s signed s₁)
    {failure : Failure}
    (he : ((send key receiver amount options).transcript answer s).value = .error failure) :
    ∃ phase, FailsIn answer key receiver amount options s phase := by
  rcases hwait : answer s₁ (.node (.wait signed.id.text options.maxRounds)) with ⟨waited, s'⟩
  cases waited with
  | error fault => exact ⟨_, .unavailable h hwait⟩
  | ok confirmation =>
    cases confirmation with
    | confirmed round =>
      rw [h.value_send hwait] at he
      cases he
    | rejected reason => exact ⟨_, .dropped h hwait⟩
    | pending => exact ⟨_, .pending h hwait⟩

/-- Every payment that does not succeed fails in some phase. -/
theorem exists_failsIn {failure : Failure}
    (he : ((send key receiver amount options).transcript answer s).value = .error failure) :
    ∃ phase, FailsIn answer key receiver amount options s phase := by
  cases haccount : Derivation.search key with
  | error cause => exact ⟨_, .underived haccount⟩
  | ok d =>
    rcases hbuild : (buildGroup d.address receiver amount options).transcript answer s with
      ⟨built, log, s₁⟩
    cases built with
    | error cause => exact ⟨_, .unbuilt haccount hbuild⟩
    | ok g =>
      have hbuilt : GroupBuilt answer key receiver amount options s d g s₁ := ⟨haccount, log, hbuild⟩
      rcases hsign : (signGroup g d).transcript answer s₁ with ⟨signed, log', s₂⟩
      cases signed with
      | error cause => exact ⟨_, .unsigned hbuilt hsign⟩
      | ok signed =>
        have hsigned : GroupSigned answer key receiver amount options s signed s₂ :=
          ⟨d, g, s₁, log', hbuilt, hsign⟩
        rcases hsubmit : answer s₂ (.node (.submit signed.bytes)) with ⟨submitted, s₃⟩
        cases submitted with
        | error fault => exact ⟨_, .refused hsigned hsubmit⟩
        | ok reported =>
          have htaken : GroupTaken answer key receiver amount options s signed s₃ :=
            ⟨reported, s₂, hsigned, hsubmit⟩
          exact htaken.exists_failsIn he

/-- The phase in which a payment fails is the origin of its error. -/
theorem failsIn_iff_origin
    (he : ((send key receiver amount options).transcript answer s).value = .error (.error e))
    (phase : Phase) :
    FailsIn answer key receiver amount options s phase ↔ phase = e.origin := by
  have horigin : ∀ phase, FailsIn answer key receiver amount options s phase → phase = e.origin := by
    intro phase hfails
    obtain ⟨raised, hvalue, hraised⟩ := hfails.value_send
    exact (hraised e (Except.error.inj (hvalue.symm.trans he))).1.symm
  constructor
  · exact horigin phase
  · rintro rfl
    obtain ⟨phase, hfails⟩ := exists_failsIn he
    exact horigin phase hfails ▸ hfails

theorem FailsIn.asked_of_build (h : FailsIn answer key receiver amount options s .build) :
    ∀ exchange ∈ ((send key receiver amount options).transcript answer s).exchanges,
      exchange.1 = .node .params := by
  cases h with
  | unbuilt haccount hbuild =>
    rw [transcript_send_of_unbuilt haccount hbuild]
    exact (origin_of_buildGroup_error hbuild).2

end Stages

/-- An error of a payment that was not stopped reports the phase in which the payment fails, except that
a group with too many fillers fails in building and reports signing. A payment that fails in building
has asked for parameters at most, so never for a signature. -/
theorem phase_of_failure {σ : Type} (key : PublicKey) (receiver : Address) (amount : UInt64)
    (options : SendOptions) (node : Node σ) (signer : Signer) (abort : Option Nat) (s : σ)
    {e : ProtocolError} :
    let run := (send key receiver amount options).runBetween node signer ⟨options.deadline, abort⟩ s
    let fails := FailsIn (node.answerWith signer) key receiver amount options s
    run.outcome = some (.error (.error e)) → (∀ reason, e ≠ .cancelled reason) →
      ((∀ cause, e ≠ .encoding cause) → ∀ phase, fails phase ↔ phase = e.phase) ∧
      (∀ cause, e = .encoding cause →
        15 < options.fillerCount ∧ e.phase = .sign ∧ ∀ phase, fails phase ↔ phase = .build) ∧
      (fails .build → ∀ request ∈ run.asked.map Prod.snd, request = .node .params) := by
  intro run fails hrun hgoes
  obtain ⟨hvalue, hasked⟩ := Protocol.runBetween_transcript node signer _ _ s hrun
    (fun reason he => hgoes reason (Failure.error.inj (Except.error.inj he)))
  have hfails := failsIn_iff_origin hvalue.symm
  refine ⟨?_, ?_, ?_⟩
  · intro hplain phase
    rw [← ProtocolError.origin_eq_phase hplain]
    exact hfails phase
  · rintro cause rfl
    obtain ⟨raised, hraised, hfillers⟩ := ((hfails _).mpr rfl).value_send
    have hsame := Except.error.inj (hraised.symm.trans hvalue.symm)
    exact ⟨(hfillers _ hsame).2 cause rfl, rfl, hfails⟩
  · intro hbuild request hmem
    rw [hasked] at hmem
    obtain ⟨exchange, hexchange, rfl⟩ := List.mem_map.mp hmem
    exact hbuild.asked_of_build exchange hexchange

/-- Three fillers, a node that takes the group, and a payment that stays pending. -/
theorem phase_of_failure_pending :
    let params : SuggestedParams := ⟨0, 1000, 70000, 71000, "mainnet-v1.0", Digest.zero⟩
    let node : Node Unit := Node.immediate fun _ call =>
      (match call with
        | .params => .ok params
        | .compile _ => .error (.plain "down")
        | .submit _ => .ok ""
        | .wait _ _ => .ok .pending, ())
    let signer : Signer := ⟨fun _ => .ok [1], 0⟩
    let options := SendOptions.default
    ∃ id, ((send onesKey .zero 5 options).runBetween node signer ⟨options.deadline, none⟩ ()).outcome =
        some (.error (.error (.confirmationTimeout id 9))) ∧
      ∀ phase, FailsIn (node.answerWith signer) onesKey .zero 5 options () phase ↔
        phase = .confirm := by
  intro params node signer options
  obtain ⟨g, hbuild, -⟩ := TransactionGroup.exists_build_of_le params options.fee
    (Derivation.candidate onesKey 0).address .zero options.note (show (5 : UInt64) ≠ 0 by decide)
    (show options.fillerCount ≤ 15 by decide)
  have hprepared : Prepared onesKey .zero 5 options (Derivation.candidate onesKey 0) params g :=
    ⟨search_onesKey, rfl, hbuild⟩
  have hsigned : [(1 : UInt8)] ≠ [] := by decide
  have hlog : Dialogue.Answered (node.answerWith signer) ()
      (submittedLog (Derivation.candidate onesKey 0) params g [1] "" ++
        [⟨.node (.wait g.payment.id.text options.maxRounds), .ok .pending⟩]) () :=
    .cons rfl (.cons rfl (.cons rfl (.cons rfl (.nil ()))))
  have hsend := (Course.pending hprepared hsigned).transcript_send hlog
  obtain ⟨houtcome, -⟩ := Protocol.runBetween_none_transcript node signer
    (send onesKey .zero 5 options) ()
  rw [hsend] at houtcome
  obtain ⟨hphase, -⟩ := phase_of_failure onesKey .zero 5 options node signer none () houtcome (by simp)
  exact ⟨g.payment.id, houtcome, hphase (by simp)⟩

/-- With sixteen fillers a payment fails in building and reports signing. -/
theorem phase_ne_of_tooManyFillers :
    let params : SuggestedParams := ⟨0, 1000, 70000, 71000, "mainnet-v1.0", Digest.zero⟩
    let node : Node Unit := Node.immediate fun _ call =>
      (match call with
        | .params => .ok params
        | .compile _ => .error (.plain "down")
        | .submit _ => .ok ""
        | .wait _ _ => .ok .pending, ())
    let signer : Signer := ⟨fun _ => .ok [1], 0⟩
    let options := { SendOptions.default with fillerCount := 16 }
    ((send onesKey .zero 5 options).runBetween node signer ⟨options.deadline, none⟩ ()).outcome =
        some (.error (.error (.encoding (.groupSize 17)))) ∧
      FailsIn (node.answerWith signer) onesKey .zero 5 options () .build ∧
      (ProtocolError.encoding (.groupSize 17)).phase = .sign := by
  intro params node signer options
  have hbuild : (buildGroup (Derivation.candidate onesKey 0).address .zero 5 options).transcript
      (node.answerWith signer) () =
        ⟨.error (.error (.encoding (.groupSize 17))), [⟨.node .params, .ok params⟩], ()⟩ := by
    rw [transcript_buildGroup_of_params options _ _ (by decide) rfl,
      TransactionGroup.build_of_tooMany (by decide) (by decide) (by decide)]
    rfl
  obtain ⟨houtcome, -⟩ := Protocol.runBetween_none_transcript node signer
    (send onesKey .zero 5 options) ()
  rw [transcript_send_of_unbuilt search_onesKey hbuild] at houtcome
  exact ⟨houtcome, .unbuilt search_onesKey hbuild, rfl⟩

end FalconAccount
