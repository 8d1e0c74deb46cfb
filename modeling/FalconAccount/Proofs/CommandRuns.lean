import FalconAccount.Proofs.ConfirmingHost

/-!
# How commands end

Whatever answers a command, it ends with one of three exit codes, and prints nothing unless it succeeded.
An address is written only after everything that can fail has succeeded. A payment succeeds if and only if
it is confirmed, and a payment that is not ready asks no one. The third exit code is that of a panic: with
the largest number of fillers there is no number for the size of the group.
-/

namespace FalconAccount.CommandLine

open NodeClient (submission)

variable {σ : Type} (answer : σ → (e : Effect) → e.Reply × σ) (delay : σ → Effect → ℕ) (s : σ)

/-- How the first command runs. -/
structure AddressRun (keyFile : String) (out : Option String) (run : Execution σ) : Prop where
  /-- It succeeds if and only if there is an account, and its address can be written. -/
  succeeds_iff : run.report.exitCode = 0 ↔
    ∃ account, HoldsAccount keyFile (answer s (.read keyFile)).1 account ∧
      ∀ path ∈ out, ∃ temporary s', Replaces answer path (Bytes.ofString account.address.text) temporary
        (answer s (.read keyFile)).2 s'
  /-- Without a file to write to, the address is printed as a line. -/
  printed : ∀ account, HoldsAccount keyFile (answer s (.read keyFile)).1 account → out = none →
    run = ⟨.success (String.join [account.address.text, "\n"]), [.read keyFile],
      (answer s (.read keyFile)).2⟩
  /-- The address is written to a new file, and that takes the place of the file at the path. -/
  written : ∀ account path temporary s', HoldsAccount keyFile (answer s (.read keyFile)).1 account →
    out = some path → Replaces answer path (Bytes.ofString account.address.text) temporary
      (answer s (.read keyFile)).2 s' →
    run = ⟨.success "", [.read keyFile, .createTemporary (parentPath path),
      .write temporary (Bytes.ofString account.address.text), .sync temporary, .move temporary path], s'⟩
  /-- By the laws of files, the path leads to just the address in the end, and no other file changes,
  unless the path is a link to a directory. -/
  replaced : ∀ (ι : Type) (v : FileView σ ι), v.Lawful answer → run.report.exitCode = 0 →
    ∀ account path, HoldsAccount keyFile (answer s (.read keyFile)).1 account → out = some path →
    v.held? run.state path = some (Bytes.ofString account.address.text) ∧
      (¬ v.LeadsToDirectory s path → v.KeepsIf (fun f => v.file? s path ≠ some f) s run.state)
  /-- By the laws of files, nothing changes if it fails. -/
  kept : ∀ (ι : Type) (v : FileView σ ι), v.Lawful answer → run.report.exitCode ≠ 0 →
    v.Keeps s run.state

section AddressRuns

variable {answer s} {keyFile path temporary : String} {content : Except OsError Bytes} {s₁ s' : σ}

theorem addressRun_of_fault {fault : Fault} (out : Option String)
    (hread : answer s (.read keyFile) = (content, s₁)) (hfault : addressIn keyFile content = .error fault) :
    AddressRun answer s keyFile out (execute answer delay (.address keyFile out) s) := by
  have hnone (account : Derivation) :
      ¬ HoldsAccount keyFile (answer s (.read keyFile)).1 account := by
    intro hholds
    rw [hread] at hholds
    cases hfault.symm.trans hholds.addressIn_eq
  rw [execute_address_of_fault delay out hread hfault]
  exact {
    succeeds_iff := iff_of_false two_ne_zero fun ⟨account, hholds, _⟩ => hnone account hholds
    printed := fun account hholds => absurd hholds (hnone account)
    written := fun account _ _ _ hholds => absurd hholds (hnone account)
    replaced := fun _ _ _ _ account _ hholds => absurd hholds (hnone account)
    kept := fun _ _ hv _ => (hv.read hread).1 }

theorem addressRun_of_printed {account : Derivation} (hread : answer s (.read keyFile) = (content, s₁))
    (hholds : HoldsAccount keyFile content account) :
    AddressRun answer s keyFile none (execute answer delay (.address keyFile none) s) := by
  rw [execute_address_of_none delay hread hholds.addressIn_eq]
  exact {
    succeeds_iff := by
      rw [hread]
      exact iff_of_true rfl ⟨account, hholds, nofun⟩
    printed := by
      intro other hother _
      rw [hread] at hother ⊢
      rw [hother.address_eq hholds]
    written := by
      intro _ _ _ _ _ hout
      cases hout
    replaced := by
      intro _ _ _ _ _ _ _ hout
      cases hout
    kept := fun _ _ _ hcode => absurd rfl hcode }

theorem addressRun_of_abandoned {account : Derivation} {e : ReplaceError}
    (hread : answer s (.read keyFile) = (content, s₁)) (hholds : HoldsAccount keyFile content account)
    (hvalue : ((replaceFile path (Bytes.ofString account.address.text)).transcript answer s₁).value =
      .error e)
    (habandons : Abandons answer path (Bytes.ofString account.address.text) s₁ e
      ((replaceFile path (Bytes.ofString account.address.text)).transcript answer s₁).state) :
    AddressRun answer s keyFile (some path) (execute answer delay (.address keyFile (some path)) s) := by
  have hrefused {other : Derivation} {temporary : String} {s' : σ}
      (hother : HoldsAccount keyFile (answer s (.read keyFile)).1 other) :
      ¬ Replaces answer path (Bytes.ofString other.address.text) temporary
        (answer s (.read keyFile)).2 s' := by
    rw [hread] at hother ⊢
    rw [hother.address_eq hholds]
    intro hreplaces
    rw [hreplaces.transcript_eq] at hvalue
    cases hvalue
  rw [execute_address_of_some delay hread hholds.addressIn_eq]
  simp only [hvalue]
  exact {
    succeeds_iff := by
      refine iff_of_false two_ne_zero ?_
      rintro ⟨other, hother, hplace⟩
      obtain ⟨temporary, s', hreplaces⟩ := hplace path rfl
      exact hrefused hother hreplaces
    printed := by
      intro _ _ hout
      cases hout
    written := by
      rintro other _ temporary s' hother ⟨⟩ hreplaces
      exact absurd hreplaces (hrefused hother)
    replaced := fun _ _ _ hcode => absurd hcode two_ne_zero
    kept := fun _ _ hv _ => (hv.read hread).1.trans (hv.keeps_of_abandons habandons) }

theorem addressRun_of_replaced {account : Derivation} (hread : answer s (.read keyFile) = (content, s₁))
    (hholds : HoldsAccount keyFile content account)
    (hreplaces : Replaces answer path (Bytes.ofString account.address.text) temporary s₁ s') :
    AddressRun answer s keyFile (some path) (execute answer delay (.address keyFile (some path)) s) := by
  have hrun {temporary : String} {s' : σ}
      (h : Replaces answer path (Bytes.ofString account.address.text) temporary s₁ s') :=
    execute_address_of_replaces delay hread hholds.addressIn_eq h
  rw [hrun hreplaces]
  exact {
    succeeds_iff := by
      rw [hread]
      refine iff_of_true rfl ⟨account, hholds, ?_⟩
      rintro _ ⟨⟩
      exact ⟨temporary, s', hreplaces⟩
    printed := by
      intro _ _ hout
      cases hout
    written := by
      rintro other _ temporary' s'' hother ⟨⟩ hreplaces'
      rw [hread] at hother hreplaces'
      rw [hother.address_eq hholds] at hreplaces' ⊢
      exact (hrun hreplaces).symm.trans (hrun hreplaces')
    replaced := by
      rintro ι v hv - other _ hother ⟨⟩
      rw [hread] at hother
      rw [hother.address_eq hholds]
      obtain ⟨hheld, hothers⟩ := hv.held?_of_replaces hreplaces
      obtain ⟨hkeeps, hpaths⟩ := hv.read hread
      rw [hpaths.file, hpaths.directory] at hothers
      exact ⟨hheld, fun hnone => (hkeeps.keepsIf _).trans (hothers hnone)⟩
    kept := fun _ _ _ hcode => absurd rfl hcode }

theorem addressRun_execute (keyFile : String) (out : Option String) :
    AddressRun answer s keyFile out (execute answer delay (.address keyFile out) s) := by
  rcases hread : answer s (.read keyFile) with ⟨content, s₁⟩
  cases haddress : addressIn keyFile content with
  | error fault => exact addressRun_of_fault delay out hread haddress
  | ok address =>
    obtain ⟨account, hholds, -⟩ := addressIn_eq_ok_iff.mp haddress
    cases out with
    | none => exact addressRun_of_printed delay hread hholds
    | some path =>
      rcases replaces_or_abandons answer path (Bytes.ofString account.address.text) s₁ with
        ⟨temporary, s', hreplaces⟩ | ⟨e, hvalue, habandons⟩
      · exact addressRun_of_replaced delay hread hholds hreplaces
      · exact addressRun_of_abandoned delay hread hholds hvalue habandons

end AddressRuns

/-- What a payment consists of that was confirmed under the identifier `id`: its group `g` was built from
the parameters that the node gave, has the signature that the program gave, and is the one body sent. -/
structure PaidWith (p : Payment) (ready : PreparedPayment) (run : Execution σ) (id : TxId)
    (account : Derivation) (params : SuggestedParams) (g : TransactionGroup) (signature : Bytes) :
    Prop where
  prepared : Prepared ready.key ready.receiver p.amount p.options account params g
  id_eq : id = g.payment.id
  transcript : ∃ reported round s',
    (send ready.key ready.receiver p.amount p.options).transcript
        (partner answer ready.endpoint p.signer p.keyFile) (answer s (.read p.keyFile)).2 =
      ⟨.ok id, submittedLog account params g signature reported ++
        [⟨.node (.wait id.text p.maxRounds), .ok (.confirmed round)⟩], s'⟩
  /-- One run of the signing program and one body that is sent are all that is done. -/
  deeds : run.asked.filterMap Effect.deed? =
    [.runTool (SigningTool.call p.signer p.keyFile g.payment.id.digest.toList),
      .http (submission ready.endpoint (signedBytes account g signature))]
  /-- A node reads the identifier first, if all lengths can be told on the wire. -/
  read : p.options.note.length < UInt32.size → signature.length < UInt32.size →
    (p.network = .devNet → (Bytes.ofString params.genesisId).length < UInt32.size) →
    ∃ ids, transactionIds (signedBytes account g signature) = .ok ids ∧ ids.head? = some id

/-- How a payment runs. -/
structure PaymentRun (p : Payment) (run : Execution σ) : Prop where
  /-- It succeeds if and only if it is ready, and by itself it is confirmed. -/
  succeeds_iff : run.report.exitCode = 0 ↔
    ∃ ready id, p.Ready (answer s (.read p.keyFile)).1 ready ∧
      (sending answer delay (answer s (.read p.keyFile)).2 p ready).outcome = some (.ok id)
  confirmed : ∀ ready id, p.Ready (answer s (.read p.keyFile)).1 ready →
    (sending answer delay (answer s (.read p.keyFile)).2 p ready).outcome = some (.ok id) →
    run.report = .success s!"Transaction confirmed with id: {id.text}\n" ∧
      ∃ account params g signature, PaidWith answer s p ready run id account params g signature
  /-- It panics if and only if it is ready, and by itself it does. -/
  panics_iff : run.report.exitCode = 101 ↔
    ∃ ready, p.Ready (answer s (.read p.keyFile)).1 ready ∧
      (sending answer delay (answer s (.read p.keyFile)).2 p ready).outcome = some (.error .overflow)
  /-- Only with the largest number of fillers it panics, and then nothing was signed or sent. -/
  panicked : run.report.exitCode = 101 →
    p.fillerCount.toNat = maxWord ∧ run.asked.filterMap Effect.deed? = []
  /-- Without both keys, a receiver and a node, only the key file is read. -/
  unready : ((∀ publicKey privateKey,
        KeyFile.load p.keyFile (answer s (.read p.keyFile)).1 ≠ .ok ⟨some publicKey, some privateKey⟩) ∨
      (∀ receiver, Address.parse p.receiver ≠ .ok receiver) ∨
      (∀ endpoint, Endpoint.resolve p.network p.nodeUrl p.nodeToken ≠ .ok endpoint)) →
    run.asked = [.read p.keyFile] ∧ run.state = (answer s (.read p.keyFile)).2

section PaymentRuns

variable {answer s} {p : Payment} {ready : PreparedPayment} {content : Except OsError Bytes} {s₁ : σ}

theorem exists_paidWith {id : TxId} (hread : answer s (.read p.keyFile) = (content, s₁))
    (hready : p.Ready content ready)
    (hpaid : (sending answer delay s₁ p ready).outcome = some (.ok id)) :
    ∃ account params g signature, PaidWith answer s p ready (execute answer delay (.send p) s)
      id account params g signature := by
  obtain ⟨log, s', hcourse, hlog, hdeeds⟩ :=
    exists_course_of_sending delay hread hready hpaid nofun
  obtain ⟨account, params, g, signature, reported, round, hprepared, hid, rfl⟩ := hcourse.exists_of_ok
  have htoken : Http.isHeaderValue ready.endpoint.token = true := by
    obtain _ | ⟨hparams, -⟩ := hlog
    exact isHeaderValue_of_params hparams
  refine ⟨account, params, g, signature, ?_⟩
  exact {
    prepared := hprepared
    id_eq := hid
    transcript := by
      rw [hread]
      exact ⟨reported, round, s', hcourse.transcript_send hlog⟩
    deeds := by
      rw [hdeeds]
      simp [submittedLog, signedLog, CommandLine.deeds, htoken]
    read := by
      intro hnote hsignature hprivate
      rw [hid]
      exact ⟨_, hprepared.transactionIds_eq hnote hsignature hprivate, rfl⟩ }

theorem panicked_execute (hread : answer s (.read p.keyFile) = (content, s₁))
    (hready : p.Ready content ready)
    (hpanics : (sending answer delay s₁ p ready).outcome = some (.error .overflow)) :
    p.fillerCount.toNat = maxWord ∧
      (execute answer delay (.send p) s).asked.filterMap Effect.deed? = [] := by
  obtain ⟨log, s', hcourse, -, hdeeds⟩ := exists_course_of_sending delay hread hready hpanics nofun
  rw [hdeeds]
  cases hcourse with
  | overflow haccount hamount hnetwork hfillers => exact ⟨hfillers, rfl⟩

theorem paymentRun_execute (p : Payment) :
    PaymentRun answer delay s p (execute answer delay (.send p) s) := by
  rcases hread : answer s (.read p.keyFile) with ⟨content, s₁⟩
  cases hcheck : p.check content with
  | error fault =>
    have hnone (ready : PreparedPayment) : ¬ p.Ready (answer s (.read p.keyFile)).1 ready := by
      intro hready
      rw [hread] at hready
      cases hcheck.symm.trans hready.check_eq
    rw [execute_send_of_fault delay hread hcheck]
    exact {
      succeeds_iff := iff_of_false two_ne_zero fun ⟨ready, _, hready, _⟩ => hnone ready hready
      confirmed := fun ready _ hready => absurd hready (hnone ready)
      panics_iff :=
        iff_of_false (show ¬ 2 = 101 by decide) fun ⟨ready, hready, _⟩ => hnone ready hready
      panicked := fun hcode => absurd hcode (show ¬ 2 = 101 by decide)
      unready := by
        rw [hread]
        exact fun _ => ⟨rfl, rfl⟩ }
  | ok ready =>
    have hready := Payment.check_eq_ok_iff.mp hcheck
    have hunique {other : PreparedPayment} (hother : p.Ready content other) : other = ready :=
      Except.ok.inj (hother.check_eq.symm.trans hcheck)
    obtain ⟨result, hresult, hrun⟩ := execute_send_of_ready delay hread hready
    have hreport : (execute answer delay (.send p) s).report = paymentReport result := by rw [hrun]
    have hends {ended : Except Failure TxId} :
        (∃ other, p.Ready (answer s (.read p.keyFile)).1 other ∧
          (sending answer delay (answer s (.read p.keyFile)).2 p other).outcome = some ended) ↔
        result = ended := by
      rw [hread]
      constructor
      · rintro ⟨other, hother, hended⟩
        obtain rfl := hunique hother
        exact Option.some.inj (hresult.symm.trans hended)
      · rintro rfl
        exact ⟨ready, hready, hresult⟩
    exact {
      succeeds_iff := by
        rw [hreport, exitCode_paymentReport]
        constructor
        · rintro ⟨id, hid⟩
          obtain ⟨other, hother, hpaid⟩ := hends.mpr hid
          exact ⟨other, id, hother, hpaid⟩
        · rintro ⟨other, id, hother, hpaid⟩
          exact ⟨id, hends.mp ⟨other, hother, hpaid⟩⟩
      confirmed := by
        intro other id hother hpaid
        obtain rfl := hends.mp ⟨other, hother, hpaid⟩
        rw [hread] at hother hpaid
        exact ⟨hreport, exists_paidWith delay hread hother hpaid⟩
      panics_iff := by
        rw [hreport, exitCode_paymentReport_overflow, hends]
      panicked := by
        intro hcode
        rw [hreport, exitCode_paymentReport_overflow] at hcode
        subst hcode
        exact panicked_execute delay hread hready hresult
      unready := by
        intro hmissing
        rw [hread] at hmissing
        obtain ⟨fault, hfault⟩ := Payment.exists_check_eq_error hmissing
        cases hfault.symm.trans hcheck }

end PaymentRuns

theorem exists_report_address (keyFile : String) (out : Option String) :
    ∃ result, (execute answer delay (.address keyFile out) s).report = .ofExcept result := by
  have hvalue : ((Command.address keyFile out).opening.transcript answer s).value =
      .over (.ofExcept ((deriveFrom keyFile >>= publish out).run.run answer s).1) := by
    rw [Dialogue.transcript_value, Command.opening, Dialogue.run_bind]
    rfl
  refine ⟨((deriveFrom keyFile >>= publish out).run.run answer s).1, ?_⟩
  simp only [execute, hvalue]

theorem exists_report_send (p : Payment) :
    (∃ fault, (execute answer delay (.send p) s).report = .failure fault) ∨
      ∃ result, (execute answer delay (.send p) s).report = paymentReport result := by
  rcases hread : answer s (.read p.keyFile) with ⟨content, s₁⟩
  cases hcheck : p.check content with
  | error fault =>
    rw [execute_send_of_fault delay hread hcheck]
    exact .inl ⟨fault, rfl⟩
  | ok ready =>
    obtain ⟨result, -, hrun⟩ := execute_send_of_ready delay hread (Payment.check_eq_ok_iff.mp hcheck)
    rw [hrun]
    exact .inr ⟨result, rfl⟩

end FalconAccount.CommandLine
