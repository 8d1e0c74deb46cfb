import FalconAccount.Proofs.CommandChecks
import FalconAccount.Proofs.FileReplacement
import FalconAccount.Proofs.LedgerPayment
import FalconAccount.Proofs.PaymentRequests

/-!
# How commands proceed

After its checks, the first command prints an address or writes it to a file. A payment that is ready asks
what the sending of the payment asks, and ends with the report of how that ended.
-/

namespace FalconAccount

theorem Protocol.outcome_runWithin_deadline {σ ε α : Type} [Cancellable ε]
    (answer : σ → (r : Request) → r.Reply × σ) (delay : σ → Request → Nat) (deadline : Option Nat)
    (program : Protocol ε α) (s : σ) :
    (program.runWithin answer delay ⟨deadline, none⟩ s).outcome =
      some ((Dialogue.runTimed answer delay deadline 0 program.run s).outcome.getD
        (.error (Cancellable.cancelled .deadline))) := by
  cases deadline with
  | some limit => rfl
  | none =>
    obtain ⟨houtcome, -⟩ := Dialogue.runTimed_none answer delay 0 program.run s
    rw [houtcome]
    exact houtcome

theorem Protocol.outcome_runWithin_of_transcript {σ ε α : Type} [Cancellable ε]
    {answer : σ → (r : Request) → r.Reply × σ} (delay : σ → Request → Nat) {program : Protocol ε α}
    {result : Except ε α} {log : List Exchange} {s s' : σ}
    (h : program.transcript answer s = ⟨result, log, s'⟩) :
    (program.runWithin answer delay ⟨none, none⟩ s).outcome = some result := by
  obtain ⟨houtcome, -, -⟩ := Dialogue.runTimed_none_transcript answer delay 0 program.run s
  rw [Protocol.transcript] at h
  rw [outcome_runWithin_deadline, houtcome, h]
  rfl

theorem NodeClient.answer_params_of_badToken {endpoint : Endpoint}
    (h : Http.isHeaderValue endpoint.token = false) :
    answer endpoint .params = .done (.error NodeError.unreachable.toFault) := by
  have hget : get endpoint "/v2/transactions/params" readParams = .done (.error .unreachable) := by
    rw [get, call, h]
    rfl
  rw [answer, params, hget]
  rfl

namespace CommandLine

variable {σ : Type} {answer : σ → (e : Effect) → e.Reply × σ} (delay : σ → Effect → Nat) {s s₁ : σ}
  {content : Except OsError Bytes}

section Address

variable {keyFile path : String} {fault : Fault} {address : Address}

theorem opening_address (keyFile : String) (out : Option String) :
    (Command.address keyFile out).opening = .ask (.read keyFile) fun content =>
      Dialogue.bind (Attempt.ofExcept (addressIn keyFile content) >>= publish out).run fun result =>
        .done (.over (.ofExcept result)) := by
  rw [Command.opening, deriveFrom_eq, Attempt.bind_assoc, Attempt.run_perform_bind, Dialogue.bind_ask]

theorem execute_address_of_fault (out : Option String)
    (hread : answer s (.read keyFile) = (content, s₁)) (hfault : addressIn keyFile content = .error fault) :
    execute answer delay (.address keyFile out) s = ⟨.failure fault, [.read keyFile], s₁⟩ := by
  rw [execute, opening_address, Dialogue.transcript, hread, hfault]
  rfl

theorem execute_address_of_none (hread : answer s (.read keyFile) = (content, s₁))
    (haddress : addressIn keyFile content = .ok address) :
    execute answer delay (.address keyFile none) s =
      ⟨.success (String.join [address.text, "\n"]), [.read keyFile], s₁⟩ := by
  rw [execute, opening_address, Dialogue.transcript, hread, haddress]
  rfl

def writeReport (path : String) : Except ReplaceError Unit → Report
  | .ok _ => .success ""
  | .error e => .failure ⟨s!"failed to write {path}", e.chain⟩

theorem opening_publish_some (path : String) (address : Address) :
    (Dialogue.bind (publish (some path) address).run fun result =>
        .done (Opening.over (Report.ofExcept result))) =
      (replaceFile path (Bytes.ofString address.text)).bind fun replaced =>
        .done (.over (writeReport path replaced)) := by
  change Dialogue.bind (Dialogue.bind (Dialogue.bind (replaceFile _ _) _) _) _ = _
  rw [Dialogue.bind_assoc, Dialogue.bind_assoc]
  refine congrArg (Dialogue.bind (replaceFile _ _)) (funext fun replaced => ?_)
  cases replaced with
  | error e => rfl
  | ok _ => rfl

theorem execute_address_of_some (hread : answer s (.read keyFile) = (content, s₁))
    (haddress : addressIn keyFile content = .ok address) :
    execute answer delay (.address keyFile (some path)) s =
      let replacing := (replaceFile path (Bytes.ofString address.text)).transcript answer s₁
      ⟨writeReport path replacing.value, .read keyFile :: replacing.exchanges.map (·.1),
        replacing.state⟩ := by
  rw [execute, opening_address, Dialogue.transcript, hread, haddress, Attempt.ofExcept_ok_bind,
    opening_publish_some, Dialogue.transcript_bind]
  simp [Dialogue.Transcript.after, Dialogue.transcript]

theorem execute_address_of_replaces {temporary : String} {s' : σ}
    (hread : answer s (.read keyFile) = (content, s₁)) (haddress : addressIn keyFile content = .ok address)
    (hreplaces : Replaces answer path (Bytes.ofString address.text) temporary s₁ s') :
    execute answer delay (.address keyFile (some path)) s =
      ⟨.success "", [.read keyFile, .createTemporary (parentPath path),
        .write temporary (Bytes.ofString address.text), .sync temporary, .move temporary path], s'⟩ := by
  rw [execute_address_of_some delay hread haddress, hreplaces.transcript_eq]
  rfl

end Address

section Payment

variable {p : Payment} {ready : PreparedPayment} {fault : Fault}

theorem exitCode_paymentReport {result : Except Failure TxId} :
    (paymentReport result).exitCode = 0 ↔ ∃ id, result = .ok id := by
  rcases result with (_ | _) | id
  · exact iff_of_false two_ne_zero nofun
  · exact iff_of_false (by decide) nofun
  · exact iff_of_true rfl ⟨id, rfl⟩

theorem exitCode_paymentReport_overflow {result : Except Failure TxId} :
    (paymentReport result).exitCode = 101 ↔ result = .error .overflow := by
  rcases result with (_ | _) | id
  · exact iff_of_false (show ¬ 2 = 101 by decide) nofun
  · exact iff_of_true rfl rfl
  · exact iff_of_false (show ¬ 0 = 101 by decide) nofun

theorem opening_send (p : Payment) :
    (Command.send p).opening = .ask (.read p.keyFile) fun content =>
      .done (match p.check content with
        | .ok ready => .sending p ready
        | .error fault => .over (.failure fault)) := by
  rw [Command.opening, Payment.prepare_eq, Attempt.run_perform_bind, Dialogue.bind_ask]
  refine congrArg (Dialogue.ask _) (funext fun content => ?_)
  cases p.check content <;> rfl

theorem execute_send_of_fault (hread : answer s (.read p.keyFile) = (content, s₁))
    (hfault : p.check content = .error fault) :
    execute answer delay (.send p) s = ⟨.failure fault, [.read p.keyFile], s₁⟩ := by
  rw [execute, opening_send, Dialogue.transcript, hread, hfault]
  rfl

variable (answer p ready s)

def sessionRun : Dialogue.Timed Effect σ (Except Failure TxId) :=
  (session p ready).runTimed answer delay p.options.deadline 0 s

/-- A payment by itself, between a node and a signer that are reached through the outside. -/
def sending : Dialogue.Timed Request σ (Except Failure TxId) :=
  (send ready.key ready.receiver p.amount p.options).runWithin
    (partner answer ready.endpoint p.signer p.keyFile)
    (partnerDelay answer delay ready.endpoint p.signer p.keyFile) ⟨p.options.deadline, none⟩ s

theorem outcome_sending :
    (sending answer delay s p ready).outcome = some ((sessionRun answer delay s p ready).outcome.getD
      (.error (Cancellable.cancelled .deadline))) := by
  have hstart : p.options.deadline.all (0 ≤ ·) = true := by cases p.options.deadline <;> simp
  rw [sending, Protocol.outcome_runWithin_deadline, sessionRun, session,
    Dialogue.outcome_runTimed_answerBy _ _ _ hstart, run_outside, duration_outside]

variable {answer p ready s}

/-- What a payment asks is what its session asks, and its report is that of the payment by itself. -/
theorem execute_send_of_ready (hread : answer s (.read p.keyFile) = (content, s₁))
    (hready : p.Ready content ready) :
    ∃ result, (sending answer delay s₁ p ready).outcome = some result ∧
      execute answer delay (.send p) s =
        ⟨paymentReport result,
          .read p.keyFile :: (sessionRun answer delay s₁ p ready).asked.map Prod.snd,
          (sessionRun answer delay s₁ p ready).state⟩ := by
  refine ⟨_, outcome_sending answer delay s₁ p ready, ?_⟩
  rw [execute, opening_send, Dialogue.transcript, hread, hready.check_eq]
  rfl

theorem outcome_sessionRun {result : Except Failure TxId}
    (h : (sending answer delay s p ready).outcome = some result)
    (hgoes : result ≠ .error (Cancellable.cancelled .deadline)) :
    (sessionRun answer delay s p ready).outcome = some result := by
  rw [outcome_sending] at h
  cases houtcome : (sessionRun answer delay s p ready).outcome with
  | none =>
    rw [houtcome] at h
    exact absurd (Option.some.inj h).symm hgoes
  | some ended =>
    rw [houtcome] at h
    exact h

theorem isHeaderValue_of_params {endpoint : Endpoint} {signer keyFile : String} {s s' : σ}
    {params : SuggestedParams}
    (hparams : partner answer endpoint signer keyFile s (.node .params) = (.ok params, s')) :
    Http.isHeaderValue endpoint.token = true := by
  cases htoken : Http.isHeaderValue endpoint.token with
  | true => rfl
  | false =>
    rw [partner, NodeClient.answer_params_of_badToken htoken] at hparams
    cases hparams

/-- A payment that is not cut off takes a course with the answers of its partner, and does what the
questions on that course come to. -/
theorem exists_course_of_sending {result : Except Failure TxId}
    (hread : answer s (.read p.keyFile) = (content, s₁)) (hready : p.Ready content ready)
    (h : (sending answer delay s₁ p ready).outcome = some result)
    (hgoes : result ≠ .error (Cancellable.cancelled .deadline)) :
    ∃ log s', Course ready.key ready.receiver p.amount p.options log result ∧
      Dialogue.Answered (partner answer ready.endpoint p.signer p.keyFile) s₁ log s' ∧
      (execute answer delay (.send p) s).asked.filterMap Effect.deed? =
        log.flatMap (deeds ready.endpoint p.signer p.keyFile ·.1) := by
  have hrun := outcome_sessionRun delay h hgoes
  rw [sessionRun, session] at hrun
  obtain ⟨hvalue, hdeeds⟩ :=
    runTimed_answerBy_outside answer delay ready.endpoint p.signer p.keyFile _ hrun
  obtain ⟨log, ended, s', hcourse, hlog⟩ := exists_course ready.key ready.receiver p.amount p.options
    (partner answer ready.endpoint p.signer p.keyFile) s₁
  have htranscript := hcourse.transcript_send hlog
  rw [Protocol.transcript] at htranscript
  rw [htranscript] at hvalue hdeeds
  subst hvalue
  refine ⟨log, s', hcourse, hlog, ?_⟩
  obtain ⟨_, -, hexecute⟩ := execute_send_of_ready delay hread hready
  rw [hexecute, List.filterMap_cons_none rfl, List.filterMap_map]
  exact hdeeds

end Payment

end CommandLine

end FalconAccount
