import FalconAccount.CommandLine.Command
import FalconAccount.CommandLine.Effect
import FalconAccount.KeyFile
import FalconAccount.NodeClient
import FalconAccount.Send

/-!
# What the program does

A command is carried out as a dialogue with the outside: files, a node, and the signing program. It ends
with a report: the exit code, and what is printed. Nothing is printed to the standard output unless the
command succeeded.
-/

namespace FalconAccount.CommandLine

/-- How a command ended. -/
structure Report where
  exitCode : Nat
  /-- What is printed to the standard output. -/
  output : String
  /-- What is printed to the standard error output. -/
  errors : String
  deriving DecidableEq, Repr

namespace Report

def success (output : String) : Report := ⟨0, output, ""⟩

/-- The report of a failure: all its texts on one line, the outermost first. -/
def failure (f : Fault) : Report := ⟨2, "", String.join [": ".intercalate f.chain, "\n"]⟩

def overflow : Report := ⟨101, "", "attempt to add with overflow\n"⟩

def ofExcept : Except Fault String → Report
  | .ok output => success output
  | .error f => failure f

end Report

def versionText : String := "pqledger-cli 0.1.0\n"

/-- The report of a command line that asks for nothing to be done. The help and the wording of the errors
are not part of the program. -/
def Stop.report (help : String) (wording : UsageError → String) : Stop → Report
  | .help => .success help
  | .version => .success versionText
  | .usage cause => ⟨2, "", wording cause⟩

def loadKeys (path : String) : Attempt KeyFile := do
  let content ← Attempt.perform (.read path)
  Attempt.ofExcept ((KeyFile.load path content).mapError fun e =>
    e.toFault.context "failed to read --key")

/-- The address of the public key in a file. -/
def deriveFrom (keyFile : String) : Attempt Address := do
  let keys ← loadKeys keyFile
  let key ← Attempt.ofExcept (keys.requirePublic keyFile)
  let account ← Attempt.ofExcept ((Derivation.search key).mapError fun e =>
    e.toFault.context "error deriving address")
  return account.address

/-- Prints an address as a line, or writes it to a file. -/
def publish (out : Option String) (address : Address) : Attempt String :=
  match out with
  | none => return String.join [address.text, "\n"]
  | some path => do
    match ← ExceptT.lift (replaceFile path (Bytes.ofString address.text)) with
    | .ok _ => return ""
    | .error e => throw ⟨s!"failed to write {path}", e.chain⟩

/-- A payment with everything checked that can be checked before a node is asked. -/
structure PreparedPayment where
  key : PublicKey
  receiver : Address
  endpoint : Endpoint

def noPrivateKey (path : String) : Fault :=
  .plain s!"private key not found in {path} (required for sending)"

/-- Checks a payment. Only the key file is read. -/
def prepare (p : Payment) : Attempt PreparedPayment := do
  let keys ← loadKeys p.keyFile
  let key ← Attempt.ofExcept (keys.requirePublic p.keyFile)
  if keys.privateKey.isNone then throw (noPrivateKey p.keyFile)
  let receiver ← Attempt.ofExcept ((Address.parse p.receiver).mapError fun e =>
    ⟨"invalid --to address", [e.message]⟩)
  let endpoint ← Attempt.ofExcept ((Endpoint.resolve p.network p.nodeUrl p.nodeToken).mapError fun e =>
    .plain e.message)
  return ⟨key, receiver, endpoint⟩

def Payment.options (p : Payment) : SendOptions where
  network := p.network
  fee := (p.fee.map FeeMode.flat).getD .suggested
  note := Bytes.ofString (p.note.getD "")
  maxRounds := p.maxRounds
  deadline := p.timeout.map fun seconds => seconds.toNat * 1000
  fillerCount := p.fillerCount

/-- Answers the questions of a payment: those to the node over HTTP, those to the signer by its
program. -/
def outside (endpoint : Endpoint) (signer keyFile : String) : (r : Request) → Action r.Reply
  | .node call => (NodeClient.answer endpoint call).answerBy fun request =>
      .perform (.http request)
  | .sign message =>
    .ask (.runTool (SigningTool.call signer keyFile message)) fun result =>
      .done (SigningTool.signature signer result)

def paymentFault (e : ProtocolError) : Fault :=
  e.toFault.context s!"send failed during {e.phase.name}"

/-- The dialogue that sends a payment. -/
def session (p : Payment) (ready : PreparedPayment) : Action (Except Failure TxId) :=
  Dialogue.answerBy (outside ready.endpoint p.signer p.keyFile)
    (send ready.key ready.receiver p.amount p.options).run

def paymentReport : Except Failure TxId → Report
  | .ok id => .success s!"Transaction confirmed with id: {id.text}\n"
  | .error (.error e) => .failure (paymentFault e)
  | .error .overflow => .overflow

/-- What a command comes to without a limit on its time. -/
inductive Opening where
  | over (report : Report)
  /-- A payment is left to be sent. -/
  | sending (payment : Payment) (ready : PreparedPayment)

/-- The part of a command that no deadline bounds. -/
def Command.opening : Command → Action Opening
  | .address keyFile out =>
    Dialogue.bind (deriveFrom keyFile >>= publish out).run fun result =>
      .done (.over (.ofExcept result))
  | .send p => Dialogue.bind (prepare p).run fun
    | .ok ready => .done (.sending p ready)
    | .error fault => .done (.over (.failure fault))

/-- What is seen of a command: its report, what it asked of the outside, and the state of that in the
end. -/
structure Execution (σ : Type) where
  report : Report
  asked : List Effect
  state : σ

variable {σ : Type}

/-- Carries out a command. A payment that its deadline cuts off is cancelled. -/
def execute (answer : σ → (e : Effect) → e.Reply × σ) (delay : σ → Effect → Nat) (c : Command)
    (s : σ) : Execution σ :=
  let opening := c.opening.transcript answer s
  let asked := opening.exchanges.map (·.1)
  match opening.value with
  | .over report => ⟨report, asked, opening.state⟩
  | .sending p ready =>
    let sending := (session p ready).runTimed answer delay p.options.deadline 0 opening.state
    let result := sending.outcome.getD (.error (Cancellable.cancelled .deadline))
    ⟨paymentReport result, asked ++ sending.asked.map (·.2), sending.state⟩

end FalconAccount.CommandLine
