import FalconAccount.Derivation
import FalconAccount.Request
import FalconAccount.TransactionGroup

/-!
# Sending a payment

Derive the account, build the group, have the payment signed, submit the group as one unit, and wait for
it. Nothing is tried twice.
-/

namespace FalconAccount

structure SendOptions where
  /-- The network that the node must serve. -/
  network : Network
  fee : FeeMode
  note : Bytes
  maxRounds : UInt64
  /-- A bound on the whole operation, in milliseconds. -/
  deadline : Option Nat
  fillerCount : UInt64

/-- Main network, suggested fee, no note, no deadline. -/
def SendOptions.default : SendOptions where
  network := .mainNet
  fee := .suggested
  note := []
  maxRounds := defaultMaxRounds
  deadline := none
  fillerCount := defaultFillerCount

/-- An encoded group with the identifier of its payment. -/
structure SignedGroup where
  bytes : Bytes
  id : TxId

/-- Fetches parameters and builds the group of a payment. -/
def buildGroup (sender receiver : Address) (amount : UInt64) (options : SendOptions) :
    Protocol Failure TransactionGroup := do
  if amount = 0 then throw (.error .invalidAmount)
  let params ← Protocol.askNode .params fun fault => .error (.paramsUnavailable fault)
  Protocol.ofExcept ((checkNetwork options.network params).mapError .error)
  Protocol.ofExcept (TransactionGroup.build params options.fee options.fillerCount
    sender receiver amount options.note)

/-- The signed members of a group: the payment with its signature, and the fillers. -/
def signedMembers (group : TransactionGroup) (program : ControlProgram) (signature : Bytes) :
    List SignedTransaction :=
  ⟨group.payment, program.logicSig signature⟩ :: group.fillers.map (⟨·, Filler.logicSig⟩)

/-- The fault of a payment from an account other than the derived one. -/
def senderFault (sender derived : Address) : Fault :=
  .plain s!"payment sender {sender.text} is not the derived account {derived.text}"

def signGroup (group : TransactionGroup) (account : Derivation) :
    Protocol ProtocolError SignedGroup := do
  if group.payment.sender ≠ account.address then
    throw (.signatureFailure (senderFault group.payment.sender account.address))
  let id := group.payment.id
  let signature ← Protocol.ask (.sign id.digest.toList) .signatureFailure
  if signature.isEmpty then
    throw (.signatureFailure (.plain "signer returned an empty signature"))
  return ⟨encodeGroup (signedMembers group account.program signature), id⟩

def confirmationResult (id : TxId) (maxRounds : UInt64) : Confirmation → Except ProtocolError TxId
  | .confirmed _ => .ok id
  | .rejected reason => .error (.submissionRejected (.plain reason))
  | .pending => .error (.confirmationTimeout id maxRounds)

/-- Signs a group, submits it, and waits for its payment. -/
def signAndSubmit (group : TransactionGroup) (account : Derivation) (maxRounds : UInt64) :
    Protocol ProtocolError TxId := do
  let signed ← signGroup group account
  let _reported ← Protocol.askNode (.submit signed.bytes) .submissionRejected
  let confirmation ← Protocol.askNode (.wait signed.id.text maxRounds) .confirmationUnavailable
  Protocol.ofExcept (confirmationResult signed.id maxRounds confirmation)

/-- Pays `amount` to `receiver` from the account of `key`. -/
def send (key : PublicKey) (receiver : Address) (amount : UInt64) (options : SendOptions) :
    Protocol Failure TxId := do
  let account ← Protocol.ofExcept ((Derivation.search key).mapError .error)
  let group ← buildGroup account.address receiver amount options
  ExceptT.adapt .error (signAndSubmit group account options.maxRounds)

/-- When a payment is to be stopped, in milliseconds after its start. -/
structure Limits where
  deadline : Option Nat
  abort : Option Nat

namespace Limits

def none : Limits := ⟨.none, .none⟩

/-- The limit that comes first, and what it stands for. -/
def first? (limits : Limits) : Option (Nat × Cancellation) :=
  match limits.deadline, limits.abort with
  | .none, .none => .none
  | some d, .none => some (d, .deadline)
  | .none, some a => some (a, .abort)
  | some d, some a => if a < d then some (a, .abort) else some (d, .deadline)

end Limits

variable {σ ε α : Type} [Cancellable ε]

/-- Runs a protocol against a node and signer whose answers take time. An abort at time zero comes
before anything is asked. -/
def Protocol.runWithin (answer : σ → (r : Request) → r.Reply × σ) (delay : σ → Request → Nat)
    (limits : Limits) (program : Protocol ε α) (s : σ) :
    Dialogue.Timed Request σ (Except ε α) :=
  if limits.abort = some 0 then ⟨some (.error (Cancellable.cancelled .abort)), [], s⟩
  else
    match limits.first? with
    | none => Dialogue.runTimed answer delay none 0 program.run s
    | some (limit, reason) =>
      let result := Dialogue.runTimed answer delay (some limit) 0 program.run s
      { result with outcome := some (result.outcome.getD (.error (Cancellable.cancelled reason))) }

end FalconAccount
