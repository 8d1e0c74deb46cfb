import FalconAccount.Key
import FalconAccount.Transaction

/-!
# What can go wrong

Faults come from outside, from the node or the signer, and are only passed on. Errors are the library's
own; each belongs to a phase of a payment.
-/

namespace FalconAccount

/-- A failure reported from outside: what failed, and the causes behind it, outermost first. -/
structure Fault where
  message : String
  causes : List String
  deriving DecidableEq, Repr

namespace Fault

def plain (message : String) : Fault := ⟨message, []⟩

def chain (f : Fault) : List String := f.message :: f.causes

/-- The fault as the cause of a failure described by `message`. -/
def context (f : Fault) (message : String) : Fault := ⟨message, f.chain⟩

end Fault

inductive Phase where
  | derive
  | build
  | sign
  | submit
  | confirm
  deriving DecidableEq, Repr

def Phase.name : Phase → String
  | .derive => "derive"
  | .build => "build"
  | .sign => "sign"
  | .submit => "submit"
  | .confirm => "confirm"

inductive Cancellation where
  | deadline
  | abort
  deriving DecidableEq, Repr

def Cancellation.message : Cancellation → String
  | .deadline => "deadline exceeded"
  | .abort => "aborted"

def maxCounterTries : Nat := 256

inductive ProtocolError where
  | invalidKeySize (cause : KeySizeError)
  /-- Every counter gives an address on the curve. -/
  | derivationExhausted
  | compileFailed (counter : UInt8) (cause : Fault)
  | invalidAmount
  | paramsUnavailable (cause : Fault)
  | networkMismatch (expected actual : String)
  | encoding (cause : EncodingError)
  | signatureFailure (cause : Fault)
  | submissionRejected (cause : Fault)
  | confirmationTimeout (id : TxId) (rounds : UInt64)
  | confirmationUnavailable (cause : Fault)
  | cancelled (reason : Cancellation)
  deriving DecidableEq

namespace ProtocolError

/-- The phase in which an error arises. A payment can be stopped at any time, also after it was
submitted, so that counts as submission. -/
def phase : ProtocolError → Phase
  | .invalidKeySize _ => .derive
  | .derivationExhausted => .derive
  | .compileFailed _ _ => .derive
  | .invalidAmount => .build
  | .paramsUnavailable _ => .build
  | .networkMismatch _ _ => .build
  | .encoding _ => .sign
  | .signatureFailure _ => .sign
  | .submissionRejected _ => .submit
  | .cancelled _ => .submit
  | .confirmationTimeout _ _ => .confirm
  | .confirmationUnavailable _ => .confirm

/-- The wording of each error, without its causes. -/
def message : ProtocolError → String
  | .invalidKeySize cause => cause.message
  | .derivationExhausted =>
    s!"unsuitable Falcon public key: all {maxCounterTries} counters give an on-curve address"
  | .compileFailed counter _ => s!"compiling control program with counter {counter.toNat} failed"
  | .invalidAmount => "amount must be greater than zero"
  | .paramsUnavailable _ => "network parameters unavailable"
  | .networkMismatch expected actual => s!"node reports genesis {actual}, expected {expected}"
  | .encoding cause => cause.message
  | .signatureFailure _ => "Falcon signing failed"
  | .submissionRejected _ => "submission rejected"
  | .confirmationTimeout id rounds =>
    s!"transaction {id.text} not confirmed after {rounds.toNat} rounds"
  | .confirmationUnavailable _ => "confirmation status unavailable"
  | .cancelled reason => s!"operation cancelled: {reason.message}"

def cause? : ProtocolError → Option Fault
  | .compileFailed _ cause => some cause
  | .paramsUnavailable cause => some cause
  | .signatureFailure cause => some cause
  | .submissionRejected cause => some cause
  | .confirmationUnavailable cause => some cause
  | _ => none

/-- The texts of the causes behind an error, outermost first. -/
def causes (e : ProtocolError) : List String :=
  match e.cause? with
  | some fault => fault.chain
  | none => []

def toFault (e : ProtocolError) : Fault := ⟨e.message, e.causes⟩

end ProtocolError

/-- How a computation ends that gives no value. -/
inductive Failure where
  | error (cause : ProtocolError)
  /-- A sum of sizes does not fit, and the program panics. -/
  | overflow
  deriving DecidableEq

/-- Failures that stand for being stopped from outside. -/
class Cancellable (ε : Type) where
  cancelled : Cancellation → ε

instance : Cancellable ProtocolError := ⟨.cancelled⟩

instance : Cancellable Failure := ⟨fun reason => .error (.cancelled reason)⟩

end FalconAccount
