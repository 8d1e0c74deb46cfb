import FalconAccount.Dialogue
import FalconAccount.ProtocolError

/-!
# What a payment asks of others

Everything a payment needs from outside: four questions to the ledger node and one to the holder of the
private key. Each can fail; a failure is passed on as it was reported.
-/

namespace FalconAccount

/-- What the node says about a transaction that was waited for. -/
inductive Confirmation where
  | confirmed (round : UInt64)
  | rejected (reason : String)
  | pending
  deriving DecidableEq, Repr

inductive NodeCall where
  /-- The parameters for new transactions. -/
  | params
  /-- The bytecode of a program source. -/
  | compile (source : String)
  /-- Broadcast of a group; the answer is the identifier that the node reports. -/
  | submit (group : Bytes)
  /-- The fate of a transaction within a number of rounds. -/
  | wait (id : String) (maxRounds : UInt64)
  deriving DecidableEq

def NodeCall.isSubmit : NodeCall → Bool
  | .submit _ => true
  | _ => false

abbrev NodeCall.Answer : NodeCall → Type
  | .params => SuggestedParams
  | .compile _ => Bytes
  | .submit _ => String
  | .wait _ _ => Confirmation

abbrev NodeCall.Reply (c : NodeCall) : Type := Except Fault c.Answer

inductive Request where
  | node (call : NodeCall)
  /-- The Falcon signature of a message. -/
  | sign (message : Bytes)
  deriving DecidableEq

/-- What a question is answered with when nothing fails. -/
abbrev Request.Answer : Request → Type
  | .node call => call.Answer
  | .sign _ => Bytes

abbrev Request.Reply (r : Request) : Type := Except Fault r.Answer

def Request.nodeCall? : Request → Option NodeCall
  | .node call => some call
  | .sign _ => none

abbrev Session : Type → Type := Dialogue Request Request.Reply

/-- A session that can end in a failure of type `ε`. -/
abbrev Protocol (ε : Type) : Type → Type := ExceptT ε Session

namespace Protocol

variable {ε : Type}

/-- Asks a question. A fault becomes the failure that `describe` makes of it. -/
def ask (r : Request) (describe : Fault → ε) : Protocol ε r.Answer :=
  ExceptT.mk (.ask r fun reply => .done (reply.mapError describe))

def askNode (c : NodeCall) (describe : Fault → ε) : Protocol ε c.Answer :=
  ask (.node c) describe

def ofExcept {α : Type} (result : Except ε α) : Protocol ε α :=
  ExceptT.mk (.done result)

end Protocol

end FalconAccount
