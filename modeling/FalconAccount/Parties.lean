import FalconAccount.Send

/-!
# The parties of a payment

A node and a signer, each with answers of its own and the time that these take. Together they answer
every question of a protocol.
-/

namespace FalconAccount

/-- A node, in states of type `σ`. -/
structure Node (σ : Type) where
  answer : σ → (c : NodeCall) → c.Reply × σ
  /-- How long an answer takes, in milliseconds. -/
  delay : σ → NodeCall → Nat

/-- A holder of a private key. -/
structure Signer where
  sign : Bytes → Except Fault Bytes
  /-- How long a signature takes, in milliseconds. -/
  delay : Nat

variable {σ ε α : Type}

def Node.immediate (answer : σ → (c : NodeCall) → c.Reply × σ) : Node σ := ⟨answer, fun _ _ => 0⟩

def Signer.absent : Signer := ⟨fun _ => .error (.plain "no signer"), 0⟩

def Node.answerWith (node : Node σ) (signer : Signer) (s : σ) : (r : Request) → r.Reply × σ
  | .node call => node.answer s call
  | .sign message => (signer.sign message, s)

def Node.delayWith (node : Node σ) (signer : Signer) (s : σ) : Request → Nat
  | .node call => node.delay s call
  | .sign _ => signer.delay

/-- Runs a protocol between a node and a signer. -/
def Protocol.runBetween [Cancellable ε] (node : Node σ) (signer : Signer) (limits : Limits)
    (program : Protocol ε α) (s : σ) : Dialogue.Timed Request σ (Except ε α) :=
  program.runWithin (node.answerWith signer) (node.delayWith signer) limits s

end FalconAccount
