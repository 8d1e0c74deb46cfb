import FalconAccount.Derivation
import FalconAccount.Request

/-!
# Deriving an account through the node's compiler

The search of a derivation, with every program compiled by the node from its source.
-/

namespace FalconAccount

def compileProgram (key : PublicKey) (counter : UInt8) : Protocol ProtocolError ControlProgram := do
  let bytes ← Protocol.askNode (.compile (controlSource key counter)) (.compileFailed counter)
  return ⟨bytes⟩

/-- The first of the given counters whose compiled program has an address off the curve. -/
def searchCompiledFrom (key : PublicKey) : List UInt8 → Protocol ProtocolError Derivation
  | [] => throw .derivationExhausted
  | counter :: counters => do
    let program ← compileProgram key counter
    let d : Derivation := ⟨counter, program⟩
    if d.isQuantumSafe then return d else searchCompiledFrom key counters

/-- The account with the lowest counter that is off the curve, by the node's compiler. -/
def searchCompiled (key : PublicKey) : Protocol ProtocolError Derivation :=
  searchCompiledFrom key Derivation.counters

end FalconAccount
