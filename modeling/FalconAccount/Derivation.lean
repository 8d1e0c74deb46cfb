import FalconAccount.ControlProgram
import FalconAccount.Curve
import FalconAccount.ProtocolError

/-!
# Deriving an account from a key

An address that is a point of the Edwards curve might have an ordinary private key. The counter of the
control program is raised until the address is off the curve.
-/

namespace FalconAccount

/-- True when the address is a compressed point of the curve. -/
def Address.isOnCurve (a : Address) : Bool := Curve.contains a.toList

/-- An account: a counter with its program. -/
structure Derivation where
  counter : UInt8
  program : ControlProgram
  deriving DecidableEq

namespace Derivation

def address (d : Derivation) : Address := d.program.address

/-- True when no ordinary key can exist for the address. -/
def isQuantumSafe (d : Derivation) : Bool := ! d.address.isOnCurve

/-- The account of a key for one counter. -/
def candidate (key : PublicKey) (counter : UInt8) : Derivation :=
  ⟨counter, ControlProgram.ofKey key counter⟩

def counters : List UInt8 := (List.range maxCounterTries).map UInt8.ofNat

/-- The account with the first of the given counters that is off the curve. -/
def searchFrom (key : PublicKey) : List UInt8 → Except ProtocolError Derivation
  | [] => .error .derivationExhausted
  | counter :: counters =>
    let d := candidate key counter
    if d.isQuantumSafe then .ok d else searchFrom key counters

/-- The account with the lowest counter that is off the curve. -/
def search (key : PublicKey) : Except ProtocolError Derivation :=
  searchFrom key counters

end Derivation

def deriveAddress (key : Bytes) : Except ProtocolError String := do
  let key ← (PublicKey.ofBytes key).mapError .invalidKeySize
  let d ← Derivation.search key
  return d.address.text

end FalconAccount
