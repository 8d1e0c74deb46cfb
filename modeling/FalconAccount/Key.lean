import FalconAccount.Bytes.Hex

/-!
# Falcon keys

Falcon-1024 keys are byte strings of fixed length; the lattice arithmetic behind them is not needed here.
Private keys have no printed form.
-/

namespace FalconAccount

def publicKeySize : Nat := 1793

def privateKeySize : Nat := 2305

/-- A byte string of the wrong length was given as a key. -/
inductive KeySizeError where
  | publicKey (actual : Nat)
  | privateKey (actual : Nat)
  deriving DecidableEq, Repr

def KeySizeError.message : KeySizeError → String
  | .publicKey actual =>
    s!"invalid public key size: expected {publicKeySize} bytes, got {actual}"
  | .privateKey actual =>
    s!"invalid private key size: expected {privateKeySize} bytes, got {actual}"

/-- A Falcon-1024 public key. -/
structure PublicKey where
  bytes : Vector UInt8 publicKeySize
  deriving DecidableEq

structure PrivateKey where
  bytes : Vector UInt8 privateKeySize
  deriving DecidableEq

namespace PublicKey

/-- A key of exactly the right length. -/
def ofBytes (bs : Bytes) : Except KeySizeError PublicKey :=
  match Bytes.toVector? publicKeySize bs with
  | some bytes => .ok ⟨bytes⟩
  | none => .error (.publicKey bs.length)

def toList (k : PublicKey) : Bytes := k.bytes.toList

/-- The first bytes of the key with its type's name around them. -/
def describe (k : PublicKey) : String := s!"FalconPublicKey({Hex.encode (k.toList.take 8)}..)"

theorem length_toList (k : PublicKey) : k.toList.length = publicKeySize := by
  simp [toList]

end PublicKey

namespace PrivateKey

def ofBytes (bs : Bytes) : Except KeySizeError PrivateKey :=
  match Bytes.toVector? privateKeySize bs with
  | some bytes => .ok ⟨bytes⟩
  | none => .error (.privateKey bs.length)

def toList (k : PrivateKey) : Bytes := k.bytes.toList

/-- The type's name only. -/
def describe (_ : PrivateKey) : String := "FalconPrivateKey(..)"

end PrivateKey

end FalconAccount
