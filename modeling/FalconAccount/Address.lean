import FalconAccount.Bytes.Base32
import FalconAccount.Hash

/-!
# Account addresses

An address is 32 bytes. Its text is the base-32 form of those bytes and a four-byte checksum: 58
characters, of which only those that writing produces are read back.
-/

namespace FalconAccount

/-- A ledger account address. -/
structure Address where
  bytes : Vector UInt8 32
  deriving DecidableEq

inductive AddressError where
  /-- The text has `actual` bytes. -/
  | length (actual : Nat)
  /-- A character is no base-32 symbol, or the last one has a bit too many. -/
  | base32
  /-- The checksum belongs to other bytes. -/
  | checksum
  deriving DecidableEq, Repr

namespace Address

def size : Nat := 32

def checksumSize : Nat := 4

def textSize : Nat := Base32.symbolCount (size + checksumSize)

/-- The address of zero bytes, which the wire format treats as unset. -/
def zero : Address := ⟨Vector.replicate 32 0⟩

def toList (a : Address) : Bytes := a.bytes.toList

def isZero (a : Address) : Bool := a == zero

/-- The address of the account that a logic program controls. -/
def ofProgram (program : Bytes) : Address :=
  ⟨sha512_256 (Bytes.ofString "Program") program⟩

/-- The last bytes of the digest of the address. -/
def checksum (a : Address) : Bytes :=
  (sha512_256 [] a.toList).toList.drop (size - checksumSize)

def text (a : Address) : String :=
  Base32.encode (a.toList ++ a.checksum)

/-- The address with its type's name around it. -/
def describe (a : Address) : String := s!"Address({a.text})"

/-- Byte-by-byte order. -/
def order (a b : Address) : Ordering :=
  List.compareLex compare a.toList b.toList

def parse (text : String) : Except AddressError Address :=
  if text.utf8ByteSize ≠ textSize then .error (.length text.utf8ByteSize)
  else
    match Base32.decode? text.toList with
    | none => .error .base32
    | some raw =>
      if h : raw.length = size + checksumSize then
        let address : Address := ⟨(raw.take size).toArray, by simp [h, size]⟩
        if address.checksum = raw.drop size then .ok address else .error .checksum
      else .error .base32

theorem length_toList (a : Address) : a.toList.length = 32 := by
  simp [toList]

theorem eq_of_toList {a b : Address} (h : a.toList = b.toList) : a = b :=
  congrArg Address.mk (Vector.toList_inj.mp h)

theorem length_checksum (a : Address) : a.checksum.length = 4 := by
  simp [checksum, size, checksumSize]

end Address

def AddressError.message : AddressError → String
  | .length actual => s!"address must be {Address.textSize} characters, got {actual}"
  | .base32 => "address is not valid base32"
  | .checksum => "address checksum mismatch"

end FalconAccount
