import FalconAccount.Key
import FalconAccount.LogicSig
import FalconAccount.Text.Replace

/-!
# Programs that control accounts

An account is controlled by a program that checks a Falcon signature of the transaction identifier
against a fixed public key. One byte of the program, the counter, has no effect but on the address.
Filler transactions come from a public program that lets only empty payments through.
-/

namespace FalconAccount

def programVersion : UInt8 := 12

/-- Bytecode that controls an account. -/
structure ControlProgram where
  bytes : Bytes
  deriving DecidableEq

namespace ControlProgram

/-- The bytes before the key: the version, a constant block with the counter, the transaction
identifier, the first argument, and the header of a constant of 1793 bytes. -/
def header (counter : UInt8) : Bytes :=
  [programVersion, 0x26, 0x01, 0x01, counter, 0x31, 0x17, 0x2d, 0x80, 0x81, 0x0e]

def verifyInstruction : UInt8 := 0x85

def counterOffset : Nat := 4

def keyOffset : Nat := (header 0).length

def size : Nat := keyOffset + publicKeySize + 1

def ofKey (key : PublicKey) (counter : UInt8) : ControlProgram :=
  ⟨header counter ++ key.toList ++ [verifyInstruction]⟩

def address (p : ControlProgram) : Address := Address.ofProgram p.bytes

/-- The logic signature whose one argument is `signature`. -/
def logicSig (p : ControlProgram) (signature : Bytes) : LogicSig := ⟨p.bytes, [signature]⟩

/-- Length, counter and address; a program too short to hold a counter has none. -/
def describe (p : ControlProgram) : String :=
  let counter := match p.bytes[counterOffset]? with
    | some c => s!"Some({c.toNat})"
    | none => "None"
  s!"ControlProgram \x7b len: {p.bytes.length}, counter: {counter}, address: {p.address.describe} \x7d"

theorem length_ofKey (key : PublicKey) (counter : UInt8) : (ofKey key counter).bytes.length = size := by
  simp only [ofKey, header, size, keyOffset, List.length_append, List.length_cons, List.length_nil,
    PublicKey.length_toList]

theorem counter_ofKey (key : PublicKey) (counter : UInt8) :
    (ofKey key counter).bytes[counterOffset]? = some counter := by
  simp [ofKey, header, counterOffset]

end ControlProgram

def counterMark : String := "TMPL_COUNTER"

def keyMark : String := "TMPL_FALCON_PUBLIC_KEY"

/-- The source of control programs, with marks for the counter and the key. -/
def controlTemplate : String :=
  String.join ["#pragma version 12\n",
    "bytecblock ", counterMark, " // counter\n",
    "txn TxID\n",
    "arg 0\n",
    "pushbytes ", keyMark, "\n",
    "falcon_verify\n"]

def hexOperand (bs : Bytes) : List Char := '0' :: 'x' :: Hex.chars bs

def controlSource (key : PublicKey) (counter : UInt8) : String :=
  let withCounter :=
    Text.replace counterMark.toList (hexOperand [counter]) controlTemplate.toList
  String.ofList (Text.replace keyMark.toList (hexOperand key.toList) withCounter)

namespace Filler

def source : String :=
  String.join ["#pragma version 12\n",
    "bytecblock 0x02 // counter\n",
    "txn RekeyTo\n", "global ZeroAddress\n", "==\n",
    "txn CloseRemainderTo\n", "global ZeroAddress\n", "==\n", "&&\n",
    "txn Amount\n", "!\n", "&&\n",
    "txn Fee\n", "!\n", "&&\n",
    "txn TypeEnum\n", "pushint 1 // pay\n", "==\n", "&&\n"]

/-- A program that approves a payment of nothing, without fee, close-out or change of key. -/
def program : Bytes :=
  [programVersion,
    0x26, 0x01, 0x01, 0x02,
    0x31, 0x20, 0x32, 0x03, 0x12,
    0x31, 0x09, 0x32, 0x03, 0x12, 0x10,
    0x31, 0x08, 0x14, 0x10,
    0x31, 0x01, 0x14, 0x10,
    0x31, 0x10, 0x81, 0x01, 0x12, 0x10]

def address : Address := Address.ofProgram program

def logicSig : LogicSig := ⟨program, []⟩

end Filler

end FalconAccount
