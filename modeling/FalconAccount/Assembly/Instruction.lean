import FalconAccount.Bytes.Varuint

/-!
# Instructions of logic programs

The instructions that control programs and fillers are made of, and their bytecode. A program is its
version followed by its instructions; numbers and lengths are of variable length.
-/

namespace FalconAccount.Assembly

/-- Instructions without operands. -/
inductive Operation where
  | err
  | sha256
  | plus
  | minus
  | less
  | greater
  | and
  | or
  | equal
  | notEqual
  | not
  | len
  | pop
  | dup
  | falconVerify
  deriving DecidableEq, Repr

namespace Operation

def all : List Operation :=
  [.err, .sha256, .plus, .minus, .less, .greater, .and, .or, .equal, .notEqual, .not, .len, .pop, .dup,
    .falconVerify]

def name : Operation → String
  | .err => "err"
  | .sha256 => "sha256"
  | .plus => "+"
  | .minus => "-"
  | .less => "<"
  | .greater => ">"
  | .and => "&&"
  | .or => "||"
  | .equal => "=="
  | .notEqual => "!="
  | .not => "!"
  | .len => "len"
  | .pop => "pop"
  | .dup => "dup"
  | .falconVerify => "falcon_verify"

def code : Operation → UInt8
  | .err => 0x00
  | .sha256 => 0x01
  | .plus => 0x08
  | .minus => 0x09
  | .less => 0x0c
  | .greater => 0x0d
  | .and => 0x10
  | .or => 0x11
  | .equal => 0x12
  | .notEqual => 0x13
  | .not => 0x14
  | .len => 0x15
  | .pop => 0x48
  | .dup => 0x49
  | .falconVerify => 0x85

def minVersion : Operation → Nat
  | .falconVerify => 12
  | _ => 1

def ofName? (text : String) : Option Operation := all.find? (·.name == text)

end Operation

/-- Fields of the transaction that a program looks at. -/
inductive TxnField where
  | sender
  | fee
  | firstValid
  | lastValid
  | note
  | lease
  | receiver
  | amount
  | closeRemainderTo
  | typeEnum
  | groupIndex
  | txId
  | rekeyTo
  deriving DecidableEq, Repr

namespace TxnField

def all : List TxnField :=
  [.sender, .fee, .firstValid, .lastValid, .note, .lease, .receiver, .amount, .closeRemainderTo,
    .typeEnum, .groupIndex, .txId, .rekeyTo]

def name : TxnField → String
  | .sender => "Sender"
  | .fee => "Fee"
  | .firstValid => "FirstValid"
  | .lastValid => "LastValid"
  | .note => "Note"
  | .lease => "Lease"
  | .receiver => "Receiver"
  | .amount => "Amount"
  | .closeRemainderTo => "CloseRemainderTo"
  | .typeEnum => "TypeEnum"
  | .groupIndex => "GroupIndex"
  | .txId => "TxID"
  | .rekeyTo => "RekeyTo"

def code : TxnField → UInt8
  | .sender => 0
  | .fee => 1
  | .firstValid => 2
  | .lastValid => 4
  | .note => 5
  | .lease => 6
  | .receiver => 7
  | .amount => 8
  | .closeRemainderTo => 9
  | .typeEnum => 16
  | .groupIndex => 22
  | .txId => 23
  | .rekeyTo => 32

def ofName? (text : String) : Option TxnField := all.find? (·.name == text)

end TxnField

/-- Values that are the same for all transactions of a group. -/
inductive GlobalField where
  | minTxnFee
  | minBalance
  | maxTxnLife
  | zeroAddress
  | groupSize
  deriving DecidableEq, Repr

namespace GlobalField

def all : List GlobalField := [.minTxnFee, .minBalance, .maxTxnLife, .zeroAddress, .groupSize]

def name : GlobalField → String
  | .minTxnFee => "MinTxnFee"
  | .minBalance => "MinBalance"
  | .maxTxnLife => "MaxTxnLife"
  | .zeroAddress => "ZeroAddress"
  | .groupSize => "GroupSize"

def code : GlobalField → UInt8
  | .minTxnFee => 0
  | .minBalance => 1
  | .maxTxnLife => 2
  | .zeroAddress => 3
  | .groupSize => 4

def ofName? (text : String) : Option GlobalField := all.find? (·.name == text)

end GlobalField

inductive Instruction where
  | operation (op : Operation)
  | bytecblock (constants : List Bytes)
  | intcblock (constants : List UInt64)
  | txn (field : TxnField)
  | global (field : GlobalField)
  | arg (index : UInt8)
  | pushbytes (bytes : Bytes)
  | pushint (n : UInt64)
  deriving DecidableEq, Repr

/-- A byte string after its length. -/
def sized (bytes : Bytes) : Bytes := Varuint.encode bytes.length ++ bytes

/-- The bytecode of an instruction. The first four arguments have instructions of their own. -/
def Instruction.encode : Instruction → Bytes
  | .operation op => [op.code]
  | .bytecblock constants => 0x26 :: Varuint.encode constants.length ++ constants.flatMap sized
  | .intcblock constants =>
    0x20 :: Varuint.encode constants.length ++ constants.flatMap fun n => Varuint.encode n.toNat
  | .txn field => [0x31, field.code]
  | .global field => [0x32, field.code]
  | .arg index => if index < 4 then [0x2d + index] else [0x2c, index]
  | .pushbytes bytes => 0x80 :: sized bytes
  | .pushint n => 0x81 :: Varuint.encode n.toNat

def maxVersion : Nat := 12

structure Program where
  version : Nat
  instructions : List Instruction
  deriving DecidableEq, Repr

def Program.encode (p : Program) : Bytes :=
  Varuint.encode p.version ++ p.instructions.flatMap Instruction.encode

end FalconAccount.Assembly
