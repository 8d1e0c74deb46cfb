import FalconAccount.Transaction

/-!
# Transactions signed by logic

A logic signature is a program and its arguments; it authorises transactions of the account whose
address is the hash of the program. A group on the wire is the concatenation of its signed members.
-/

namespace FalconAccount

/-- A program and the arguments it is evaluated with. -/
structure LogicSig where
  program : Bytes
  args : List Bytes
  deriving DecidableEq

def LogicSig.address (l : LogicSig) : Address := Address.ofProgram l.program

def LogicSig.fields (l : LogicSig) : List (String × Msgpack.Value) :=
  Msgpack.binsField "arg" l.args ++ Msgpack.binField "l" l.program

/-- A transaction with the logic signature that authorises it. -/
structure SignedTransaction where
  txn : Transaction
  lsig : LogicSig
  deriving DecidableEq

namespace SignedTransaction

/-- The identifier of the transaction inside. -/
def id (s : SignedTransaction) : TxId := s.txn.id

def fields (s : SignedTransaction) : List (String × Msgpack.Value) :=
  Msgpack.mapField "lsig" s.lsig.fields ++ Msgpack.mapField "txn" s.txn.fields

def encode (s : SignedTransaction) : Bytes := (Msgpack.Value.map s.fields).encode

end SignedTransaction

/-- A group on the wire, in group order. -/
def encodeGroup (group : List SignedTransaction) : Bytes := group.flatMap SignedTransaction.encode

end FalconAccount
