import FalconAccount.Address
import FalconAccount.Params
import FalconAccount.Msgpack.Value

/-!
# Payment transactions

A payment, the record under which the ledger stores it, and its identifier: the hash of the record's
canonical encoding. Fields with default values are not part of the record.
-/

namespace FalconAccount

/-- The hash that identifies a transaction, and the message that a logic program verifies. -/
structure TxId where
  digest : Digest
  deriving DecidableEq

def TxId.text (id : TxId) : String := Base32.encode id.digest.toList

def TxId.describe (id : TxId) : String := s!"TxId({id.text})"

/-- The hash that binds transactions into one atomic group. -/
structure GroupId where
  digest : Digest
  deriving DecidableEq

def GroupId.isZero (id : GroupId) : Bool := id.digest == Digest.zero

def paymentType : String := "pay"

/-- A payment. Amounts and fees are in microAlgos. -/
structure Transaction where
  sender : Address
  receiver : Address
  amount : UInt64
  fee : UInt64
  firstValid : UInt64
  lastValid : UInt64
  genesisId : String
  genesisHash : Digest
  note : Bytes
  /-- The group that the payment belongs to. -/
  group : Option GroupId
  deriving DecidableEq

namespace Transaction

/-- A payment without fee or group, valid as `params` says. -/
def payment (sender receiver : Address) (amount : UInt64) (note : Bytes) (params : SuggestedParams) :
    Transaction where
  sender := sender
  receiver := receiver
  amount := amount
  fee := 0
  firstValid := params.firstValid
  lastValid := params.lastValid
  genesisId := params.genesisId
  genesisHash := params.genesisHash
  note := note
  group := none

def withFee (t : Transaction) (fee : UInt64) : Transaction := { t with fee := fee }

def withGroup (t : Transaction) (id : GroupId) : Transaction := { t with group := some id }

def withoutGroup (t : Transaction) : Transaction := { t with group := none }

def groupField (group : Option GroupId) : List (String × Msgpack.Value) :=
  match group with
  | none => []
  | some id => Msgpack.digestField "grp" id.digest.toList

/-- The record, its entries in the order of their keys. -/
def fields (t : Transaction) : List (String × Msgpack.Value) :=
  Msgpack.uintField "amt" t.amount ++
  Msgpack.uintField "fee" t.fee ++
  Msgpack.uintField "fv" t.firstValid ++
  Msgpack.strField "gen" t.genesisId ++
  Msgpack.digestField "gh" t.genesisHash.toList ++
  groupField t.group ++
  Msgpack.uintField "lv" t.lastValid ++
  Msgpack.binField "note" t.note ++
  Msgpack.digestField "rcv" t.receiver.toList ++
  Msgpack.digestField "snd" t.sender.toList ++
  Msgpack.strField "type" paymentType

def encode (t : Transaction) : Bytes :=
  (Msgpack.Value.map t.fields).encode

def idOfEncoding (encoding : Bytes) : TxId :=
  ⟨sha512_256 (Bytes.ofString "TX") encoding⟩

def id (t : Transaction) : TxId := idOfEncoding t.encode

/-- Bytes that a 64-byte signature adds: a map header, two keys, and the signature with its header. -/
def signatureOverhead : Nat := 1 + 4 + 2 + 64 + 4

/-- The size on which the node charges per-byte fees. -/
def signedSize (t : Transaction) : Nat := t.encode.length + signatureOverhead

end Transaction

/-- A transaction group cannot have this number of members. -/
inductive EncodingError where
  | groupSize (size : UInt64)
  deriving DecidableEq, Repr

def maxGroupSize : Nat := 16

def EncodingError.message : EncodingError → String
  | .groupSize size => s!"transaction group size {size.toNat} is outside 1..={maxGroupSize}"

/-- The record that a group identifier hashes: the identifiers of the members outside any group. -/
def GroupId.fields (transactions : List Transaction) : List (String × Msgpack.Value) :=
  Msgpack.binsField "txlist" (transactions.map (·.withoutGroup.id.digest.toList))

/-- The identifier of an ordered list of transactions. Group stamps on them have no effect. -/
def GroupId.ofTransactions (transactions : List Transaction) : Except EncodingError GroupId :=
  if transactions.isEmpty || maxGroupSize < transactions.length then
    .error (.groupSize (UInt64.ofNat transactions.length))
  else
    .ok ⟨sha512_256 (Bytes.ofString "TG") (Msgpack.Value.map (GroupId.fields transactions)).encode⟩

end FalconAccount
