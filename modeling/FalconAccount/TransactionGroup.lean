import FalconAccount.ControlProgram
import FalconAccount.Network
import FalconAccount.ProtocolError

/-!
# Building a group

A payment travels with filler transactions that lend it their share of the program size, and pays their
fees. All members carry the identifier of the group.
-/

namespace FalconAccount

/-- How the payment's own fee is chosen. -/
inductive FeeMode where
  /-- The node's rate for every byte, but at least the minimum fee. -/
  | suggested
  | flat (fee : UInt64)
  deriving DecidableEq, Repr

def defaultFillerCount : UInt64 := 3

def defaultMaxRounds : UInt64 := 9

/-- The payment's own fee. Its size is taken with the rate per byte in the place of the fee. -/
def ownFee (params : SuggestedParams) (mode : FeeMode) (payment : Transaction) : UInt64 :=
  match mode with
  | .flat fee => fee
  | .suggested =>
    let size := (payment.withFee params.feePerByte).signedSize
    max (saturatingMul params.feePerByte (UInt64.ofNat size)) params.minFee

def groupFee (params : SuggestedParams) (mode : FeeMode) (fillerCount : UInt64)
    (payment : Transaction) : UInt64 :=
  saturatingAdd (ownFee params mode payment)
    (saturatingMul fillerCount params.minFee)

/-- A payment and its fillers, all stamped with one group identifier. -/
structure TransactionGroup where
  payment : Transaction
  fillers : List Transaction
  id : GroupId
  deriving DecidableEq

namespace TransactionGroup

/-- All members in commit order. -/
def transactions (g : TransactionGroup) : List Transaction := g.payment :: g.fillers

/-- The filler with number `index`: a payment of nothing from the filler account to itself, with the
number as its note. -/
def filler (params : SuggestedParams) (index : Nat) : Transaction :=
  Transaction.payment Filler.address Filler.address 0 [UInt8.ofNat index] params

def fillersOf (params : SuggestedParams) (count : Nat) : List Transaction :=
  (List.range count).map (filler params)

def sizeWith (fillerCount : UInt64) : Except Failure UInt64 :=
  match checkedAdd fillerCount 1 with
  | some size => .ok size
  | none => .error .overflow

/-- Builds the group for a payment. -/
def build (params : SuggestedParams) (mode : FeeMode) (fillerCount : UInt64)
    (sender receiver : Address) (amount : UInt64) (note : Bytes) :
    Except Failure TransactionGroup := do
  if amount = 0 then throw (.error .invalidAmount)
  let size ← sizeWith fillerCount
  if maxGroupSize < size.toNat then throw (.error (.encoding (.groupSize size)))
  let draft := Transaction.payment sender receiver amount note params
  let payment := draft.withFee (groupFee params mode fillerCount draft)
  let fillers := fillersOf params fillerCount.toNat
  let id ← (GroupId.ofTransactions (payment :: fillers)).mapError fun e => .error (.encoding e)
  return ⟨payment.withGroup id, fillers.map (·.withGroup id), id⟩

end TransactionGroup

/-- Fails unless a node with these parameters may serve the network. -/
def checkNetwork (network : Network) (params : SuggestedParams) : Except ProtocolError Unit :=
  match network.genesisId? with
  | none => .ok ()
  | some expected =>
    if expected = params.genesisId then .ok ()
    else .error (.networkMismatch expected params.genesisId)

end FalconAccount
