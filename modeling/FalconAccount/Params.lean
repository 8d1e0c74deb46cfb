import FalconAccount.Hash
import FalconAccount.Saturating

/-!
# Suggested parameters

What a node says about the transactions it will accept now: fees, the rounds in which they are valid,
and the network they are for.
-/

namespace FalconAccount

/-- How many rounds a transaction stays valid after the node's last round. -/
def validityWindow : UInt64 := 1000

/-- Parameters for building a transaction. Fees are in microAlgos. -/
structure SuggestedParams where
  feePerByte : UInt64
  minFee : UInt64
  firstValid : UInt64
  lastValid : UInt64
  /-- The name of the network. -/
  genesisId : String
  genesisHash : Digest
  deriving DecidableEq

/-- Parameters valid from the node's last round on for one window. -/
def SuggestedParams.ofLastRound (lastRound feePerByte minFee : UInt64) (genesisId : String)
    (genesisHash : Digest) : SuggestedParams where
  feePerByte := feePerByte
  minFee := minFee
  firstValid := lastRound
  lastValid := saturatingAdd lastRound validityWindow
  genesisId := genesisId
  genesisHash := genesisHash

end FalconAccount
