import FalconAccount.Json.Record
import FalconAccount.Json.Writer
import FalconAccount.Params

/-!
# Suggested parameters in JSON

A record with the hash as an array of numbers.
-/

namespace FalconAccount.SuggestedParams

def jsonNames : List String :=
  ["fee_per_byte", "min_fee", "first_valid", "last_valid", "genesis_id", "genesis_hash"]

def digest? : Json.Value → Option Digest
  | .array items => do Bytes.toVector? 32 (← items.mapM Json.byte?)
  | _ => none

def ofJson? (text : String) : Option SuggestedParams := do
  let record ← Json.record? jsonNames (← Json.parse? (Bytes.ofString text))
  let feePerByte ← record.required "fee_per_byte" Json.word?
  let minFee ← record.required "min_fee" Json.word?
  let firstValid ← record.required "first_valid" Json.word?
  let lastValid ← record.required "last_valid" Json.word?
  let genesisId ← record.required "genesis_id" Json.string?
  let genesisHash ← record.required "genesis_hash" digest?
  some ⟨feePerByte, minFee, firstValid, lastValid, genesisId, genesisHash⟩

def toJson (p : SuggestedParams) : String :=
  Json.writeObject [
    ("fee_per_byte", toString p.feePerByte.toNat),
    ("min_fee", toString p.minFee.toNat),
    ("first_valid", toString p.firstValid.toNat),
    ("last_valid", toString p.lastValid.toNat),
    ("genesis_id", Json.writeString p.genesisId),
    ("genesis_hash", Json.writeArray (p.genesisHash.toList.map fun b => toString b.toNat))]

end FalconAccount.SuggestedParams
