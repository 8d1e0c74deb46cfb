import FalconAccount.Msgpack.Reader
import FalconAccount.Transaction

/-!
# Reading a group off the wire

A group is read member by member. Each is a map; the value of its key `txn` is hashed as it stands, and
the other values are skipped.
-/

namespace FalconAccount

inductive GroupReadError where
  | malformed (cause : Msgpack.ReadError)
  /-- The member that starts at `position` has no transaction. -/
  | noTransaction (position : Nat)
  | tooMany
  deriving DecidableEq, Repr

def GroupReadError.message : GroupReadError → String
  | .malformed cause => cause.message
  | .noTransaction position => s!"signed transaction at byte {position} has no txn"
  | .tooMany => s!"group holds more than {maxGroupSize} transactions"

namespace GroupReader

/-- A stretch of bytes, given by the bytes from its start on and the bytes after it. -/
structure Stretch where
  start : Bytes
  after : Bytes

def Stretch.bytes (s : Stretch) : Bytes :=
  s.start.take (s.start.length - s.after.length)

/-- Reads `n` map entries. The value of the last key `txn` is kept; `found` is the one so far. -/
def readEntries : (n : Nat) → (found : Option Stretch) → Bytes →
    Except Msgpack.ReadError (Option Stretch × Bytes)
  | 0, found, bs => .ok (found, bs)
  | n + 1, found, bs => do
    let (key, value) ← Msgpack.readKey bs
    let rest ← Msgpack.skipValue value
    readEntries n (if key = Bytes.ofString "txn" then some ⟨value, rest⟩ else found) rest

/-- Reads the map at the front: the value of its key `txn`, and the bytes after the map. -/
def readMember (bs : Bytes) : Except Msgpack.ReadError (Option Stretch × Bytes) := do
  let (count, rest) ← Msgpack.readMapHeader bs
  readEntries count none rest

/-- Reads members until the bytes end, at most `room` of them; the first starts at `position`. -/
def readMembers : (room position : Nat) → Bytes → Except GroupReadError (List TxId)
  | _, _, [] => .ok []
  | 0, _, _ => .error .tooMany
  | room + 1, position, bs =>
    match readMember bs with
    | .error cause => .error (.malformed cause)
    | .ok (none, _) => .error (.noTransaction position)
    | .ok (some body, rest) => do
      let ids ← readMembers room (position + (bs.length - rest.length)) rest
      return Transaction.idOfEncoding body.bytes :: ids

end GroupReader

/-- The identifiers of the transactions of a group, in group order. -/
def transactionIds (group : Bytes) : Except GroupReadError (List TxId) :=
  GroupReader.readMembers maxGroupSize 0 group

end FalconAccount
