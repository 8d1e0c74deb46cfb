import FalconAccount.Assembly.Parser
import FalconAccount.GroupReader
import FalconAccount.Request

/-!
# A ledger in memory

A ledger that answers the questions to a node by itself: it keeps a log of the groups it accepted and
the round in which each identifier last arrived, and decides by a fixed rule what becomes of them. Time
passes only while someone waits.
-/

namespace FalconAccount

/-- What becomes of accepted groups. -/
inductive Fate where
  /-- They are committed so many rounds after they arrive. -/
  | confirmAfter (rounds : UInt64)
  | neverConfirm
  /-- They are dropped for a reason. -/
  | poolError (reason : String)
  deriving DecidableEq, Repr

structure Submission where
  bytes : Bytes
  /-- The identifiers of the members, in order. -/
  ids : List TxId
  /-- The round in which the group arrived. -/
  round : UInt64
  deriving DecidableEq

/-- A ledger: how it behaves, and what has happened. -/
structure Ledger where
  genesisId : String
  genesisHash : Digest
  feePerByte : UInt64
  minFee : UInt64
  /-- Why parameters are refused. -/
  paramsRefusal : Option String
  /-- Why groups are refused. -/
  submitRefusal : Option String
  fate : Fate
  round : UInt64
  /-- The accepted groups, latest first. -/
  log : List Submission
  /-- How many groups were offered, accepted or not. -/
  submitCalls : Nat
  /-- The round in which each identifier arrived, by its text, latest first. -/
  arrivals : List (String × UInt64)

namespace Ledger

/-- A test network that commits on the next round. -/
def start : Ledger where
  genesisId := "testnet-v1.0"
  genesisHash := sha512_256 (Bytes.ofString "genesis") (Bytes.ofString "testnet-v1.0")
  feePerByte := 0
  minFee := 1000
  paramsRefusal := none
  submitRefusal := none
  fate := .confirmAfter 1
  round := 1000
  log := []
  submitCalls := 0
  arrivals := []

/-- The accepted groups, oldest first. -/
def submissions (l : Ledger) : List Submission := l.log.reverse

/-- The round in which an identifier last arrived. -/
def arrival? (l : Ledger) (id : String) : Option UInt64 := l.arrivals.lookup id

def params (l : Ledger) : Except Fault SuggestedParams :=
  match l.paramsRefusal with
  | some reason => .error (.plain reason)
  | none => .ok (.ofLastRound l.round l.feePerByte l.minFee l.genesisId l.genesisHash)

def sourceFault (e : Assembly.SourceError) : Fault :=
  match e.chain with
  | [] => .plain ""
  | message :: causes => ⟨message, causes⟩

def compile (source : String) : Except Fault Bytes :=
  (Assembly.assemble source).mapError sourceFault

/-- The group as it would be accepted now. -/
def accept (l : Ledger) (group : Bytes) : Except Fault Submission := do
  if let some reason := l.submitRefusal then throw (.plain reason)
  let ids ← (transactionIds group).mapError (.plain ·.message)
  if ids.isEmpty then throw (.plain "empty transaction group")
  return ⟨group, ids, l.round⟩

def record (l : Ledger) (s : Submission) : Ledger :=
  { l with
    log := s :: l.log
    arrivals := s.ids.reverse.map (fun id => (id.text, s.round)) ++ l.arrivals }

theorem submissions_record (l : Ledger) (s : Submission) :
    (l.record s).submissions = l.submissions ++ [s] := by
  simp [submissions, record]

/-- Offers a group; the answer is the identifier of its first transaction. -/
def submit (l : Ledger) (group : Bytes) : Except Fault String × Ledger :=
  let counted := { l with submitCalls := l.submitCalls + 1 }
  match l.accept group with
  | .error fault => (.error fault, counted)
  | .ok s => (.ok ((s.ids.head?.map TxId.text).getD ""), counted.record s)

/-- The fate of a transaction within `maxRounds` rounds, and the ledger after the rounds that were waited
for. -/
def wait (l : Ledger) (id : String) (maxRounds : UInt64) : Confirmation × Ledger :=
  let last := saturatingAdd l.round maxRounds
  match l.arrival? id with
  | none => (.pending, { l with round := last })
  | some arrived =>
    match l.fate with
    | .confirmAfter rounds =>
      let commit := saturatingAdd arrived rounds
      if commit ≤ last then (.confirmed commit, { l with round := max l.round commit })
      else (.pending, { l with round := last })
    | .neverConfirm => (.pending, { l with round := last })
    | .poolError reason => (.rejected reason, l)

def answer (l : Ledger) : (c : NodeCall) → c.Reply × Ledger
  | .params => (l.params, l)
  | .compile source => (compile source, l)
  | .submit group => l.submit group
  | .wait id maxRounds =>
    let (confirmation, l) := l.wait id maxRounds
    (.ok confirmation, l)

end Ledger

end FalconAccount
