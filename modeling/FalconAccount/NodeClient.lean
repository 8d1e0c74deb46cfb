import FalconAccount.Bytes.Base64
import FalconAccount.Http
import FalconAccount.Json.Record
import FalconAccount.Network
import FalconAccount.Request

/-!
# Asking a node over HTTP

Each question to the node is a dialogue of HTTP requests. Waiting for a transaction is one request for
the node's status and then, round by round, a look at the pool and a wait for the next block.
-/

namespace FalconAccount

structure Endpoint where
  url : String
  /-- The access token; empty where none is needed. -/
  token : String
  deriving DecidableEq, Repr

/-- A network without a public node was chosen, and no address of a node was given. -/
structure NoEndpoint where
  network : Network
  deriving DecidableEq, Repr

def NoEndpoint.message (e : NoEndpoint) : String := s!"ALGOD_URL must be set for {e.network.name}"

namespace Endpoint

def tokenHeader : String := "X-Algo-API-Token"

/-- An address without slashes at its end. -/
def trimUrl (url : String) : String :=
  String.ofList (Text.dropEndWhile (· == '/') url.toList)

/-- The endpoint at an address that is not blank, or else the public node of the network. -/
def resolve (network : Network) (url token : Option String) : Except NoEndpoint Endpoint :=
  match (url.filter fun u => ! (Text.trim u.toList).isEmpty).or network.publicNode? with
  | some url => .ok ⟨trimUrl url, token.getD ""⟩
  | none => .error ⟨network⟩

end Endpoint

inductive NodeError where
  | unreachable
  /-- The node refused; `message` is its explanation or the whole body. -/
  | refused (status : Nat) (message : String)
  /-- The body of a success is not what was asked for. -/
  | malformed
  | hashNotBase64
  | hashSize (actual : Nat)
  | programNotBase64
  deriving DecidableEq, Repr

def NodeError.message : NodeError → String
  | .unreachable => "algod unreachable"
  | .refused status message => s!"algod returned {Http.statusText status}: {message}"
  | .malformed => "malformed algod response"
  | .hashNotBase64 => "genesis-hash is not base64"
  | .hashSize actual => s!"genesis-hash has {actual} bytes, expected 32"
  | .programNotBase64 => "compiled program is not base64"

def NodeError.toFault (e : NodeError) : Fault := .plain e.message

abbrev Web : Type → Type := Dialogue Http.Request fun _ => Http.Reply

namespace NodeClient

/-- The explanation in the body of a refusal, or the body itself as text. -/
def refusalText (body : Bytes) : String :=
  let text := Utf8.decodeLossy body
  let explained := do
    let record ← Json.record? ["message"] (← Json.parse? (Bytes.ofChars text))
    record.required "message" Json.string?
  explained.getD (String.ofList text)

/-- What a reply says, its body read by `read`. -/
def interpret {α : Type} (read : Json.Value → Option α) : Http.Reply → Except NodeError α
  | .unreachable => .error .unreachable
  | .answered status body =>
    if Http.isSuccess status then
      match body.bind Json.parse? |>.bind read with
      | some a => .ok a
      | none => .error .malformed
    else .error (.refused status (refusalText (body.getD [])))

/-- Sends a request, with the token if there is one. A token that no header can carry reaches no one. -/
def call {α : Type} (endpoint : Endpoint) (method : Http.Method) (path : String)
    (contentType : Option String) (body : Bytes) (read : Json.Value → Option α) :
    Web (Except NodeError α) :=
  if Http.isHeaderValue endpoint.token then
    let token := if endpoint.token.isEmpty then none else some endpoint.token
    .ask ⟨method, endpoint.url ++ path, token, contentType, body⟩ fun reply =>
      .done (interpret read reply)
  else .done (.error .unreachable)

def get {α : Type} (endpoint : Endpoint) (path : String) (read : Json.Value → Option α) :
    Web (Except NodeError α) :=
  call endpoint .get path none [] read

def post {α : Type} (endpoint : Endpoint) (path contentType : String) (body : Bytes)
    (read : Json.Value → Option α) : Web (Except NodeError α) :=
  call endpoint .post path (some contentType) body read

structure ParamsReply where
  fee : UInt64
  minFee : UInt64
  lastRound : UInt64
  genesisId : String
  /-- The hash in base 64. -/
  genesisHash : String

def readParams (v : Json.Value) : Option ParamsReply := do
  let record ← Json.record? ["fee", "min-fee", "last-round", "genesis-id", "genesis-hash"] v
  some {
    fee := ← record.required "fee" Json.word?
    minFee := ← record.required "min-fee" Json.word?
    lastRound := ← record.required "last-round" Json.word?
    genesisId := ← record.required "genesis-id" Json.string?
    genesisHash := ← record.required "genesis-hash" Json.string? }

/-- The parameters with their hash decoded. -/
def ParamsReply.toParams (r : ParamsReply) : Except NodeError SuggestedParams :=
  match Base64.decode? r.genesisHash.toList with
  | none => .error .hashNotBase64
  | some bytes =>
    match Bytes.toVector? 32 bytes with
    | none => .error (.hashSize bytes.length)
    | some hash => .ok (.ofLastRound r.lastRound r.fee r.minFee r.genesisId hash)

def readText (name : String) (v : Json.Value) : Option String := do
  (← Json.record? [name] v).required name Json.string?

def readRound (v : Json.Value) : Option UInt64 := do
  (← Json.record? ["last-round"] v).required "last-round" Json.word?

structure Pending where
  confirmedRound : Option UInt64
  poolError : String

def readPending (v : Json.Value) : Option Pending := do
  let record ← Json.record? ["confirmed-round", "pool-error"] v
  some {
    confirmedRound := ← record.optional "confirmed-round" none Json.optionalWord?
    poolError := ← record.optional "pool-error" "" Json.string? }

/-- What is decided about a transaction, if anything: a round above zero comes before a pool error. -/
def Pending.decision? (p : Pending) : Option Confirmation :=
  match p.confirmedRound.filter (0 < ·) with
  | some round => some (.confirmed round)
  | none => if p.poolError.isEmpty then none else some (.rejected p.poolError)

def lastRound (endpoint : Endpoint) : Web (Except NodeError UInt64) :=
  get endpoint "/v2/status" readRound

/-- The node's last round once it has passed `round`. -/
def waitForBlockAfter (endpoint : Endpoint) (round : UInt64) : Web (Except NodeError UInt64) :=
  get endpoint s!"/v2/status/wait-for-block-after/{round.toNat}" readRound

def pending (endpoint : Endpoint) (id : String) : Web (Except NodeError Pending) :=
  get endpoint s!"/v2/transactions/pending/{id}" readPending

def params (endpoint : Endpoint) : Web (Except NodeError SuggestedParams) := do
  return (← get endpoint "/v2/transactions/params" readParams).bind ParamsReply.toParams

def compile (endpoint : Endpoint) (source : String) : Web (Except NodeError Bytes) := do
  let reply ← post endpoint "/v2/teal/compile" "text/plain" (Bytes.ofString source) (readText "result")
  return reply.bind fun text =>
    match Base64.decode? text.toList with
    | some bytes => .ok bytes
    | none => .error .programNotBase64

def submit (endpoint : Endpoint) (group : Bytes) : Web (Except NodeError String) :=
  post endpoint "/v2/transactions" "application/x-binary" group (readText "txId")

/-- Looks at the pool and waits for a block, at most `rounds` times, from the round `current` on. A look
that fails decides nothing. -/
def follow (endpoint : Endpoint) (id : String) :
    (rounds : Nat) → (current : UInt64) → Web (Except NodeError Confirmation)
  | 0, _ => .done (.ok .pending)
  | rounds + 1, current => do
    let looked ← pending endpoint id
    match looked.toOption.bind Pending.decision? with
    | some decision => return .ok decision
    | none =>
      match ← waitForBlockAfter endpoint current with
      | .error e => return .error e
      | .ok _ => follow endpoint id rounds (current + 1)

/-- The fate of a transaction within `maxRounds` rounds of the node's last one. Rounds beyond the largest
number are not waited for. -/
def wait (endpoint : Endpoint) (id : String) (maxRounds : UInt64) :
    Web (Except NodeError Confirmation) := do
  match ← lastRound endpoint with
  | .error e => return .error e
  | .ok last =>
    let start := saturatingAdd last 1
    let stop := saturatingAdd start maxRounds
    follow endpoint id (stop.toNat - start.toNat) start

def answer (endpoint : Endpoint) : (c : NodeCall) → Web c.Reply
  | .params => do return (← params endpoint).mapError NodeError.toFault
  | .compile source => do return (← compile endpoint source).mapError NodeError.toFault
  | .submit group => do return (← submit endpoint group).mapError NodeError.toFault
  | .wait id maxRounds => do return (← wait endpoint id maxRounds).mapError NodeError.toFault

end NodeClient

end FalconAccount
