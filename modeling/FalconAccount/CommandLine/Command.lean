import FalconAccount.CommandLine.Usage
import FalconAccount.Network
import FalconAccount.Text.Numeral
import FalconAccount.TransactionGroup

/-!
# Commands

What can be asked of the program: the address of a key, or a payment. A value that is not given on the
command line may come from the environment, and else is a default.
-/

namespace FalconAccount.CommandLine

structure Payment where
  keyFile : String
  receiver : String
  amount : UInt64
  /-- A flat fee; the node's suggestion if there is none. -/
  fee : Option UInt64
  note : Option String
  network : Network
  nodeUrl : Option String
  nodeToken : Option String
  /-- The signing program. -/
  signer : String
  maxRounds : UInt64
  fillerCount : UInt64
  /-- A bound on the whole payment, in seconds. -/
  timeout : Option UInt64
  deriving DecidableEq, Repr

/-- What the program is asked to do. -/
inductive Command where
  /-- Derives an address, and writes it to a file if one is named. -/
  | address (keyFile : String) (out : Option String)
  | send (payment : Payment)
  deriving DecidableEq, Repr

structure Environment where
  network : Option String
  nodeUrl : Option String
  nodeToken : Option String
  signer : Option String

def defaultSigner : String := "falcon"

/-- A path; it has at least one character. -/
def readPath (text : String) : Option String := if text.isEmpty then none else some text

def readWord (text : String) : Option UInt64 := (Numeral.read 10 text.toList).toOption

def readWordIn (low high : UInt64) (text : String) : Option UInt64 :=
  (readWord text).filter fun n => low ≤ n && n ≤ high

def readNetwork (text : String) : Option Network := (Network.parse text).toOption

/-- What the options of the first command say so far. -/
structure AddressDraft where
  key : Option String
  out : Option String

def addressRules : List (OptionRule AddressDraft) := [
    ⟨"key", some 'k', fun v d => do return { d with key := ← once "key" d.key readPath v }⟩,
    ⟨"out", some 'o', fun v d => do return { d with out := ← once "out" d.out readPath v }⟩]

structure PaymentDraft where
  key : Option String
  receiver : Option String
  amount : Option UInt64
  fee : Option UInt64
  note : Option String
  network : Option Network
  url : Option String
  token : Option String
  signer : Option String
  maxRounds : Option UInt64
  fillers : Option UInt64
  timeout : Option UInt64

def PaymentDraft.empty : PaymentDraft where
  key := none
  receiver := none
  amount := none
  fee := none
  note := none
  network := none
  url := none
  token := none
  signer := none
  maxRounds := none
  fillers := none
  timeout := none

def paymentRules : List (OptionRule PaymentDraft) := [
    ⟨"key", some 'k', fun v d => do return { d with key := ← once "key" d.key readPath v }⟩,
    ⟨"to", none, fun v d => do return { d with receiver := ← once "to" d.receiver some v }⟩,
    ⟨"amount", none, fun v d => do
      return { d with amount := ← once "amount" d.amount (readWordIn 1 (-1)) v }⟩,
    ⟨"fee", none, fun v d => do return { d with fee := ← once "fee" d.fee readWord v }⟩,
    ⟨"note", none, fun v d => do return { d with note := ← once "note" d.note some v }⟩,
    ⟨"network", none, fun v d => do
      return { d with network := ← once "network" d.network readNetwork v }⟩,
    ⟨"algod-url", none, fun v d => do return { d with url := ← once "algod-url" d.url some v }⟩,
    ⟨"algod-token", none, fun v d => do
      return { d with token := ← once "algod-token" d.token some v }⟩,
    ⟨"signer", none, fun v d => do return { d with signer := ← once "signer" d.signer readPath v }⟩,
    ⟨"max-rounds", none, fun v d => do
      return { d with maxRounds := ← once "max-rounds" d.maxRounds (readWordIn 1 validityWindow) v }⟩,
    ⟨"fillers", none, fun v d => do
      return { d with fillers := ← once "fillers" d.fillers readWord v }⟩,
    ⟨"timeout", none, fun v d => do
      return { d with timeout := ← once "timeout" d.timeout readWord v }⟩]

def require {α : Type} (option : String) : Option α → Except UsageError α
  | some a => .ok a
  | none => .error (.missing option)

/-- A field, or the variable of the environment that stands in for it. -/
def orVariable {α : Type} (option : String) (field : Option α) (read : String → Option α) :
    Option String → Except UsageError (Option α)
  | none => .ok field
  | some value =>
    match field with
    | some a => .ok (some a)
    | none => once option none read value

def AddressDraft.command (d : AddressDraft) : Except UsageError Command := do
  return .address (← require "key" d.key) d.out

/-- The command that a draft describes, with the environment filling gaps. -/
def PaymentDraft.command (e : Environment) (d : PaymentDraft) : Except UsageError Command := do
  let network ← orVariable "network" d.network readNetwork e.network
  let url ← orVariable "algod-url" d.url some e.nodeUrl
  let token ← orVariable "algod-token" d.token some e.nodeToken
  let signer ← orVariable "signer" d.signer readPath e.signer
  return .send {
    keyFile := ← require "key" d.key
    receiver := ← require "to" d.receiver
    amount := ← require "amount" d.amount
    fee := d.fee
    note := d.note
    network := network.getD .mainNet
    nodeUrl := url
    nodeToken := token
    signer := signer.getD defaultSigner
    maxRounds := d.maxRounds.getD defaultMaxRounds
    fillerCount := d.fillers.getD defaultFillerCount
    timeout := d.timeout }

/-- Reads letters of short options before a command. -/
def readLeadingLetters : List Char → Except Stop Unit
  | [] => .ok ()
  | c :: cs =>
    if c = 'v' then readLeadingLetters cs
    else if c = 'h' then .error .help
    else if c = 'V' then .error .version
    else .error (.usage (.unknown (String.ofList ['-', c])))

def readLeadingLong (name : String) (value : Option String) : Except Stop Unit :=
  if name = "verbose" || name = "help" || name = "version" then
    match value with
    | some _ => .error (.usage (.unwantedValue name))
    | none =>
      if name = "help" then .error .help
      else if name = "version" then .error .version
      else .ok ()
  else .error (.usage (.unknown (String.join ["--", name])))

def commandNames : List String := ["address", "send", "help"]

/-- Help asked for as a command, about at most one command. -/
def readHelp : List String → Stop
  | [] => .help
  | [name] => if commandNames.contains name then .help else .usage (.unknown name)
  | name :: extra :: _ => .usage (.unknown (if commandNames.contains name then extra else name))

/-- The command that a command line gives. -/
def parse (e : Environment) : List String → Except Stop Command
  | [] => .error (.usage .noCommand)
  | argument :: rest =>
    match Word.ofString argument with
    | .plain name =>
      if name = "address" then do
        let draft ← readOptions addressRules none rest ⟨none, none⟩
        draft.command.mapError .usage
      else if name = "send" then do
        let draft ← readOptions paymentRules none rest .empty
        (draft.command e).mapError .usage
      else if name = "help" then .error (readHelp rest)
      else .error (.usage (.unknown name))
    | .separator => .error (.usage ((rest.head?.map .unknown).getD .noCommand))
    | .long name value => do
      readLeadingLong name value
      parse e rest
    | .short letters => do
      readLeadingLetters letters
      parse e rest

end FalconAccount.CommandLine
