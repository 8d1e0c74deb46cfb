import FalconAccount.Assembly.Error
import FalconAccount.Assembly.Instruction
import FalconAccount.Text.Blank

/-!
# Reading program sources

A source is read line by line. Two slashes start a comment, and the words that remain are an instruction
and its operands. The first line with words gives the version.
-/

namespace FalconAccount.Assembly

def dropComment : List Char → List Char
  | '/' :: '/' :: _ => []
  | c :: cs => c :: dropComment cs
  | [] => []

def lineWords (line : List Char) : List (List Char) := Text.words (dropComment line)

/-- The digits after the mark of hexadecimal numbers. -/
def hexDigits? : List Char → Option (List Char)
  | '0' :: 'x' :: digits => some digits
  | _ => none

def readBytes (word : List Char) : Except OperandError Bytes :=
  match hexDigits? word with
  | none => .error (.notHex word)
  | some digits => (Hex.decode (Bytes.ofChars digits)).mapError (.badHex word)

/-- A number operand, decimal or hexadecimal. -/
def readInteger (word : List Char) : Except OperandError UInt64 :=
  let number := match hexDigits? word with
    | some digits => Numeral.read 16 digits
    | none => Numeral.read 10 word
  number.mapError (.badInteger word)

/-- The one operand of an instruction. -/
def oneOperand : List (List Char) → Except OperandError (List Char)
  | [word] => .ok word
  | operands => .error (.wrongCount 1 operands.length)

/-- Fails below a version. -/
def requireVersion (needed version : Nat) : Except OperandError Unit :=
  if version < needed then .error (.needsVersion needed version) else .ok ()

def readField {α : Type} (ofName? : String → Option α) (operands : List (List Char)) :
    Except OperandError α := do
  let name ← oneOperand operands
  match ofName? (String.ofList name) with
  | some field => return field
  | none => throw (.unknownField name)

/-- The index operand of an argument. -/
def readArg (operands : List (List Char)) : Except OperandError Instruction := do
  let index ← readInteger (← oneOperand operands)
  if index ≤ 255 then return .arg index.toUInt8 else throw (.argIndex index)

/-- An instruction that pushes one constant. -/
def readPush {α : Type} (read : List Char → Except OperandError α) (build : α → Instruction)
    (version : Nat) (operands : List (List Char)) : Except OperandError Instruction := do
  let word ← oneOperand operands
  requireVersion 3 version
  return build (← read word)

def readInstruction (version : Nat) (name : List Char) (operands : List (List Char)) :
    Except OperandError Instruction :=
  match Operation.ofName? (String.ofList name) with
  | some op => do
    if operands.length ≠ 0 then throw (.wrongCount 0 operands.length)
    requireVersion op.minVersion version
    return .operation op
  | none =>
    match String.ofList name with
    | "bytecblock" => (operands.mapM readBytes).map .bytecblock
    | "intcblock" => (operands.mapM readInteger).map .intcblock
    | "txn" => (readField TxnField.ofName? operands).map .txn
    | "global" => (readField GlobalField.ofName? operands).map .global
    | "arg" => readArg operands
    | "pushbytes" => readPush readBytes .pushbytes version operands
    | "pushint" => readPush readInteger .pushint version operands
    | _ => .error .unknownOpcode

def readVersion (operands : List (List Char)) : Except LineError Nat :=
  match operands with
  | [keyword, word] =>
    if String.ofList keyword = "version" then
      match Numeral.read 10 word with
      | .error cause => .error (.badVersion word cause)
      | .ok version =>
        if version = 0 ∨ maxVersion < version.toNat then .error (.unsupportedVersion version)
        else .ok version.toNat
    else .error .badDirective
  | _ => .error .badDirective

/-- What a line adds to a program. -/
inductive Line where
  | blank
  | version (n : Nat)
  | instruction (i : Instruction)

/-- Reads a line; `version` is the version given by the lines before it. -/
def readLine (version : Option Nat) (line : List Char) : Except LineError Line :=
  match lineWords line with
  | [] => .ok .blank
  | name :: operands =>
    if String.ofList name = "#pragma" then
      match version with
      | some _ => .error .lateVersion
      | none => (readVersion operands).map .version
    else
      match version with
      | none => .error .missingVersion
      | some version =>
        ((readInstruction version name operands).map .instruction).mapError (.badInstruction name)

/-- The instructions of the lines of a source, the first of which has the given number, after lines that
gave `version`; and the version given at the end. -/
def readLines : (number : Nat) → (version : Option Nat) → List (List Char) →
    Except SourceError (Option Nat × List Instruction)
  | _, version, [] => .ok (version, [])
  | number, version, line :: rest => do
    match ← (readLine version line).mapError (.atLine number) with
    | .blank => readLines (number + 1) version rest
    | .version n => readLines (number + 1) (some n) rest
    | .instruction i => do
      let (version, instructions) ← readLines (number + 1) version rest
      return (version, i :: instructions)

def parse (source : List Char) : Except SourceError Program := do
  match ← readLines 1 none (Text.lines source) with
  | (some version, instructions) => return ⟨version, instructions⟩
  | (none, _) => throw .emptyProgram

/-- The bytecode of a source. -/
def assemble (source : String) : Except SourceError Bytes :=
  (parse source.toList).map Program.encode

end FalconAccount.Assembly
