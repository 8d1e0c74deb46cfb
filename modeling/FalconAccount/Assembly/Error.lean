import FalconAccount.Bytes.Hex
import FalconAccount.Text.Numeral
import FalconAccount.Text.Quoted

/-!
# Errors in program sources

What is wrong with an instruction, with a line, and with a source. Each error is told by a chain of
texts, the place first and the cause last.
-/

namespace FalconAccount.Assembly

inductive OperandError where
  | wrongCount (expected actual : Nat)
  | needsVersion (needed actual : Nat)
  | unknownField (name : List Char)
  | argIndex (index : UInt64)
  | unknownOpcode
  /-- A byte string that does not start as hexadecimal digits do. -/
  | notHex (word : List Char)
  | badHex (word : List Char) (cause : HexError)
  | badInteger (word : List Char) (cause : NumeralError)
  deriving DecidableEq, Repr

def OperandError.chain : OperandError → List String
  | .wrongCount expected actual => [s!"expected {expected} immediate(s), got {actual}"]
  | .needsVersion needed actual => [s!"needs program version {needed}, have {actual}"]
  | .unknownField name => [s!"unknown field {String.ofList name}"]
  | .argIndex index => [s!"arg index {index.toNat} out of range"]
  | .unknownOpcode => ["unknown opcode"]
  | .notHex word => [s!"byte constant {Text.quote word} must be 0x-prefixed hex"]
  | .badHex word cause => [s!"bad hex constant {Text.quote word}", cause.message]
  | .badInteger word cause => [s!"bad integer {Text.quote word}", cause.message]

inductive LineError where
  /-- A version after the first line of the program. -/
  | lateVersion
  /-- A directive that is no version directive. -/
  | badDirective
  | badVersion (word : List Char) (cause : NumeralError)
  | unsupportedVersion (version : UInt64)
  | missingVersion
  | badInstruction (name : List Char) (cause : OperandError)
  deriving DecidableEq, Repr

/-- The texts of a line error, without the number of the line. -/
def LineError.chain : LineError → List String
  | .lateVersion => ["#pragma version must come first"]
  | .badDirective => ["expected #pragma version N"]
  | .badVersion word cause => [s!"bad version {Text.quote word}", cause.message]
  | .unsupportedVersion version => [s!"unsupported version {version.toNat}"]
  | .missingVersion => ["missing #pragma version"]
  | .badInstruction name cause => String.ofList name :: cause.chain

inductive SourceError where
  | emptyProgram
  | atLine (number : Nat) (cause : LineError)
  deriving DecidableEq, Repr

/-- The texts of a source error; the first one names the line. -/
def SourceError.chain : SourceError → List String
  | .emptyProgram => ["empty program"]
  | .atLine number cause =>
    match cause.chain with
    | [] => []
    | first :: rest => s!"line {number}: {first}" :: rest

end FalconAccount.Assembly
