import FalconAccount.Text.Utf8

/-!
# JSON values

A value as it stands in a text. Strings are kept in pieces, since a string that nobody reads may hold
half of a surrogate pair or bytes that are no UTF-8; numbers keep their value only where they are plain
natural numbers that are not too long; an object keeps every key, repeated ones too.
-/

namespace FalconAccount.Json

/-- A piece of a string: a byte that stands for itself or a short escape, or a UTF-16 unit. -/
inductive Piece where
  | byte (b : UInt8)
  | unit (code : Nat)
  deriving DecidableEq, Repr

inductive Value where
  | null
  | bool (b : Bool)
  | natural (n : Nat)
  /-- A number with a sign, a fraction or an exponent, or with more than twenty digits. -/
  | otherNumber
  | string (pieces : List Piece)
  | array (items : List Value)
  | object (entries : List (List Piece × Value))

/-- True for the first unit of a surrogate pair. -/
def isLead (code : Nat) : Bool := 0xd800 ≤ code && code < 0xdc00

def isTrail (code : Nat) : Bool := 0xdc00 ≤ code && code < 0xe000

def ofPair (lead trail : Nat) : Char :=
  Char.ofNat (0x10000 + (lead - 0xd800) * 0x400 + (trail - 0xdc00))

/-- The bytes of a string; `none` if a unit is half of a pair and stands alone. -/
def pieceBytes? : List Piece → Option Bytes
  | [] => some []
  | .byte b :: rest => (pieceBytes? rest).map (b :: ·)
  | .unit lead :: .unit trail :: rest =>
    if isLead lead then
      if isTrail trail then
        (pieceBytes? rest).map (String.utf8EncodeChar (ofPair lead trail) ++ ·)
      else none
    else if isTrail lead then none
    else (pieceBytes? (.unit trail :: rest)).map (String.utf8EncodeChar (Char.ofNat lead) ++ ·)
  | .unit code :: rest =>
    if isLead code || isTrail code then none
    else (pieceBytes? rest).map (String.utf8EncodeChar (Char.ofNat code) ++ ·)

def text? (pieces : List Piece) : Option String := do
  let bytes ← pieceBytes? pieces
  match Utf8.decode bytes with
  | .ok cs => some (String.ofList cs)
  | .error _ => none

end FalconAccount.Json
