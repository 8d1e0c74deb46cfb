import FalconAccount.Json.Value

/-!
# Reading JSON

The grammar of JSON texts over bytes. Nesting and numbers have no bounds. A call of a reader either
takes a byte or is followed by one that does, so twice the length of the text bounds the depth of the
calls.
-/

namespace FalconAccount.Json

/-- Space, tab, line feed and carriage return. -/
def isSpace (b : UInt8) : Bool := b == 0x20 || b == 0x09 || b == 0x0a || b == 0x0d

def dropSpace (bs : Bytes) : Bytes := bs.dropWhile isSpace

def isDigit (b : UInt8) : Bool := 0x30 ≤ b && b ≤ 0x39

def hexValue? (b : UInt8) : Option Nat :=
  if isDigit b then some (b.toNat - 48)
  else if 0x61 ≤ b && b ≤ 0x66 then some (b.toNat - 87)
  else if 0x41 ≤ b && b ≤ 0x46 then some (b.toNat - 55)
  else none

/-- The byte that a short escape stands for. -/
def shortEscape? (b : UInt8) : Option UInt8 :=
  if b = 0x22 || b = 0x5c || b = 0x2f then some b
  else if b = 0x62 then some 0x08
  else if b = 0x66 then some 0x0c
  else if b = 0x6e then some 0x0a
  else if b = 0x72 then some 0x0d
  else if b = 0x74 then some 0x09
  else none

/-- The UTF-16 unit written by four digits. -/
def unit? (digits : Bytes) : Option Piece := do
  let values ← digits.mapM hexValue?
  some (.unit (Digits.toNat 16 values))

/-- The pieces of a string after its opening quote, and the bytes after its closing one. -/
def stringBody : Bytes → Option (List Piece × Bytes)
  | [] => none
  | 0x22 :: rest => some ([], rest)
  | 0x5c :: 0x75 :: a :: b :: c :: d :: rest => do
    let unit ← unit? [a, b, c, d]
    let (pieces, rest) ← stringBody rest
    some (unit :: pieces, rest)
  | 0x5c :: e :: rest => do
    let b ← shortEscape? e
    let (pieces, rest) ← stringBody rest
    some (.byte b :: pieces, rest)
  | b :: rest =>
    if b < 0x20 || b == 0x5c then none
    else do
      let (pieces, rest) ← stringBody rest
      some (.byte b :: pieces, rest)

/-- The bytes after one digit or more. -/
def dropDigits? (bs : Bytes) : Option Bytes :=
  match bs with
  | b :: rest => if isDigit b then some (rest.dropWhile isDigit) else none
  | [] => none

/-- The digits before the fraction: a zero alone, or digits that start with no zero. -/
def integerPart? (bs : Bytes) : Option (Bytes × Bytes) :=
  match bs with
  | 0x30 :: rest => if (rest.head?.map isDigit).getD false then none else some ([0x30], rest)
  | b :: rest => if isDigit b then some (b :: rest.takeWhile isDigit, rest.dropWhile isDigit) else none
  | [] => none

def dropFraction? : Bytes → Option Bytes
  | 0x2e :: rest => dropDigits? rest
  | bs => some bs

def dropSign : Bytes → Bytes
  | 0x2b :: rest => rest
  | 0x2d :: rest => rest
  | bs => bs

def dropExponent? : Bytes → Option Bytes
  | 0x65 :: rest => dropDigits? (dropSign rest)
  | 0x45 :: rest => dropDigits? (dropSign rest)
  | bs => some bs

/-- True when the bytes after an integer go on with a fraction or an exponent. -/
def continuesNumber : Bytes → Bool
  | b :: _ => b == 0x2e || b == 0x65 || b == 0x45
  | [] => false

/-- The number of digits of the largest 64-bit number. -/
def maxDigits : Nat := 20

def number? (bs : Bytes) : Option (Value × Bytes) := do
  let negative := bs.head? == some 0x2d
  let (digits, rest) ← integerPart? (if negative then bs.drop 1 else bs)
  if negative || maxDigits < digits.length || continuesNumber rest then
    return (.otherNumber, ← dropExponent? (← dropFraction? rest))
  else return (.natural (Digits.toNat 10 (digits.map fun b => b.toNat - 48)), rest)

def dropWord? (word : String) (bs : Bytes) : Option Bytes :=
  (Bytes.ofString word).isPrefixOf? bs

mutual

/-- The value at the front, white space before it dropped. -/
def value? : (fuel : Nat) → Bytes → Option (Value × Bytes)
  | 0, _ => none
  | fuel + 1, bs =>
    match dropSpace bs with
    | 0x22 :: rest => (stringBody rest).map fun (pieces, rest) => (.string pieces, rest)
    | 0x5b :: rest =>
      match dropSpace rest with
      | 0x5d :: rest => some (.array [], rest)
      | _ => (items? fuel rest).map fun (items, rest) => (.array items, rest)
    | 0x7b :: rest =>
      match dropSpace rest with
      | 0x7d :: rest => some (.object [], rest)
      | _ => (entries? fuel rest).map fun (entries, rest) => (.object entries, rest)
    | 0x6e :: rest => (dropWord? "ull" rest).map (Value.null, ·)
    | 0x74 :: rest => (dropWord? "rue" rest).map (Value.bool true, ·)
    | 0x66 :: rest => (dropWord? "alse" rest).map (Value.bool false, ·)
    | bs => number? bs

/-- The items of an array that has some, and the bytes after its closing bracket. -/
def items? : (fuel : Nat) → Bytes → Option (List Value × Bytes)
  | 0, _ => none
  | fuel + 1, bs => do
    let (item, rest) ← value? fuel bs
    match dropSpace rest with
    | 0x2c :: rest => (items? fuel rest).map fun (items, rest) => (item :: items, rest)
    | 0x5d :: rest => some ([item], rest)
    | _ => none

/-- The entries of an object that has some, and the bytes after its closing brace. -/
def entries? : (fuel : Nat) → Bytes → Option (List (List Piece × Value) × Bytes)
  | 0, _ => none
  | fuel + 1, bs =>
    match dropSpace bs with
    | 0x22 :: rest => do
      let (key, rest) ← stringBody rest
      match dropSpace rest with
      | 0x3a :: rest => do
        let (value, rest) ← value? fuel rest
        match dropSpace rest with
        | 0x2c :: rest => (entries? fuel rest).map fun (entries, rest) => ((key, value) :: entries, rest)
        | 0x7d :: rest => some ([(key, value)], rest)
        | _ => none
      | _ => none
    | _ => none

end

/-- The value that makes up the whole text. -/
def parse? (bs : Bytes) : Option Value := do
  let (value, rest) ← value? (2 * bs.length + 2) bs
  if (dropSpace rest).isEmpty then some value else none

end FalconAccount.Json
