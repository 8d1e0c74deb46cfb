import FalconAccount.Bytes

/-!
# Writing msgpack

Values of the kinds that ledger transactions use, and their encoding. Every number, length and count
takes the shortest header that holds it. Maps are written in the order of their entries.
-/

namespace FalconAccount.Msgpack

inductive Value where
  | uint (n : UInt64)
  | str (text : String)
  | bin (bytes : Bytes)
  | array (items : List Value)
  | map (entries : List (String × Value))

/-- A number after the byte that names its width. -/
def tagged (tag : UInt8) (width n : Nat) : Bytes :=
  tag :: Bytes.ofNat width n

def uintBytes (n : Nat) : Bytes :=
  if n < 128 then [UInt8.ofNat n]
  else if n < UInt8.size then tagged 0xcc 1 n
  else if n < UInt16.size then tagged 0xcd 2 n
  else if n < UInt32.size then tagged 0xce 4 n
  else tagged 0xcf 8 n

def strHeader (size : Nat) : Bytes :=
  if size < 32 then [UInt8.ofNat (0xa0 + size)]
  else if size < UInt8.size then tagged 0xd9 1 size
  else if size < UInt16.size then tagged 0xda 2 size
  else tagged 0xdb 4 size

def binHeader (size : Nat) : Bytes :=
  if size < UInt8.size then tagged 0xc4 1 size
  else if size < UInt16.size then tagged 0xc5 2 size
  else tagged 0xc6 4 size

def arrayHeader (count : Nat) : Bytes :=
  if count < 16 then [UInt8.ofNat (0x90 + count)]
  else if count < UInt16.size then tagged 0xdc 2 count
  else tagged 0xdd 4 count

def mapHeader (count : Nat) : Bytes :=
  if count < 16 then [UInt8.ofNat (0x80 + count)]
  else if count < UInt16.size then tagged 0xde 2 count
  else tagged 0xdf 4 count

def strBytes (text : String) : Bytes :=
  let bytes := Bytes.ofString text
  strHeader bytes.length ++ bytes

def binBytes (bytes : Bytes) : Bytes :=
  binHeader bytes.length ++ bytes

mutual

def Value.encode : Value → Bytes
  | .uint n => uintBytes n.toNat
  | .str text => strBytes text
  | .bin bytes => binBytes bytes
  | .array items => arrayHeader items.length ++ encodeItems items
  | .map entries => mapHeader entries.length ++ encodeEntries entries

def encodeItems : List Value → Bytes
  | [] => []
  | item :: items => item.encode ++ encodeItems items

/-- The encodings of the entries of a map, each key before its value. -/
def encodeEntries : List (String × Value) → Bytes
  | [] => []
  | (key, value) :: entries => strBytes key ++ value.encode ++ encodeEntries entries

end

/-!
Fields of a record are listed in the order of their keys. A field with the default value of its kind
has no entry.
-/

/-- A number, left out when zero. -/
def uintField (key : String) (n : UInt64) : List (String × Value) :=
  if n = 0 then [] else [(key, .uint n)]

/-- A text, left out when empty. -/
def strField (key : String) (text : String) : List (String × Value) :=
  if text.isEmpty then [] else [(key, .str text)]

/-- A byte string, left out when empty. -/
def binField (key : String) (bytes : Bytes) : List (String × Value) :=
  if bytes.isEmpty then [] else [(key, .bin bytes)]

/-- A hash or address, left out when all its bytes are zero. -/
def digestField (key : String) (bytes : Bytes) : List (String × Value) :=
  if Bytes.allZero bytes then [] else [(key, .bin bytes)]

/-- An array of byte strings, left out when it has no item. -/
def binsField (key : String) (items : List Bytes) : List (String × Value) :=
  if items.isEmpty then [] else [(key, .array (items.map .bin))]

/-- A nested record, left out when it has no entry. -/
def mapField (key : String) (entries : List (String × Value)) : List (String × Value) :=
  if entries.isEmpty then [] else [(key, .map entries)]

end FalconAccount.Msgpack
