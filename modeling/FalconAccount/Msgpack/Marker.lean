import FalconAccount.Bytes

/-!
# First bytes of msgpack values

The first byte of a value names its kind and holds small numbers and counts itself. Every byte is a
marker. Kinds that differ only in the width of a length or number share one constructor; the width is
in bytes.
-/

namespace FalconAccount.Msgpack

/-- The kind of value that a first byte announces. -/
inductive Marker where
  | fixPos (n : Nat)
  /-- The number `-n`. -/
  | fixNeg (n : Nat)
  | fixMap (entries : Nat)
  | fixArray (items : Nat)
  | fixStr (size : Nat)
  | null
  | reserved
  | bool (b : Bool)
  | bin (width : Nat)
  | ext (width : Nat)
  | float (width : Nat)
  | uint (width : Nat)
  | int (width : Nat)
  | fixExt (size : Nat)
  | str (width : Nat)
  | array (width : Nat)
  | map (width : Nat)
  deriving DecidableEq, Repr

namespace Marker

/-- The kind announced by a byte from 192 to 223. -/
def ofTag (tag : Nat) : Marker :=
  if tag = 0xc0 then .null
  else if tag = 0xc1 then .reserved
  else if tag ≤ 0xc3 then .bool (tag = 0xc3)
  else if tag ≤ 0xc6 then .bin (1 <<< (tag - 0xc4))
  else if tag ≤ 0xc9 then .ext (1 <<< (tag - 0xc7))
  else if tag ≤ 0xcb then .float (1 <<< (tag - 0xc8))
  else if tag ≤ 0xcf then .uint (1 <<< (tag - 0xcc))
  else if tag ≤ 0xd3 then .int (1 <<< (tag - 0xd0))
  else if tag ≤ 0xd8 then .fixExt (1 <<< (tag - 0xd4))
  else if tag ≤ 0xdb then .str (1 <<< (tag - 0xd9))
  else if tag ≤ 0xdd then .array (1 <<< (tag - 0xdb))
  else .map (1 <<< (tag - 0xdd))

def ofByte (b : UInt8) : Marker :=
  let n := b.toNat
  if n < 0x80 then .fixPos n
  else if n < 0x90 then .fixMap (n - 0x80)
  else if n < 0xa0 then .fixArray (n - 0x90)
  else if n < 0xc0 then .fixStr (n - 0xa0)
  else if n < 0xe0 then ofTag n
  else .fixNeg (256 - n)

/-- The name of a kind in messages; widths are given in bits. -/
def name : Marker → String
  | .fixPos n => s!"FixPos({n})"
  | .fixNeg n => s!"FixNeg(-{n})"
  | .fixMap n => s!"FixMap({n})"
  | .fixArray n => s!"FixArray({n})"
  | .fixStr n => s!"FixStr({n})"
  | .null => "Null"
  | .reserved => "Reserved"
  | .bool b => if b then "True" else "False"
  | .bin w => s!"Bin{8 * w}"
  | .ext w => s!"Ext{8 * w}"
  | .float w => s!"F{8 * w}"
  | .uint w => s!"U{8 * w}"
  | .int w => s!"I{8 * w}"
  | .fixExt n => s!"FixExt{n}"
  | .str w => s!"Str{8 * w}"
  | .array w => s!"Array{8 * w}"
  | .map w => s!"Map{8 * w}"

end Marker

end FalconAccount.Msgpack
