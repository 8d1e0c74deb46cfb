import FalconAccount.Bytes

/-!
# Reading UTF-8

`next` takes one character, or one longest stretch that starts no character, off the front of a byte
string. Strict reading stops at the first such stretch and names it; lenient reading writes one
replacement character for each.
-/

namespace FalconAccount.Utf8

/-- What stands at the front of a byte string. -/
inductive Front where
  /-- A character and the bytes after it. -/
  | char (c : Char) (rest : Bytes)
  /-- `length` bytes that start no character, and the bytes after them. -/
  | invalid (length : Nat) (rest : Bytes)
  /-- The start of a character that the bytes end inside. -/
  | incomplete

def Front.rest : Front → Bytes
  | .char _ rest => rest
  | .invalid _ rest => rest
  | .incomplete => []

def isTail (b : UInt8) : Bool :=
  0x80 ≤ b && b ≤ 0xbf

def tailBits (b : UInt8) : Nat :=
  b.toNat % 64

/-- Bytes that may follow the first byte of a character of three or four bytes: no longer form than
needed, no surrogate, nothing above the last code point. -/
def mayFollow (lead second : UInt8) : Bool :=
  if lead = 0xe0 then 0xa0 ≤ second && second ≤ 0xbf
  else if lead = 0xed then 0x80 ≤ second && second ≤ 0x9f
  else if lead = 0xf0 then 0x90 ≤ second && second ≤ 0xbf
  else if lead = 0xf4 then 0x80 ≤ second && second ≤ 0x8f
  else isTail second

def next2 (lead : UInt8) : Bytes → Front
  | [] => .incomplete
  | b :: rest =>
    if isTail b then .char (Char.ofNat (lead.toNat % 32 * 64 + tailBits b)) rest
    else .invalid 1 (b :: rest)

def next3 (lead : UInt8) : Bytes → Front
  | [] => .incomplete
  | [b] => if mayFollow lead b then .incomplete else .invalid 1 [b]
  | b :: c :: rest =>
    if ! mayFollow lead b then .invalid 1 (b :: c :: rest)
    else if ! isTail c then .invalid 2 (c :: rest)
    else .char (Char.ofNat (lead.toNat % 16 * 4096 + tailBits b * 64 + tailBits c)) rest

def next4 (lead : UInt8) : Bytes → Front
  | [] => .incomplete
  | [b] => if mayFollow lead b then .incomplete else .invalid 1 [b]
  | [b, c] =>
    if ! mayFollow lead b then .invalid 1 [b, c]
    else if ! isTail c then .invalid 2 [c]
    else .incomplete
  | b :: c :: d :: rest =>
    if ! mayFollow lead b then .invalid 1 (b :: c :: d :: rest)
    else if ! isTail c then .invalid 2 (c :: d :: rest)
    else if ! isTail d then .invalid 3 (d :: rest)
    else .char (Char.ofNat
      (lead.toNat % 8 * 262144 + tailBits b * 4096 + tailBits c * 64 + tailBits d)) rest

/-- What stands at the front of a byte string with the first byte `lead`. -/
def next (lead : UInt8) (bs : Bytes) : Front :=
  if lead < 0x80 then .char (Char.ofNat lead.toNat) bs
  else if 0xc2 ≤ lead && lead ≤ 0xdf then next2 lead bs
  else if 0xe0 ≤ lead && lead ≤ 0xef then next3 lead bs
  else if 0xf0 ≤ lead && lead ≤ 0xf4 then next4 lead bs
  else .invalid 1 bs

theorem length_rest_next2 (lead : UInt8) (bs : Bytes) :
    (next2 lead bs).rest.length ≤ bs.length := by
  unfold next2
  (repeat' split) <;> simp [Front.rest]

theorem length_rest_next3 (lead : UInt8) (bs : Bytes) :
    (next3 lead bs).rest.length ≤ bs.length := by
  unfold next3
  (repeat' split) <;> simp [Front.rest]
  omega

theorem length_rest_next4 (lead : UInt8) (bs : Bytes) :
    (next4 lead bs).rest.length ≤ bs.length := by
  unfold next4
  (repeat' split) <;> simp [Front.rest]
  omega

theorem length_rest_next (lead : UInt8) (bs : Bytes) :
    (next lead bs).rest.length ≤ bs.length := by
  unfold next
  (repeat' split)
  · exact Nat.le_refl _
  · exact length_rest_next2 lead bs
  · exact length_rest_next3 lead bs
  · exact length_rest_next4 lead bs
  · exact Nat.le_refl _

/-- A stretch of bytes that is no UTF-8. -/
inductive Fault where
  /-- `length` bytes from `position` on start no character. -/
  | invalid (length position : Nat)
  /-- The bytes end inside the character that starts at `position`. -/
  | incomplete (position : Nat)
  deriving DecidableEq, Repr

def Fault.message : Fault → String
  | .invalid length position => s!"invalid utf-8 sequence of {length} bytes from index {position}"
  | .incomplete position => s!"incomplete utf-8 byte sequence from index {position}"

/-- Reads `bs`, whose first byte stands at `position`. -/
def decodeFrom (position : Nat) : Bytes → Except Fault (List Char)
  | [] => .ok []
  | lead :: bs =>
    have := length_rest_next lead bs
    match h : next lead bs with
    | .char c rest => do
      have : rest.length ≤ bs.length := by simpa [h, Front.rest] using this
      let cs ← decodeFrom (position + c.utf8Size) rest
      return c :: cs
    | .invalid length _ => .error (.invalid length position)
    | .incomplete => .error (.incomplete position)
termination_by bs => bs.length
decreasing_by simp; omega

def decode (bs : Bytes) : Except Fault (List Char) :=
  decodeFrom 0 bs

/-- The characters of `bs`, with a replacement character for each faulty stretch. -/
def decodeLossy : Bytes → List Char
  | [] => []
  | lead :: bs =>
    have := length_rest_next lead bs
    match h : next lead bs with
    | .char c rest =>
      have : rest.length ≤ bs.length := by simpa [h, Front.rest] using this
      c :: decodeLossy rest
    | .invalid _ rest =>
      have : rest.length ≤ bs.length := by simpa [h, Front.rest] using this
      '\ufffd' :: decodeLossy rest
    | .incomplete => ['\ufffd']
termination_by bs => bs.length
decreasing_by all_goals simp; omega

end FalconAccount.Utf8
