import FalconAccount.Digits

/-!
# Byte strings

A byte string is a list of bytes. Strings of a known width are vectors, and `toVector?` is the one way
from a list to a vector. Numbers are written most significant byte first unless a name says otherwise.
-/

namespace FalconAccount

abbrev Bytes := List UInt8

namespace Bytes

/-- The last `width` bytes of `n`, most significant first. -/
def ofNat (width n : Nat) : Bytes :=
  (Digits.ofNat 256 width n).map UInt8.ofNat

/-- The number written by `bs`, most significant byte first. -/
def toNat (bs : Bytes) : Nat :=
  Digits.toNat 256 (bs.map UInt8.toNat)

/-- The number written by `bs`, least significant byte first. -/
def toNatLE : Bytes → Nat
  | [] => 0
  | b :: bs => b.toNat + 256 * toNatLE bs

/-- The UTF-8 bytes of a list of characters. -/
def ofChars (cs : List Char) : Bytes :=
  cs.flatMap String.utf8EncodeChar

def ofString (text : String) : Bytes :=
  ofChars text.toList

/-- The same bytes at a fixed width; `none` if the length differs. -/
def toVector? (n : Nat) (bs : Bytes) : Option (Vector UInt8 n) :=
  if h : bs.length = n then some ⟨bs.toArray, by simpa using h⟩ else none

def allZero (bs : Bytes) : Bool :=
  bs.all (· == 0)

/-- What is left of `bs` after `n` bytes; `none` if there are fewer. -/
def dropExact : Nat → Bytes → Option Bytes
  | 0, bs => some bs
  | _ + 1, [] => none
  | n + 1, _ :: bs => dropExact n bs

@[simp] theorem length_ofNat (width n : Nat) : (ofNat width n).length = width := by
  simp [ofNat]

@[simp] theorem ofChars_nil : ofChars [] = [] := rfl

theorem ofChars_append (cs ds : List Char) : ofChars (cs ++ ds) = ofChars cs ++ ofChars ds := by
  simp [ofChars]

theorem dropExact_eq_some {n : Nat} {bs rest : Bytes} (h : dropExact n bs = some rest) :
    bs = bs.take n ++ rest ∧ bs.length = n + rest.length := by
  induction n generalizing bs with
  | zero => simp_all [dropExact]
  | succ n ih =>
    cases bs with
    | nil => simp [dropExact] at h
    | cons b bs =>
      obtain ⟨h₁, h₂⟩ := ih h
      refine ⟨?_, by simp [h₂]; omega⟩
      simpa using h₁

theorem length_le_of_dropExact {n : Nat} {bs rest : Bytes} (h : dropExact n bs = some rest) :
    rest.length ≤ bs.length := by
  have := (dropExact_eq_some h).2
  omega

end Bytes

end FalconAccount
