import FalconAccount.Bytes.Hex
import Mathlib.Data.List.Basic

/-!
# Hexadecimal text reads back

The digits of a byte string are sixteen plain characters, each one byte long in UTF-8, and strict
reading of them gives the byte string. Nothing is assumed of its length.
-/

namespace FalconAccount.Hex

variable {n : Nat}

theorem utf8_digit (h : n < 16) :
    String.utf8EncodeChar (digit n) = [UInt8.ofNat (digit n).toNat] ∧
      value? (UInt8.ofNat (digit n).toNat) = some n := by
  revert n
  decide

theorem exists_digit_of_mem_chars {bs : Bytes} {c : Char} (h : c ∈ chars bs) :
    ∃ n < 16, c = digit n := by
  obtain ⟨b, -, hc⟩ := List.mem_flatMap.mp h
  have hb := b.toNat_lt_size
  rw [UInt8.size] at hb
  rcases List.mem_pair.mp hc with rfl | rfl
  · exact ⟨_, by omega, rfl⟩
  · exact ⟨_, by omega, rfl⟩

theorem forall_mem_chars {p : Char → Prop} (h : ∀ n < 16, p (digit n)) (bs : Bytes) :
    ∀ c ∈ chars bs, p c := by
  intro c hc
  obtain ⟨n, hn, rfl⟩ := exists_digit_of_mem_chars hc
  exact h n hn

theorem notMem_chars {c : Char} (h : ∀ n < 16, c ≠ digit n) (bs : Bytes) : c ∉ chars bs :=
  fun hc => forall_mem_chars (p := (c ≠ ·)) h bs c hc rfl

theorem valueAt_digit (h : n < 16) (position : Nat) :
    valueAt position (UInt8.ofNat (digit n).toNat) = .ok n := by
  rw [valueAt, (utf8_digit h).2]

theorem ofChars_ofByte (b : UInt8) :
    Bytes.ofChars (ofByte b) =
      [UInt8.ofNat (digit (b.toNat / 16)).toNat, UInt8.ofNat (digit (b.toNat % 16)).toNat] := by
  have hb := b.toNat_lt_size
  rw [UInt8.size] at hb
  simp only [Bytes.ofChars, ofByte, List.flatMap_cons, List.flatMap_nil,
    (utf8_digit (n := b.toNat / 16) (by omega)).1, (utf8_digit (n := b.toNat % 16) (by omega)).1]
  rfl

theorem ofChars_chars_cons (b : UInt8) (bs : Bytes) :
    Bytes.ofChars (chars (b :: bs)) =
      UInt8.ofNat (digit (b.toNat / 16)).toNat :: UInt8.ofNat (digit (b.toNat % 16)).toNat ::
        Bytes.ofChars (chars bs) := by
  rw [chars, List.flatMap_cons, Bytes.ofChars_append, ofChars_ofByte]
  rfl

@[simp] theorem length_ofChars_chars (bs : Bytes) :
    (Bytes.ofChars (chars bs)).length = 2 * bs.length := by
  induction bs with
  | nil => rfl
  | cons b bs ih =>
    rw [ofChars_chars_cons, List.length_cons, List.length_cons, ih, List.length_cons]
    omega

/-- Two digits make up a byte again, wherever they stand. -/
theorem decodePairs_chars (position : Nat) (bs : Bytes) :
    decodePairs position (Bytes.ofChars (chars bs)) = .ok bs := by
  induction bs generalizing position with
  | nil => rfl
  | cons b bs ih =>
    have hb := b.toNat_lt_size
    rw [UInt8.size] at hb
    have hbyte : b.toNat / 16 * 16 + b.toNat % 16 = b.toNat := by omega
    rw [ofChars_chars_cons, decodePairs, valueAt_digit (by omega), valueAt_digit (by omega), ih]
    change Except.ok (UInt8.ofNat (b.toNat / 16 * 16 + b.toNat % 16) :: bs) = _
    rw [hbyte, UInt8.ofNat_toNat]

theorem decode_chars (bs : Bytes) : decode (Bytes.ofChars (chars bs)) = .ok bs := by
  rw [decode, length_ofChars_chars, if_neg (by omega), decodePairs_chars]

end FalconAccount.Hex
