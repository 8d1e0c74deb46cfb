import FalconAccount.Bytes

/-!
# SHA-512/256

The truncated variant of SHA-512 with starting words of its own. A message is padded to whole blocks of
128 bytes; each block is spread to eighty words and mixed into eight chaining words; the first four of
them are the digest.
-/

namespace FalconAccount

abbrev Digest := Vector UInt8 32

namespace Sha512

/-- The eight words carried from block to block. -/
structure Chain where
  a : UInt64
  b : UInt64
  c : UInt64
  d : UInt64
  e : UInt64
  f : UInt64
  g : UInt64
  h : UInt64

/-- The round constants: the fractional bits of the cube roots of the first eighty primes. -/
def roundConstants : List UInt64 := [
    0x428a2f98d728ae22, 0x7137449123ef65cd, 0xb5c0fbcfec4d3b2f, 0xe9b5dba58189dbbc,
    0x3956c25bf348b538, 0x59f111f1b605d019, 0x923f82a4af194f9b, 0xab1c5ed5da6d8118,
    0xd807aa98a3030242, 0x12835b0145706fbe, 0x243185be4ee4b28c, 0x550c7dc3d5ffb4e2,
    0x72be5d74f27b896f, 0x80deb1fe3b1696b1, 0x9bdc06a725c71235, 0xc19bf174cf692694,
    0xe49b69c19ef14ad2, 0xefbe4786384f25e3, 0x0fc19dc68b8cd5b5, 0x240ca1cc77ac9c65,
    0x2de92c6f592b0275, 0x4a7484aa6ea6e483, 0x5cb0a9dcbd41fbd4, 0x76f988da831153b5,
    0x983e5152ee66dfab, 0xa831c66d2db43210, 0xb00327c898fb213f, 0xbf597fc7beef0ee4,
    0xc6e00bf33da88fc2, 0xd5a79147930aa725, 0x06ca6351e003826f, 0x142929670a0e6e70,
    0x27b70a8546d22ffc, 0x2e1b21385c26c926, 0x4d2c6dfc5ac42aed, 0x53380d139d95b3df,
    0x650a73548baf63de, 0x766a0abb3c77b2a8, 0x81c2c92e47edaee6, 0x92722c851482353b,
    0xa2bfe8a14cf10364, 0xa81a664bbc423001, 0xc24b8b70d0f89791, 0xc76c51a30654be30,
    0xd192e819d6ef5218, 0xd69906245565a910, 0xf40e35855771202a, 0x106aa07032bbd1b8,
    0x19a4c116b8d2d0c8, 0x1e376c085141ab53, 0x2748774cdf8eeb99, 0x34b0bcb5e19b48a8,
    0x391c0cb3c5c95a63, 0x4ed8aa4ae3418acb, 0x5b9cca4f7763e373, 0x682e6ff3d6b2b8a3,
    0x748f82ee5defb2fc, 0x78a5636f43172f60, 0x84c87814a1f0ab72, 0x8cc702081a6439ec,
    0x90befffa23631e28, 0xa4506cebde82bde9, 0xbef9a3f7b2c67915, 0xc67178f2e372532b,
    0xca273eceea26619c, 0xd186b8c721c0c207, 0xeada7dd6cde0eb1e, 0xf57d4f7fee6ed178,
    0x06f067aa72176fba, 0x0a637dc5a2c898a6, 0x113f9804bef90dae, 0x1b710b35131c471b,
    0x28db77f523047d84, 0x32caab7b40c72493, 0x3c9ebe0a15c9bebc, 0x431d67c49c100d4c,
    0x4cc5d4becb3e42b6, 0x597f299cfc657e2a, 0x5fcb6fab3ad6faec, 0x6c44198c4a475817]

/-- The starting words of the 256-bit variant. -/
def start256 : Chain where
  a := 0x22312194fc2bf72c
  b := 0x9f555fa3c84c64c2
  c := 0x2393b86b6f53b151
  d := 0x963877195940eabd
  e := 0x96283ee2a88effe3
  f := 0xbe5e1e2553863992
  g := 0x2b0199fc2c85b8aa
  h := 0x0eb72ddc81c52ca2

/-- A word turned right by `n` bits. -/
def rotate (x : UInt64) (n : UInt64) : UInt64 :=
  (x >>> n) ||| (x <<< (64 - n))

/-- The next word of the schedule from the words before it, latest first. -/
def nextWord (latest : List UInt64) : UInt64 :=
  let w₂ := latest.getD 1 0
  let w₇ := latest.getD 6 0
  let w₁₅ := latest.getD 14 0
  let w₁₆ := latest.getD 15 0
  (rotate w₂ 19 ^^^ rotate w₂ 61 ^^^ (w₂ >>> 6)) + w₇ +
    (rotate w₁₅ 1 ^^^ rotate w₁₅ 8 ^^^ (w₁₅ >>> 7)) + w₁₆

/-- Adds `n` words to a schedule written latest first. -/
def extend : (n : Nat) → (latest : List UInt64) → List UInt64
  | 0, latest => latest
  | n + 1, latest => extend n (nextWord latest :: latest)

def Chain.round (s : Chain) (constant word : UInt64) : Chain :=
  let sum := rotate s.e 14 ^^^ rotate s.e 18 ^^^ rotate s.e 41
  let choice := (s.e &&& s.f) ^^^ (~~~ s.e &&& s.g)
  let t₁ := s.h + sum + choice + constant + word
  let turned := rotate s.a 28 ^^^ rotate s.a 34 ^^^ rotate s.a 39
  let majority := (s.a &&& s.b) ^^^ (s.a &&& s.c) ^^^ (s.b &&& s.c)
  ⟨t₁ + (turned + majority), s.a, s.b, s.c, s.d + t₁, s.e, s.f, s.g⟩

def Chain.rounds (s : Chain) : (constants words : List UInt64) → Chain
  | constant :: constants, word :: words => (s.round constant word).rounds constants words
  | _, _ => s

/-- Mixes one block of sixteen words into the chaining words. -/
def Chain.mix (s : Chain) (block : List UInt64) : Chain :=
  let t := s.rounds roundConstants (extend 64 block.reverse).reverse
  ⟨s.a + t.a, s.b + t.b, s.c + t.c, s.d + t.d, s.e + t.e, s.f + t.f, s.g + t.g, s.h + t.h⟩

def Chain.absorb (s : Chain) : (n : Nat) → (words : List UInt64) → Chain
  | 0, _ => s
  | n + 1, words => (s.mix (words.take 16)).absorb n (words.drop 16)

/-- The message followed by a set bit, zeros to the end of a block, and its length in bits. -/
def pad (message : Bytes) : Bytes :=
  let size := message.length
  message ++ 0x80 :: List.replicate ((239 - size % 128) % 128) 0 ++ Bytes.ofNat 16 (8 * size)

def pushByte (word : UInt64) (b : UInt8) : UInt64 :=
  (word <<< 8) ||| b.toUInt64

/-- The 64-bit words of a byte string; bytes beyond the last whole word are left out. -/
def words : Bytes → List UInt64
  | b₀ :: b₁ :: b₂ :: b₃ :: b₄ :: b₅ :: b₆ :: b₇ :: rest =>
    [b₀, b₁, b₂, b₃, b₄, b₅, b₆, b₇].foldl pushByte 0 :: words rest
  | _ => []

def chain (message : Bytes) : Chain :=
  let ws := words (pad message)
  start256.absorb (ws.length / 16) ws

def wordBytes (word : UInt64) : Bytes :=
  Bytes.ofNat 8 word.toNat

/-- The first four chaining words as bytes. -/
def digestBytes (s : Chain) : Bytes :=
  wordBytes s.a ++ wordBytes s.b ++ wordBytes s.c ++ wordBytes s.d

theorem length_digestBytes (s : Chain) : (digestBytes s).length = 32 := by
  simp [digestBytes, wordBytes]

end Sha512

/-- The SHA-512/256 digest of `domain` followed by `data`. -/
def sha512_256 (domain data : Bytes) : Digest :=
  let s := Sha512.chain (domain ++ data)
  ⟨(Sha512.digestBytes s).toArray, by simp [Sha512.length_digestBytes]⟩

def Digest.zero : Digest := Vector.replicate 32 0

end FalconAccount
