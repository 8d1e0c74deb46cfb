import FalconAccount.Bytes

/-!
# Points of the Edwards curve

The curve is `-x² + y² = 1 + d x² y²` over the field of `2^255 - 19` elements. A compressed point gives
`y`, reduced, and a sign bit that the test does not read. A point with that `y` exists exactly when
`(y² - 1) / (d y² + 1)` is a square; multiplying by the square of the denominator, when their product is
one, which Euler's criterion decides.
-/

namespace FalconAccount.Curve

def fieldSize : Nat := (1 <<< 255) - 19

/-- The curve constant: `-121665 / 121666`. -/
def d : Nat := 0x52036cee2b6ffe738cc740797779e89800700a4d4141d8ab75eb4dca135978a3

def powMod (base exponent m : Nat) : Nat :=
  if exponent = 0 then 1 % m
  else
    let half := powMod (base * base % m) (exponent / 2) m
    if exponent % 2 = 1 then base * half % m else half
termination_by exponent
decreasing_by omega

/-- True when `n` is a square of the field; zero is one. -/
def isSquare (n : Nat) : Bool :=
  n % fieldSize == 0 || powMod n ((fieldSize - 1) / 2) fieldSize == 1

/-- The coordinate that 32 bytes give: the low 255 bits of their little-endian value, reduced. -/
def coordinate (bytes : Bytes) : Nat :=
  Bytes.toNatLE bytes % (1 <<< 255) % fieldSize

/-- The numerator and denominator of `x²` for a given `y`. -/
def squareRatio (y : Nat) : Nat × Nat :=
  ((y * y + (fieldSize - 1)) % fieldSize, (d * (y * y) + 1) % fieldSize)

/-- True when the bytes are a compressed point of the curve. -/
def contains (bytes : Bytes) : Bool :=
  let (numerator, denominator) := squareRatio (coordinate bytes)
  isSquare (numerator * denominator % fieldSize)

theorem d_mul : d * 121666 % fieldSize = fieldSize - 121665 := by decide

end FalconAccount.Curve
