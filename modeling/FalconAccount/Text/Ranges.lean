/-!
# Ranges of code points

A character class is a list of closed ranges of code points, in increasing order.
-/

namespace FalconAccount.Text

/-- Closed ranges of code points, lowest first. -/
abbrev Ranges := List (Nat × Nat)

/-- True when the code point of `c` lies in one of the ranges. The search ends at the first range that
lies above it. -/
def Ranges.contains : Ranges → Char → Bool
  | [], _ => false
  | (first, last) :: rest, c => first ≤ c.toNat && (c.toNat ≤ last || Ranges.contains rest c)

end FalconAccount.Text
