/-
# Sets of code points

A property of characters that follows no short rule is given by a table of code point ranges.
-/

namespace ExprFront

/-- A set of code points, listed as ranges of their first and last members. -/
abbrev CodeRanges := List (Nat × Nat)

/-- Whether the code point of `c` lies in one of the ranges. -/
def CodeRanges.contains (ranges : CodeRanges) (c : Char) : Bool :=
  ranges.any fun r => r.1 ≤ c.toNat && c.toNat ≤ r.2

end ExprFront
