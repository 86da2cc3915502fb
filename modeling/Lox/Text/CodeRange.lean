/-!
# Ranges of code points

A class of characters is listed as pairs `(first, last)` of code points in ascending order, with
both ends in the class.
-/

namespace Lox.Text

/-- Whether a code point lies in one of the ascending ranges.  The walk stops at the first range
that starts above it. -/
def inRanges : List (Nat × Nat) → Nat → Bool
  | [], _ => false
  | (first, last) :: rest, n => if n < first then false else n ≤ last || inRanges rest n

end Lox.Text
