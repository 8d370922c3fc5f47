/-!
# Sets of code points as ranges

The classes of characters in this library are kept as lists of ranges in ascending order.
-/

namespace Reckoner.Text

/-- Whether a code point lies in one of the ranges, which are in ascending order. -/
def inRanges : List (Nat × Nat) → Nat → Bool
  | [], _ => false
  | (first, last) :: rest, n =>
    if n < first then false else if n ≤ last then true else inRanges rest n

end Reckoner.Text
