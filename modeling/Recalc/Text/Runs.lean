/-
Recalc/Text/Runs.lean

Sets of code points as sorted boundaries.  A set that holds `a .. b-1`, `c .. d-1`, …
is the array `#[a, b, c, d, …]`, and a code point belongs to it iff the number of
boundaries not above it is odd.  `rank` counts them by bisection.
-/

namespace Recalc.Text

/-- A set of code points, given by the places where membership changes. -/
structure Runs where
  bounds : Array Nat

namespace Runs

/-- The number of boundaries not above `n`, known to lie between `lo` and `hi`. -/
def rankBetween (bounds : Array Nat) (n lo hi : Nat) : Nat :=
  if lo < hi then
    let mid := (lo + hi) / 2
    if bounds.getD mid 0 ≤ n then rankBetween bounds n (mid + 1) hi
    else rankBetween bounds n lo mid
  else lo
termination_by hi - lo

/-- The number of boundaries not above `n`. -/
def rank (r : Runs) (n : Nat) : Nat :=
  rankBetween r.bounds n 0 r.bounds.size

/-- Membership of a code point. -/
def contains (r : Runs) (c : Char) : Bool :=
  r.rank c.toNat % 2 == 1

end Runs

end Recalc.Text
