/-!
# Sets of code points as ranges

A property of characters that a standard lists by ranges is stored as an array of disjoint
inclusive ranges in increasing order, and looked up by bisection.
-/

namespace CodeAudit.Text

/-- A set of code points, given by disjoint inclusive ranges in increasing order. -/
structure RangeSet where
  ranges : Array (Nat × Nat)

namespace RangeSet

/-- Bisection: is `n` in one of the ranges with index in `[lo, hi)`? -/
def search (ranges : Array (Nat × Nat)) (n lo hi : Nat) : Bool :=
  if _h : lo < hi then
    let mid := (lo + hi) / 2
    match ranges[mid]? with
    | none => false
    | some (first, last) =>
      if n < first then search ranges n lo mid
      else if last < n then search ranges n (mid + 1) hi
      else true
  else false
termination_by hi - lo
decreasing_by all_goals omega

/-- Membership of a code point. -/
def contains (s : RangeSet) (n : Nat) : Bool :=
  search s.ranges n 0 s.ranges.size

end RangeSet

end CodeAudit.Text
