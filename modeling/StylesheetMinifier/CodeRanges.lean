/-!
# Sets of code points given by ranges

A property of code points is stored as the list of the ranges that have it,
each by its first and its last member.
-/

namespace StylesheetMinifier

/-- The set of code points in some range of the list, bounds included. -/
def inRanges (ranges : List (Nat × Nat)) (code : Nat) : Bool :=
  ranges.any fun range => range.1 ≤ code && code ≤ range.2

end StylesheetMinifier
