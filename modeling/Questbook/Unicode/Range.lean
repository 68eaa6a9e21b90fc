/-
Questbook.Unicode.Range — membership in a set of code points given as ranges.
-/

namespace Questbook.Unicode

/-- The code point lies in one of the ranges, ends included. -/
def inRanges (ranges : List (Nat × Nat)) (n : Nat) : Bool :=
  ranges.any fun range => range.1 ≤ n && n ≤ range.2

end Questbook.Unicode
