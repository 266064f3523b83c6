/-! # Ranges of code points

Main definitions:

* `inRanges`: membership in a table of closed ranges.
-/

namespace SqlTree.Text

/-- Whether `n` lies in one of the closed ranges. -/
def inRanges (ranges : List (Nat × Nat)) (n : Nat) : Bool :=
  ranges.any fun r => decide (r.1 ≤ n ∧ n ≤ r.2)

end SqlTree.Text
