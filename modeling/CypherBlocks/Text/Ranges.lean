/-!
# Sets of characters as ranges of code points

A table lists inclusive ranges in increasing order.
-/

namespace CypherBlocks.Text

/-- Whether a code point lies in one of the ranges. -/
def inRanges (table : List (Nat × Nat)) (n : Nat) : Bool :=
  table.any fun (first, last) => first ≤ n && n ≤ last

end CypherBlocks.Text
