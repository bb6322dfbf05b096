/-!
# Character classes

A class of characters is given by the inclusive ranges of its code points.
-/

namespace Listing.Text

/-- Whether one of the inclusive ranges of code points holds the character. -/
def inRanges (ranges : List (Nat × Nat)) (c : Char) : Bool :=
  ranges.any fun range => decide (range.1 ≤ c.toNat) && decide (c.toNat ≤ range.2)

end Listing.Text
