/-!
# Text.Ranges — sets of characters given by ranges of code points

A property of characters is a list of closed ranges, in increasing order.  Look-up stops at the
first range that lies above the character.
-/

namespace SchemaReview.Text

/-- The code point `n` lies in one of the increasing closed ranges. -/
def inRanges (n : Nat) : List (Nat × Nat) → Bool
  | [] => false
  | (lo, hi) :: rest => if n < lo then false else if n ≤ hi then true else inRanges n rest

end SchemaReview.Text
