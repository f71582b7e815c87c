/-!
# Sets of characters as ranges of code points

A character class is a list of ranges in ascending order, so that a search may stop at the first range that
begins past the character it looks for.
-/

namespace Lexing.Unicode

/-- Whether a code point lies in one of the ascending ranges. -/
def inRanges (n : Nat) : List (Nat × Nat) → Bool
  | [] => false
  | (first, last) :: ranges => first ≤ n && (n ≤ last || inRanges n ranges)

end Lexing.Unicode
