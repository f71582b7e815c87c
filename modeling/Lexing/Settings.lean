import Lexing.Position
import Lexing.TextBuffer

/-!
# Settings of a scan
-/

namespace Lexing

structure Settings where
  tracking : LineTracking := .whitespace
  /-- Whether line break tokens are unwanted. -/
  ignoreLineBreaks : Bool := false
  /-- How many characters of a token fit into the buffer at first. -/
  capacity : Nat := TextBuffer.defaultCapacity
  /-- Whether the buffer grows for a longer token, which is a fault otherwise. -/
  growable : Bool := true
  deriving DecidableEq, Repr, Inhabited

/-- Capacities are written as numbers below this bound, `2 ^ 64`. -/
def Settings.capacityBound : Nat := 0x10000000000000000

end Lexing
