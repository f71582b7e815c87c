import Lexing.Json.Printer
import Lexing.Settings

/-!
# Settings as JSON

Settings are a record of the line tracking mode, the line break policy, and the capacity of the buffer and
whether it grows. The capacity fits into 64 bits.
-/

namespace Lexing

namespace LineTracking

def ofName? : String → Option LineTracking
  | "Whitespace" => some whitespace
  | "LineBreak" => some lineBreak
  | _ => none

theorem ofName?_name (mode : LineTracking) : ofName? mode.name = some mode := by
  cases mode <;> rfl

def toJson (mode : LineTracking) : Json := .string mode.name

def ofJson? (j : Json) : Option LineTracking := j.variant?.bind ofName?

end LineTracking

namespace Settings

def toJson (s : Settings) : Json :=
  .object
    [("line_tracking", s.tracking.toJson), ("ignore_line_breaks", .bool s.ignoreLineBreaks),
     ("buffer_capacity", .ofNat s.capacity), ("allow_buffer_growth", .bool s.growable)]

def ofJson? (j : Json) : Option Settings := do
  match ← j.fields? ["line_tracking", "ignore_line_breaks", "buffer_capacity", "allow_buffer_growth"] with
  | [tracking, ignoreLineBreaks, capacity, growable] =>
      let tracking ← LineTracking.ofJson? tracking
      let ignoreLineBreaks ← ignoreLineBreaks.bool?
      let capacity ← capacity.natBelow? capacityBound
      let growable ← growable.bool?
      pure { tracking, ignoreLineBreaks, capacity, growable }
  | _ => none

end Settings

end Lexing
