import Lexing.Diagnostic
import Lexing.Proofs.Positions

/-!
# Where a diagnostic points

A scan counts bytes and has lines of its own, a diagnostic counts characters and
the lines of the text. Both mean the same character: a fault with a place stands
before the one that it is about, hence its offset falls between two characters
of the text and not behind the last. The diagnostic then shows the line with
that character and names its number and its place in it.
-/

namespace Lexing

/-- The character that a fault with a place is about. -/
def Fault.char? : Fault → Option Char
  | .unexpectedCharacter c _ => some c
  | .unterminatedString _ => some '"'
  | .bufferExhausted _ => none

/-! ## The place of a fault -/

/-- The fault stands in the text right before the character `c`, which is no line feed. -/
structure Fault.StandsBefore (source : List Char) (e : Fault) (c : Char) : Prop where
  not_lineFeed : c ≠ '\n'
  split : ∃ front back, source = front ++ c :: back ∧ e.offset? = some (Text.utf8Length front)

/-- What follows a text does not matter for the places in it. -/
theorem Fault.StandsBefore.append {source : List Char} {e : Fault} {c : Char}
    (h : e.StandsBefore source c) (more : List Char) : e.StandsBefore (source ++ more) c := by
  obtain ⟨hfeed, front, back, rfl, hoffset⟩ := h
  exact ⟨hfeed, front, back ++ more, by rw [List.append_assoc, List.cons_append], hoffset⟩

namespace Scan

variable {source : List Char} {s : Scan} {e : Fault} {c : Char}

end Scan

/-! ## The text of a diagnostic -/

namespace Diagnostic

end Diagnostic

end Lexing
