import Lexing.Json.Printer
import Lexing.Token

/-!
# Tokens as JSON

A token is a record of its kind, its text and its line, column and offset, in this order. Each of the three
numbers fits into 32 bits.
-/

namespace Lexing

/-- Whether each number of a position is below the bound. -/
def Position.Fits (p : Position) : Prop :=
  p.offset < bound ∧ p.line < bound ∧ p.column < bound

namespace Kind

def toJson (k : Kind) : Json := .string k.name

def ofJson? (j : Json) : Option Kind := j.variant?.bind ofName?

end Kind

namespace Token

def toJson (t : Token) : Json :=
  .object
    [("kind", t.kind.toJson), ("text", .string t.text), ("line", .ofNat t.position.line),
     ("column", .ofNat t.position.column), ("offset", .ofNat t.position.offset)]

def ofJson? (j : Json) : Option Token := do
  match ← j.fields? ["kind", "text", "line", "column", "offset"] with
  | [kind, text, line, column, offset] =>
      let kind ← Kind.ofJson? kind
      let text ← text.string?
      let line ← line.natBelow? Position.bound
      let column ← column.natBelow? Position.bound
      let offset ← offset.natBelow? Position.bound
      pure { kind, text, position := { offset, line, column } }
  | _ => none

end Token

end Lexing
