import Lexing.Position
import Lexing.Text.Escaped
import Lexing.TextBuffer

/-!
# Faults of a scan

A scan stops at the first character that belongs to no token, at a string without a closing quotation mark
and at a token that does not fit into a buffer of fixed capacity. The first two have a position.
-/

namespace Lexing

inductive Fault where
  | unexpectedCharacter (char : Char) (position : Position)
  /-- The position is that of the opening quotation mark. -/
  | unterminatedString (position : Position)
  | bufferExhausted (capacity : Nat)
  deriving DecidableEq, Repr

def TextBuffer.Exhausted.message (e : TextBuffer.Exhausted) : String :=
  "buffer is full (" ++ toString e.capacity ++ " characters) and growth is disabled"

namespace Fault

/-- The fault of a scan whose buffer refused a character. -/
def ofExhausted (e : TextBuffer.Exhausted) : Fault := bufferExhausted e.capacity

def position? : Fault → Option Position
  | unexpectedCharacter _ p => some p
  | unterminatedString p => some p
  | bufferExhausted _ => none

/-- The byte offset that the fault points at. -/
def offset? (e : Fault) : Option Nat := e.position?.map Position.offset

def message : Fault → String
  | unexpectedCharacter char p =>
      "unexpected character " ++ Text.quoteChar char ++ " at line " ++ toString p.line ++
        ", column " ++ toString p.column
  | unterminatedString p =>
      "unterminated string literal starting at line " ++ toString p.line ++
        ", column " ++ toString p.column
  | bufferExhausted capacity =>
      "accumulation buffer exhausted (capacity " ++ toString capacity ++ ", growth disabled)"

end Fault

end Lexing
