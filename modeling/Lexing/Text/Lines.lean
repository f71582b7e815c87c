/-!
# Lines of a text

A line ends after a line feed, a carriage return or the pair of both, after a vertical tab, a form feed or a
next line character, or after a line or paragraph separator. The terminator belongs to its line, so that the
lines put together are the text, and no line follows a terminator at the end.
-/

namespace Lexing.Text

/-- The characters that end a line. -/
def isLineEnd (c : Char) : Bool :=
  c = '\n' || c = '\r' || c = '\x0b' || c = '\x0c' || c = '\u0085' || c = '\u2028' || c = '\u2029'

/-- The lines of a text, each with its terminator. -/
def lines : List Char → List (List Char)
  | [] => []
  | '\r' :: '\n' :: cs => ['\r', '\n'] :: lines cs
  | c :: cs =>
      if isLineEnd c then [c] :: lines cs
      else
        match lines cs with
        | [] => [[c]]
        | line :: rest => (c :: line) :: rest

/-- A line of a text: which one it is, counted from one, how many characters precede it, and its own. -/
structure Line where
  number : Nat
  start : Nat
  chars : List Char
  deriving DecidableEq, Repr

/-- The last line that begins at or before the character with the given index, where the first of the given
lines has number `number` and begins at index `start`. -/
def lineAtFrom (number start index : Nat) : List (List Char) → Option Line
  | [] => none
  | [chars] => some { number, start, chars }
  | chars :: line :: rest =>
      if index < start + chars.length then some { number, start, chars }
      else lineAtFrom (number + 1) (start + chars.length) index (line :: rest)

/-- The line of the character with the given index; the last line if the index is past the end. A text
without characters has no lines. -/
def lineAt? (cs : List Char) (index : Nat) : Option Line := lineAtFrom 1 0 index (lines cs)

namespace Line.Holds

variable {cs : List Char} {index : Nat} {line : Line}

end Line.Holds

/-- The text of the given lines, each ended by a line feed. -/
def ofLines (lines : List String) : String := String.join (lines.map (· ++ "\n"))

end Lexing.Text
