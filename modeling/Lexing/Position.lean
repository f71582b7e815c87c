import Lexing.Text.Utf8

/-!
# Positions in a text

A position says where the next character stands: how many bytes precede it, and its line and column, all
counted from zero. Which characters start a new line depends on the line tracking mode; in both modes a
line break token does, by `Position.startLineAfter`.
-/

namespace Lexing

/-- The blanks that may separate tokens. A line feed is no blank: it is a token. -/
def isBlank (c : Char) : Bool := c = ' ' || c = '\t' || c = '\r'

/-- What starts a new line besides a line break token. -/
inductive LineTracking where
  /-- Every blank starts a new line. -/
  | whitespace
  /-- Nothing else does. -/
  | lineBreak
  deriving DecidableEq, Repr, Inhabited

namespace LineTracking

def name : LineTracking → String
  | whitespace => "Whitespace"
  | lineBreak => "LineBreak"

/-- The mode that a command line names. -/
def ofSpelling? : String → Option LineTracking
  | "whitespace" => some whitespace
  | "line-break" => some lineBreak
  | "linebreak" => some lineBreak
  | _ => none

/-- Whether reading `c` starts a new line. -/
def breaksAt (mode : LineTracking) (c : Char) : Bool := mode = whitespace && isBlank c

end LineTracking

structure Position where
  offset : Nat := 0
  line : Nat := 0
  column : Nat := 0
  deriving DecidableEq, Repr, Inhabited

namespace Position

/-- Lines, columns and offsets are below this bound, `2 ^ 32`. -/
def bound : Nat := 0x100000000

/-- The position after a character. -/
def advance (mode : LineTracking) (p : Position) (c : Char) : Position :=
  if mode.breaksAt c then
    { offset := p.offset + c.utf8Size, line := p.line + 1, column := 0 }
  else
    { offset := p.offset + c.utf8Size, line := p.line, column := p.column + 1 }

/-- The position after a run of characters. -/
def advanceOver (mode : LineTracking) (p : Position) (cs : List Char) : Position :=
  cs.foldl (advance mode) p

/-- Moves to the start of the line that follows `line`. -/
def startLineAfter (p : Position) (line : Nat) : Position :=
  { p with line := line + 1, column := 0 }

@[simp] theorem offset_advance (mode : LineTracking) (p : Position) (c : Char) :
    (p.advance mode c).offset = p.offset + c.utf8Size := by
  unfold advance; split <;> rfl

@[simp] theorem advanceOver_nil (mode : LineTracking) (p : Position) :
    p.advanceOver mode [] = p := rfl

@[simp] theorem advanceOver_cons (mode : LineTracking) (p : Position) (c : Char) (cs : List Char) :
    p.advanceOver mode (c :: cs) = (p.advance mode c).advanceOver mode cs := rfl

@[simp] theorem advanceOver_append (mode : LineTracking) (p : Position) (cs ds : List Char) :
    p.advanceOver mode (cs ++ ds) = (p.advanceOver mode cs).advanceOver mode ds :=
  List.foldl_append

@[simp] theorem offset_advanceOver (mode : LineTracking) (p : Position) (cs : List Char) :
    (p.advanceOver mode cs).offset = p.offset + Text.utf8Length cs := by
  induction cs generalizing p with
  | nil => rfl
  | cons c cs ih => simp only [advanceOver_cons, ih, offset_advance, Text.utf8Length_cons]; omega

@[simp] theorem offset_startLineAfter (p : Position) (line : Nat) :
    (p.startLineAfter line).offset = p.offset := rfl

end Position

end Lexing
