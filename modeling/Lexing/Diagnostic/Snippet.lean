import Lexing.Text.Lines
import Lexing.Text.Decimal
import Lexing.Unicode.WhiteSpace
import Lexing.Unicode.Width

/-!
# Source snippets

A snippet shows one line of a text and points at one of its characters with a caption below. Each character
takes as many columns as a terminal gives it, and a tab as many spaces as bring its index to a multiple of
four.
-/

namespace Lexing.Diagnostic

/-- How the character at an index of its line is shown. -/
def showChar (index : Nat) (c : Char) : List Char :=
  if c = '\t' then List.replicate (4 - index % 4) ' '
  else if Unicode.isWhiteSpace c then [' ']
  else [c]

/-- The columns of the character at an index of its line. -/
def columns (index : Nat) (c : Char) : Nat :=
  if c = '\t' then 4 - index % 4
  else if Unicode.isWhiteSpace c then 1
  else Unicode.width c

/-- A line without the white space at its end. -/
def trimEnd (cs : List Char) : List Char := (cs.reverse.dropWhile Unicode.isWhiteSpace).reverse

/-- The columns of the first `count` places of a line; a place behind its end has one. -/
def places (line : List Char) (count : Nat) : List Nat :=
  (line.mapIdx columns ++ List.replicate (count - line.length) 1).take count

/-- A mark at the front of some columns with a rule through the others; no columns show nothing. -/
def mark (sign : Char) (width : Nat) : List Char := (sign :: List.replicate (width - 1) '─').take width

/-- The row that points at a place from below. -/
def pointerRow (widths : List Nat) (column : Nat) : List Char :=
  (widths.mapIdx fun i width =>
    if i = column then mark '┬' width else List.replicate width ' ').flatten

/-- The row that leads from below a place to a caption on the right. -/
def captionRow (widths : List Nat) (column : Nat) : List Char :=
  (widths.mapIdx fun i width =>
    if i < column then List.replicate width ' '
    else if i = column then mark '╰' width
    else List.replicate width '─').flatten

/-- The blanks to the left of a row without a number, where the snippet shows line `number`. -/
def margin (number : Nat) : String :=
  String.ofList (List.replicate ((toString number).length + 2) ' ')

/-- A row below the line that the snippet shows. -/
def row (number : Nat) (text : String) : String := margin number ++ "│ " ++ text

/-- The row that names the path, the line and the place in it, which is counted from one there. -/
def headerRow (path : String) (number column : Nat) : String :=
  margin number ++ "╭─[" ++ path ++ ":" ++ toString number ++ ":" ++ toString (column + 1) ++ "]"

/-- The row with the line and the two rows below that point at a place in it. -/
def markedRows (line : Text.Line) (column : Nat) (caption : String) : List String :=
  let text := trimEnd line.chars
  let widths := places text (column + 3)
  [" " ++ toString line.number ++ " │ " ++ String.ofList (text.mapIdx showChar).flatten,
    row line.number (String.ofList (pointerRow widths column)),
    row line.number (String.ofList (captionRow widths column) ++ " " ++ caption)]

def noteRows (number : Nat) : Option String → List String
  | some note => [row number "", row number ("Note: " ++ note)]
  | none => []

def footerRow (number : Nat) : String :=
  String.ofList (List.replicate ((toString number).length + 2) '─') ++ "╯"

/-- A snippet that points at the character with index `index`, under a header with the path, the number of
the line and that of the character in it, both counted from one. If the index is past the end of the text
there is nothing to point at. -/
def snippet (path : String) (line : Text.Line) (index : Nat) (caption : String) (note : Option String) :
    String :=
  let column := index - line.start
  let marked :=
    if column < line.chars.length then markedRows line column caption else [row line.number ""]
  Text.ofLines
    ([headerRow path line.number column, margin line.number ++ "│"] ++ marked ++
      noteRows line.number note ++ [footerRow line.number])

end Lexing.Diagnostic
