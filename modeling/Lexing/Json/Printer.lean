import Lexing.Json

/-!
# Writing JSON

A value is written on one line, or with every item and member on a line of its own, indented by two spaces
for each level. Within a string only the quotation mark, the backslash and control characters below the
space are escaped.
-/

namespace Lexing.Json

/-- What stands between the tokens of a document: in front of an item at some depth, and behind a colon. -/
structure Layout where
  lineStart : Nat → List Char
  afterColon : List Char

namespace Layout

def compact : Layout := { lineStart := fun _ => [], afterColon := [] }

def indented : Layout :=
  { lineStart := fun depth => '\n' :: List.replicate (2 * depth) ' ', afterColon := [' '] }

end Layout

/-- A hexadecimal digit, in lower case. -/
def hexDigit (n : Nat) : Char := n.digitChar

def escapeChar (c : Char) : List Char :=
  if c = '"' then ['\\', '"']
  else if c = '\\' then ['\\', '\\']
  else if c = '\x08' then ['\\', 'b']
  else if c = '\x0c' then ['\\', 'f']
  else if c = '\n' then ['\\', 'n']
  else if c = '\r' then ['\\', 'r']
  else if c = '\t' then ['\\', 't']
  else if c.toNat < 0x20 then
    ['\\', 'u', '0', '0', hexDigit (c.toNat / 16), hexDigit (c.toNat % 16)]
  else [c]

def writeString (s : String) : List Char := '"' :: s.toList.flatMap escapeChar ++ ['"']

def writeInteger : Int → List Char
  | .ofNat n => Decimal.digits n
  | .negSucc n => '-' :: Decimal.digits (n + 1)

mutual

/-- Writes a value that begins at the given depth. -/
def write (layout : Layout) (depth : Nat) : Json → List Char
  | .null => ['n', 'u', 'l', 'l']
  | .bool true => ['t', 'r', 'u', 'e']
  | .bool false => ['f', 'a', 'l', 's', 'e']
  | .integer n => writeInteger n
  | .decimal literal => literal.toList
  | .string s => writeString s
  | .array [] => ['[', ']']
  | .array (item :: items) =>
      '[' :: layout.lineStart (depth + 1) ++ write layout (depth + 1) item ++
        writeItems layout (depth + 1) items ++ layout.lineStart depth ++ [']']
  | .object [] => ['{', '}']
  | .object ((name, value) :: members) =>
      '{' :: layout.lineStart (depth + 1) ++ writeString name ++ ':' :: layout.afterColon ++
        write layout (depth + 1) value ++ writeMembers layout (depth + 1) members ++
        layout.lineStart depth ++ ['}']

/-- Writes the items behind the first one. -/
def writeItems (layout : Layout) (depth : Nat) : List Json → List Char
  | [] => []
  | item :: items =>
      ',' :: layout.lineStart depth ++ write layout depth item ++ writeItems layout depth items

/-- Writes the members behind the first one. -/
def writeMembers (layout : Layout) (depth : Nat) : List (String × Json) → List Char
  | [] => []
  | (name, value) :: members =>
      ',' :: layout.lineStart depth ++ writeString name ++ ':' :: layout.afterColon ++
        write layout depth value ++ writeMembers layout depth members

end

/-- The text of a value on one line. -/
def compress (j : Json) : String := String.ofList (write .compact 0 j)

/-- The text of a value with its items on lines of their own. -/
def pretty (j : Json) : String := String.ofList (write .indented 0 j)

end Lexing.Json
