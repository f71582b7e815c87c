import Lexing.Diagnostic.Snippet
import Lexing.Fault
import Lexing.Text.Utf8

/-!
# Diagnostics

A fault of a scan is explained to a user with a title, a snippet of the text with a caption at the
character in question, and sometimes a note. A fault without a place in the text is explained in brief.
-/

namespace Lexing.Diagnostic

def title : Fault → String
  | .unexpectedCharacter char _ => "unexpected character " ++ Text.quoteChar char
  | .unterminatedString _ => "unterminated string literal"
  | .bufferExhausted capacity => "token too long (buffer holds " ++ toString capacity ++ " characters)"

def caption : Fault → String
  | .unexpectedCharacter _ _ => "not part of any token"
  | .unterminatedString _ => "string starts here"
  | .bufferExhausted _ => ""

def hint? : Fault → Option String
  | .unexpectedCharacter _ _ => none
  | .unterminatedString _ => some "add a closing `\"` before the end of the file"
  | .bufferExhausted capacity =>
      some ("the token buffer holds " ++ toString capacity ++
        " characters; raise --buffer-capacity or drop --no-buffer-growth")

/-- The index of the character that a fault points at, unless its offset is past the end of the text or
inside a character. -/
def pointedIndex? (source : String) (e : Fault) : Option Nat := do
  let offset ← e.offset?
  let (front, _) ← Text.splitAtByte? source.toList offset
  pure front.length

/-- The form without a snippet. -/
def brief (path : String) (e : Fault) : String :=
  let note :=
    match hint? e with
    | some hint => "  = note: " ++ hint ++ "\n"
    | none => ""
  "error: " ++ title e ++ "\n  --> " ++ path ++ "\n" ++ note

/-- The text of a diagnostic. An empty source has no line to show. -/
def render (path source : String) (e : Fault) : String :=
  match pointedIndex? source e with
  | none => brief path e
  | some index =>
      "Error: " ++ title e ++ "\n" ++
        match Text.lineAt? source.toList index with
        | some line => snippet path line index (caption e) (hint? e)
        | none => ""

end Lexing.Diagnostic
