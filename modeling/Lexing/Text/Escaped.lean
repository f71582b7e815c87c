import Lexing.Unicode.Extending
import Lexing.Unicode.Printable

/-!
# Escaped text

Text is shown to a reader so that every character can be told: line ends and tabs by a letter, a backslash
and the quotation marks of the style by a backslash in front, and what cannot be seen by its code point in
hexadecimal digits, as in `\u{1f}`. Which characters cannot be seen is a parameter.
-/

namespace Lexing.Text

/-- The character classes that escaping depends on. -/
structure CharClasses where
  printable : Char → Bool
  extending : Char → Bool

/-- The classes of the Unicode tables. -/
def CharClasses.unicode : CharClasses :=
  { printable := Unicode.isPrintable, extending := Unicode.isExtending }

/-- Which quotation marks are escaped, and whether an extending character is escaped everywhere or only in
front, where it has nothing to extend. -/
structure EscapeStyle where
  quotes : List Char
  extendingEverywhere : Bool

namespace EscapeStyle

/-- For a character between single quotation marks. -/
def character : EscapeStyle := { quotes := ['\''], extendingEverywhere := true }

/-- For a text between double quotation marks. -/
def quoted : EscapeStyle := { quotes := ['"'], extendingEverywhere := true }

/-- For a text that stands alone. -/
def bare : EscapeStyle := { quotes := ['\'', '"'], extendingEverywhere := false }

end EscapeStyle

/-- A character by its code point. -/
def escapeCodePoint (c : Char) : List Char :=
  ['\\', 'u', '{'] ++ Nat.toDigits 16 c.toNat ++ ['}']

/-- One character, where `escapeExtending` says whether an extending one must not be shown as it is. -/
def escapeChar (classes : CharClasses) (quotes : List Char) (escapeExtending : Bool) (c : Char) :
    List Char :=
  if c = '\x00' then ['\\', '0']
  else if c = '\t' then ['\\', 't']
  else if c = '\n' then ['\\', 'n']
  else if c = '\r' then ['\\', 'r']
  else if c = '\\' || quotes.contains c then ['\\', c]
  else if escapeExtending && classes.extending c || !classes.printable c then escapeCodePoint c
  else [c]

/-- Escapes a text. -/
def escapeWith (classes : CharClasses) (style : EscapeStyle) : List Char → List Char
  | [] => []
  | c :: cs =>
      escapeChar classes style.quotes true c ++
        cs.flatMap (escapeChar classes style.quotes style.extendingEverywhere)

/-- Escapes a text by the Unicode tables. -/
def escape (style : EscapeStyle) (s : String) : String :=
  String.ofList (escapeWith .unicode style s.toList)

/-- A character between single quotation marks. -/
def quoteChar (c : Char) : String := "'" ++ escape .character (String.singleton c) ++ "'"

/-- A text between double quotation marks. -/
def quote (s : String) : String := "\"" ++ escape .quoted s ++ "\""

end Lexing.Text
