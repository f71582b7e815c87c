/-!
# Kinds of tokens

A punctuation kind is one fixed character, `Kind.symbol?`; the text of any other kind varies. Not every kind
comes out of a scan: `Kind.ofSymbol?` leaves out the dot and the comma, and no token is `float` or
`undefined`.
-/

namespace Lexing

inductive Kind where
  | undefined
  | endOfFile
  | lineBreak
  | integer
  | float
  | string
  | identifier
  | minus
  | plus
  | mult
  | div
  | colon
  | semicolon
  | dot
  | comma
  | question
  | exclamation
  | lessThan
  | greaterThan
  | openBracket
  | closeBracket
  | openCurly
  | closeCurly
  | openSquare
  | closeSquare
  deriving DecidableEq, Repr, Inhabited

namespace Kind

/-- Every kind, in the order of their declaration. -/
def all : List Kind :=
  [undefined, endOfFile, lineBreak, integer, float, string, identifier, minus, plus, mult, div, colon,
   semicolon, dot, comma, question, exclamation, lessThan, greaterThan, openBracket, closeBracket,
   openCurly, closeCurly, openSquare, closeSquare]

/-- The name of a kind in dumps and in JSON. -/
def name : Kind → String
  | undefined => "Undefined"
  | endOfFile => "EndOfFile"
  | lineBreak => "LineBreak"
  | integer => "Integer"
  | float => "Float"
  | string => "String"
  | identifier => "Identifier"
  | minus => "Minus"
  | plus => "Plus"
  | mult => "Mult"
  | div => "Div"
  | colon => "Colon"
  | semicolon => "SemiColon"
  | dot => "Dot"
  | comma => "Comma"
  | question => "Question"
  | exclamation => "Exclamation"
  | lessThan => "LessThan"
  | greaterThan => "GreaterThan"
  | openBracket => "OpenBracket"
  | closeBracket => "CloseBracket"
  | openCurly => "OpenCurly"
  | closeCurly => "CloseCurly"
  | openSquare => "OpenSquare"
  | closeSquare => "CloseSquare"

/-- The kind with the given name. -/
def ofName? (s : String) : Option Kind := all.find? (·.name = s)

/-- The character of a punctuation kind. -/
def symbol? : Kind → Option Char
  | minus => some '-'
  | plus => some '+'
  | mult => some '*'
  | div => some '/'
  | colon => some ':'
  | semicolon => some ';'
  | dot => some '.'
  | comma => some ','
  | question => some '?'
  | exclamation => some '!'
  | lessThan => some '<'
  | greaterThan => some '>'
  | openBracket => some '('
  | closeBracket => some ')'
  | openCurly => some '{'
  | closeCurly => some '}'
  | openSquare => some '['
  | closeSquare => some ']'
  | undefined | endOfFile | lineBreak | integer | float | string | identifier => none

/-- The kind of token that a character is on its own in a scanned text. -/
def ofSymbol? : Char → Option Kind
  | '-' => some minus
  | '+' => some plus
  | '*' => some mult
  | '/' => some div
  | ':' => some colon
  | ';' => some semicolon
  | '?' => some question
  | '!' => some exclamation
  | '<' => some lessThan
  | '>' => some greaterThan
  | '(' => some openBracket
  | ')' => some closeBracket
  | '[' => some openSquare
  | ']' => some closeSquare
  | '{' => some openCurly
  | '}' => some closeCurly
  | _ => none

/-- What a diagnostic calls a token of this kind. -/
def description (k : Kind) : String :=
  match k with
  | undefined => "undefined token"
  | endOfFile => "end of file"
  | lineBreak => "line break"
  | integer => "integer"
  | float => "float"
  | string => "string"
  | identifier => "identifier"
  | k => "'" ++ (k.symbol?.map String.singleton).getD "" ++ "'"

theorem ofName?_name (k : Kind) : ofName? k.name = some k := by cases k <;> decide

theorem name_of_ofName? {s : String} {k : Kind} (h : ofName? s = some k) : k.name = s := by
  simpa using List.find?_some h

theorem symbol?_of_ofSymbol? {c : Char} {k : Kind} (h : ofSymbol? c = some k) : k.symbol? = some c := by
  unfold ofSymbol? at h
  split at h <;> cases h <;> rfl

/-- Every punctuation character but the dot and the comma is the token of its kind. -/
theorem ofSymbol?_of_symbol? {c : Char} {k : Kind} (h : k.symbol? = some c) :
    ofSymbol? c = if k = dot ∨ k = comma then none else some k := by
  cases k <;> cases h <;> rfl

theorem ofSymbol?_eq_some_iff {c : Char} {k : Kind} :
    ofSymbol? c = some k ↔ k.symbol? = some c ∧ k ≠ dot ∧ k ≠ comma := by
  constructor
  · intro h
    have hsymbol := symbol?_of_ofSymbol? h
    rw [ofSymbol?_of_symbol? hsymbol] at h
    simp only [ite_eq_right_iff, reduceCtorEq, imp_false, not_or] at h
    exact ⟨hsymbol, h⟩
  · rintro ⟨hsymbol, hdot, hcomma⟩
    rw [ofSymbol?_of_symbol? hsymbol, if_neg (by simp [hdot, hcomma])]

end Kind

end Lexing
