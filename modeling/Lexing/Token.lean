import Lexing.Position
import Lexing.Text.Decimal
import Lexing.Token.Kind

/-!
# Tokens

A token is a classified piece of text with the position of its first character. The text of a string token
is what stands between the quotation marks.
-/

namespace Lexing

structure Token where
  kind : Kind
  text : String
  position : Position
  deriving DecidableEq, Repr, Inhabited

namespace Token

def isEndOfFile (t : Token) : Bool := t.kind = .endOfFile

def endOfFile (position : Position) : Token := { kind := .endOfFile, text := "", position }

/-- The kind in square brackets and the text as it is. -/
def display (t : Token) : String := "[" ++ t.kind.name ++ "] " ++ t.text

/-! ## Decoding integers -/

/-- Why a token has no integer value. -/
inductive DecodeError where
  | typeMismatch (kind : Kind)
  | outOfRange (text : String)
  deriving DecidableEq, Repr

def DecodeError.message : DecodeError → String
  | typeMismatch kind => "token of kind " ++ kind.name ++ " cannot be decoded as an integer"
  | outOfRange text => "integer literal `" ++ text ++ "` is out of range"

/-- Integer values are below this bound, `2 ^ 64`. -/
def integerBound : Nat := 0x10000000000000000

/-- The value of an integer token. -/
def integer (t : Token) : Except DecodeError Nat :=
  if t.kind = .integer then
    match Decimal.parse? integerBound t.text with
    | some n => .ok n
    | none => .error (.outOfRange t.text)
  else .error (.typeMismatch t.kind)

end Token

end Lexing
