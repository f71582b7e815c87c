import Lexing.Text.Escaped
import Lexing.Token.Json

/-!
# Listings of tokens

A list of tokens is shown as one line per token, with the text escaped and the offset left out, or as a JSON
array.
-/

namespace Lexing

namespace Token

/-- The line of a token: its kind, its escaped text, its line and its column. -/
def listingLine (classes : Text.CharClasses) (t : Token) : List Char :=
  '[' :: t.kind.name.toList ++ [']', ' '] ++ Text.escapeWith classes .bare t.text.toList ++
    [' ', '@', ' '] ++ Decimal.digits t.position.line ++ ':' :: Decimal.digits t.position.column ++ ['\n']

/-- The lines of the tokens in order, escaped by the given character classes. -/
def listingWith (classes : Text.CharClasses) (tokens : List Token) : List Char :=
  tokens.flatMap (listingLine classes)

/-- One line for each token. -/
def listing (tokens : List Token) : String := String.ofList (listingWith .unicode tokens)

/-- The tokens as a JSON array. -/
def jsonListing (tokens : List Token) : String := (Json.array (tokens.map toJson)).pretty

/-- The listing in the form asked for. -/
def listingAs (json : Bool) (tokens : List Token) : String :=
  if json then jsonListing tokens else listing tokens

end Token

end Lexing
