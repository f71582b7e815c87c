import Lexing.Json

/-!
# Reading JSON

The reader accepts the documents of RFC 8259: one value, with blanks, line feeds and tabs around its tokens.
It takes a value off the front of the characters and leaves the rest. Escapes for surrogates must come in
pairs.
-/

namespace Lexing.Json

def isSpace (c : Char) : Bool := c = ' ' || c = '\t' || c = '\n' || c = '\r'

def skipSpace (cs : List Char) : List Char := cs.dropWhile isSpace

/-! ## Strings -/

def hexValue? (c : Char) : Option Nat :=
  if c.isDigit then some (c.toNat - '0'.toNat)
  else if 'a' ≤ c ∧ c ≤ 'f' then some (c.toNat - 'a'.toNat + 10)
  else if 'A' ≤ c ∧ c ≤ 'F' then some (c.toNat - 'A'.toNat + 10)
  else none

/-- The number that four hexadecimal digits stand for. -/
def codeUnit? (a b c d : Char) : Option Nat := do
  let a ← hexValue? a
  let b ← hexValue? b
  let c ← hexValue? c
  let d ← hexValue? d
  pure (((a * 16 + b) * 16 + c) * 16 + d)

def ofCodePoint? (n : Nat) : Option Char :=
  if n.isValidChar then some (Char.ofNat n) else none

def isHighSurrogate (n : Nat) : Bool := 0xD800 ≤ n && n < 0xDC00

/-- The character that a pair of surrogates stands for. -/
def ofSurrogates? (high low : Nat) : Option Char :=
  if 0xDC00 ≤ low && low < 0xE000 then
    ofCodePoint? (0x10000 + (high - 0xD800) * 0x400 + (low - 0xDC00))
  else none

/-- The character that a letter behind a backslash stands for. -/
def ofEscape? : Char → Option Char
  | '"' => some '"'
  | '\\' => some '\\'
  | '/' => some '/'
  | 'b' => some '\x08'
  | 'f' => some '\x0c'
  | 'n' => some '\n'
  | 'r' => some '\r'
  | 't' => some '\t'
  | _ => none

/-- Reads what follows an opening quotation mark, through the closing one. -/
def readString? : List Char → Option (List Char × List Char)
  | [] => none
  | '"' :: cs => some ([], cs)
  | '\\' :: 'u' :: a :: b :: c :: d :: cs => do
      let n ← codeUnit? a b c d
      if isHighSurrogate n then
        match cs with
        | '\\' :: 'u' :: e :: f :: g :: h :: cs => do
            let char ← ofSurrogates? n (← codeUnit? e f g h)
            let (s, cs) ← readString? cs
            pure (char :: s, cs)
        | _ => none
      else
        let char ← ofCodePoint? n
        let (s, cs) ← readString? cs
        pure (char :: s, cs)
  | '\\' :: c :: cs => do
      let char ← ofEscape? c
      let (s, cs) ← readString? cs
      pure (char :: s, cs)
  | c :: cs =>
      if c.toNat < 0x20 then none
      else do
        let (s, cs) ← readString? cs
        pure (c :: s, cs)

/-! ## Numbers -/

/-- Reads one or more digits. -/
def readDigits? (cs : List Char) : Option (List Char × List Char) :=
  let digits := cs.takeWhile Char.isDigit
  if digits.isEmpty then none else some (digits, cs.dropWhile Char.isDigit)

/-- Reads the digits in front of the fraction, where a zero stands alone. -/
def readWhole? (cs : List Char) : Option (List Char × List Char) := do
  let (digits, cs) ← readDigits? cs
  if digits.head? = some '0' ∧ digits ≠ ['0'] then none else some (digits, cs)

/-- Reads a fraction with its point, if there is one. -/
def readFraction? : List Char → Option (List Char × List Char)
  | '.' :: cs => do
      let (digits, cs) ← readDigits? cs
      pure ('.' :: digits, cs)
  | cs => some ([], cs)

/-- Takes a sign off the front. -/
def splitSign : List Char → List Char × List Char
  | '+' :: cs => (['+'], cs)
  | '-' :: cs => (['-'], cs)
  | cs => ([], cs)

/-- Reads an exponent with its letter, if there is one. -/
def readExponent? : List Char → Option (List Char × List Char)
  | [] => some ([], [])
  | c :: cs =>
      if c = 'e' ∨ c = 'E' then do
        let (sign, cs) := splitSign cs
        let (digits, cs) ← readDigits? cs
        pure (c :: sign ++ digits, cs)
      else some ([], c :: cs)

/-- Takes a minus sign off the front. -/
def splitMinus : List Char → Bool × List Char
  | '-' :: cs => (true, cs)
  | cs => (false, cs)

def readNumber? (cs : List Char) : Option (Json × List Char) := do
  let (negative, cs) := splitMinus cs
  let (whole, cs) ← readWhole? cs
  let (fraction, cs) ← readFraction? cs
  let (exponent, cs) ← readExponent? cs
  let n := Nat.ofDigitChars 10 whole 0
  if fraction.isEmpty && exponent.isEmpty && !(negative && n = 0) then
    pure (.integer (if negative then -n else n), cs)
  else
    let sign := if negative then ['-'] else []
    pure (.decimal (String.ofList (sign ++ whole ++ fraction ++ exponent)), cs)

/-! ## Values -/

/-- Takes the given characters off the front. -/
def expect? : List Char → List Char → Option (List Char)
  | [], cs => some cs
  | _ :: _, [] => none
  | x :: xs, c :: cs => if x = c then expect? xs cs else none

/-- Reads a member's name and the colon behind it. -/
def readName? (cs : List Char) : Option (String × List Char) := do
  let cs ← expect? ['"'] (skipSpace cs)
  let (name, cs) ← readString? cs
  let cs ← expect? [':'] (skipSpace cs)
  pure (String.ofList name, cs)

mutual

/-- Reads a value; every nested one and every further item takes one unit of fuel. -/
def readValue? : Nat → List Char → Option (Json × List Char)
  | 0, _ => none
  | fuel + 1, cs =>
      match skipSpace cs with
      | '"' :: cs => do
          let (s, cs) ← readString? cs
          pure (.string (String.ofList s), cs)
      | '[' :: cs =>
          match skipSpace cs with
          | ']' :: cs => some (.array [], cs)
          | cs => do
              let (items, cs) ← readItems? fuel cs
              pure (.array items, cs)
      | '{' :: cs =>
          match skipSpace cs with
          | '}' :: cs => some (.object [], cs)
          | cs => do
              let (members, cs) ← readMembers? fuel cs
              pure (.object members, cs)
      | 'n' :: cs => do
          let cs ← expect? ['u', 'l', 'l'] cs
          pure (.null, cs)
      | 't' :: cs => do
          let cs ← expect? ['r', 'u', 'e'] cs
          pure (.bool true, cs)
      | 'f' :: cs => do
          let cs ← expect? ['a', 'l', 's', 'e'] cs
          pure (.bool false, cs)
      | cs => readNumber? cs

/-- Reads one or more items, through the bracket that closes them. -/
def readItems? : Nat → List Char → Option (List Json × List Char)
  | 0, _ => none
  | fuel + 1, cs => do
      let (item, cs) ← readValue? fuel cs
      match skipSpace cs with
      | ',' :: cs => do
          let (items, cs) ← readItems? fuel cs
          pure (item :: items, cs)
      | ']' :: cs => pure ([item], cs)
      | _ => none

/-- Reads one or more members, through the bracket that closes them. -/
def readMembers? : Nat → List Char → Option (List (String × Json) × List Char)
  | 0, _ => none
  | fuel + 1, cs => do
      let (name, cs) ← readName? cs
      let (value, cs) ← readValue? fuel cs
      match skipSpace cs with
      | ',' :: cs => do
          let (members, cs) ← readMembers? fuel cs
          pure ((name, value) :: members, cs)
      | '}' :: cs => pure ([(name, value)], cs)
      | _ => none

end

/-- Reads a document. Two units of fuel for each character are more than it can take. -/
def read? (s : String) : Option Json :=
  match readValue? (2 * s.length + 2) s.toList with
  | some (value, cs) => if (skipSpace cs).isEmpty then some value else none
  | none => none

end Lexing.Json
