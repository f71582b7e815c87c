/-!
# Unsigned decimal numbers

A number is read from one or more ASCII digits, with one plus sign in front if the writer likes. Leading
zeros are allowed and every value below the given bound can be read, whatever its number of digits.
-/

namespace Lexing.Decimal

/-- The value of a run of digits, or nothing if the run is empty or holds another character. -/
def ofDigits? (cs : List Char) : Option Nat :=
  if !cs.isEmpty && cs.all Char.isDigit then some (Nat.ofDigitChars 10 cs 0) else none

/-- Removes one leading plus sign, if there is one. -/
def dropPlus : List Char → List Char
  | '+' :: cs => cs
  | cs => cs

/-- Reads a number below `bound`. -/
def parse? (bound : Nat) (s : String) : Option Nat :=
  (ofDigits? (dropPlus s.toList)).filter (· < bound)

/-- The digits of a number, without leading zeros. -/
def digits (n : Nat) : List Char := Nat.toDigits 10 n

theorem ofDigits?_digits (n : Nat) : ofDigits? (digits n) = some n := by
  have hdigit : ∀ c ∈ Nat.toDigits 10 n, c.isDigit = true :=
    fun _ h => Nat.isDigit_of_mem_toDigits (by decide) (by decide) h
  simpa [ofDigits?, digits, Nat.toDigits_ne_nil, Nat.ofDigitChars_ten_toDigits] using hdigit

end Lexing.Decimal
