import Lexing.Text.Decimal

/-!
# JSON values

A number is either an integer or, if it is written with a fraction, with an exponent or as minus zero, kept
as it was written. An object is the list of its members in the order in which they are written.
-/

namespace Lexing

inductive Json where
  | null
  | bool (b : Bool)
  | integer (n : Int)
  | decimal (literal : String)
  | string (s : String)
  | array (items : List Json)
  | object (members : List (String × Json))
  deriving Repr, Inhabited

namespace Json

def ofNat (n : Nat) : Json := .integer n

/-- The integer in a value, if it is one from zero up to `bound`, which is excluded. -/
def natBelow? (bound : Nat) : Json → Option Nat
  | .integer (.ofNat n) => if n < bound then some n else none
  | _ => none

def bool? : Json → Option Bool
  | .bool b => some b
  | _ => none

def string? : Json → Option String
  | .string s => some s
  | _ => none

def array? : Json → Option (List Json)
  | .array items => some items
  | _ => none

/-- The value of the last member with this name. -/
def lookup? (name : String) (members : List (String × Json)) : Option Json :=
  members.reverse.lookup name

/-- The member with this name of an object. -/
def member? (name : String) : Json → Option Json
  | .object members => lookup? name members
  | _ => none

/-! ## Records and variants

Two forms of a record are read: an object with all fields, in any order and among others, and an array of
exactly the fields in order. A variant without contents is its name, or an object with its name and null. -/

/-- The values of the fields with these names, in this order. -/
def fields? (names : List String) : Json → Option (List Json)
  | .object members => names.mapM fun name => lookup? name members
  | .array items => if items.length = names.length then some items else none
  | _ => none

/-- The name of a variant. -/
def variant? : Json → Option String
  | .string s => some s
  | .object [(name, .null)] => some name
  | _ => none

theorem natBelow?_ofNat {bound n : Nat} (h : n < bound) : (ofNat n).natBelow? bound = some n := by
  simp [ofNat, natBelow?, h]

end Json

end Lexing
