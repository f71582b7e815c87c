/-!
# Log levels and filters

A filter is a list of directives, each of which sets the least severe level that is shown for the targets
that begin with its own. The longest matching target decides, and among directives of one target the last.
What no directive matches is not shown.
-/

namespace Lexing.Log

/-- Levels from the most severe to the least. -/
inductive Level where
  | error
  | warn
  | info
  | debug
  | trace
  deriving DecidableEq, Repr

namespace Level

def name : Level → String
  | error => "ERROR"
  | warn => "WARN"
  | info => "INFO"
  | debug => "DEBUG"
  | trace => "TRACE"

/-- How little severe a level is. -/
def verbosity : Level → Nat
  | error => 1
  | warn => 2
  | info => 3
  | debug => 4
  | trace => 5

/-- What a level word allows: a level with all that are more severe, or nothing. Case does not matter, and a
level may be given by its verbosity. -/
def ofWord? (word : String) : Option (Option Level) :=
  match (word.toList.map Char.toLower : List Char) with
  | ['o', 'f', 'f'] | ['0'] => some none
  | ['e', 'r', 'r', 'o', 'r'] | ['1'] => some (some error)
  | ['w', 'a', 'r', 'n'] | ['2'] => some (some warn)
  | ['i', 'n', 'f', 'o'] | ['3'] => some (some info)
  | ['d', 'e', 'b', 'u', 'g'] | ['4'] => some (some debug)
  | ['t', 'r', 'a', 'c', 'e'] | ['5'] => some (some trace)
  | _ => none

end Level

/-- Shows the targets that begin with `target` up to the level `limit`, or not at all. -/
structure Directive where
  target : List Char
  limit : Option Level
  deriving DecidableEq, Repr

namespace Directive

def isTargetChar (c : Char) : Bool := c.isAlphanum || c = '_' || c = ':' || c = '-'

/-- Reads a level, a target or a target with a level behind an equals sign. A level alone is for every
target, and a target alone shows all its levels. -/
def parse? (word : String) : Option Directive :=
  match Level.ofWord? word with
  | some limit => some { target := [], limit }
  | none =>
      let target := word.toList.takeWhile isTargetChar
      if target.isEmpty then none
      else
        match word.toList.dropWhile isTargetChar with
        | [] | ['='] => some { target, limit := some .trace }
        | '=' :: level =>
            (Level.ofWord? (String.ofList level)).map fun limit => { target, limit }
        | _ => none

def allows (d : Directive) (level : Level) : Bool :=
  match d.limit with
  | some limit => level.verbosity ≤ limit.verbosity
  | none => false

end Directive

abbrev Filter := List Directive

namespace Filter

/-- Divides a text at each comma. -/
def splitAtCommas : List Char → List (List Char)
  | [] => [[]]
  | ',' :: cs => [] :: splitAtCommas cs
  | c :: cs =>
      match splitAtCommas cs with
      | [] => [[c]]
      | word :: words => (c :: word) :: words

/-- Reads the directives between commas and leaves out what is none. -/
def parse (s : String) : Filter :=
  (splitAtCommas s.toList).filterMap fun word => Directive.parse? (String.ofList word)

/-- The later of two directives, unless the earlier has the longer target. -/
def prefer : Option Directive → Directive → Option Directive
  | none, d => some d
  | some best, d => if best.target.length ≤ d.target.length then some d else some best

/-- The directive that decides about a target. -/
def deciding? (filter : Filter) (target : String) : Option Directive :=
  (filter.filter fun d => d.target.isPrefixOf target.toList).foldl prefer none

def allows (filter : Filter) (level : Level) (target : String) : Bool :=
  match filter.deciding? target with
  | some d => d.allows level
  | none => false

end Filter

end Lexing.Log
