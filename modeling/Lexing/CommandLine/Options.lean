import Lexing.Settings
import Lexing.Text.Decimal

/-!
# Options of the command line

Each argument sets one option; the last one to set an option counts. The first argument that is not valid is
reported, whatever follows it.
-/

namespace Lexing.CommandLine

structure Options where
  settings : Settings := {}
  /-- Whether the tokens are listed as JSON. -/
  json : Bool := false
  deriving DecidableEq, Repr, Inhabited

/-- Why an argument is not valid. -/
inductive OptionError where
  | unknownTracking (mode : String)
  | invalidCapacity (text : String)
  | unknownOption (arg : String)
  deriving DecidableEq, Repr

def OptionError.message : OptionError → String
  | unknownTracking mode =>
      "unknown line tracking '" ++ mode ++ "' (expected 'whitespace' or 'line-break')"
  | invalidCapacity text => "invalid buffer capacity '" ++ text ++ "'"
  | unknownOption arg => "unknown option '" ++ arg ++ "'"

/-- What follows `front` in a text that begins with it. -/
def behind? (front s : String) : Option String :=
  (front.toList.isPrefixOf? s.toList).map String.ofList

namespace Options

def setTracking (o : Options) (tracking : LineTracking) : Options :=
  { o with settings := { o.settings with tracking } }

def setCapacity (o : Options) (capacity : Nat) : Options :=
  { o with settings := { o.settings with capacity } }

def setIgnoreLineBreaks (o : Options) : Options :=
  { o with settings := { o.settings with ignoreLineBreaks := true } }

def setFixedBuffer (o : Options) : Options :=
  { o with settings := { o.settings with growable := false } }

/-- Applies an argument that gives an option its value behind an equals sign. -/
def applyValued (o : Options) (arg : String) : Except OptionError Options :=
  match behind? "--line-tracking=" arg with
  | some mode =>
      match LineTracking.ofSpelling? mode with
      | some tracking => .ok (o.setTracking tracking)
      | none => .error (.unknownTracking mode)
  | none =>
      match behind? "--buffer-capacity=" arg with
      | some text =>
          match Decimal.parse? Settings.capacityBound text with
          | some capacity => .ok (o.setCapacity capacity)
          | none => .error (.invalidCapacity text)
      | none => .error (.unknownOption arg)

/-- Applies one argument. -/
def apply (o : Options) (arg : String) : Except OptionError Options :=
  if arg = "--ignore-line-breaks" then .ok o.setIgnoreLineBreaks
  else if arg = "--no-buffer-growth" then .ok o.setFixedBuffer
  else if arg = "--json" then .ok { o with json := true }
  else o.applyValued arg

/-- The options that the arguments set, in turn, from the default ones. -/
def parse (args : List String) : Except OptionError Options := args.foldlM apply {}

end Options

end Lexing.CommandLine
