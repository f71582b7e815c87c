import Lexing.CommandLine.FileError
import Lexing.CommandLine.Options
import Lexing.CommandLine.Usage
import Lexing.Diagnostic
import Lexing.Log.Record
import Lexing.Scan.Tokens
import Lexing.Token.Listing

/-!
# The command line

A run lists the tokens of a file or shows a help text. It prints either all tokens or none: a fault is
reported on the error output, in the order in which it can arise, from the options over the file to the scan.
-/

namespace Lexing.CommandLine

/-- What a run sees besides its arguments. -/
structure Environment where
  vars : List (String × String)
  /-- The text of the file at a path. -/
  textOf : String → Except FileError String

/-- How a run ends. -/
inductive Outcome where
  | exited (status : Nat) (output errors : String)
  /-- The storage of the buffer could not be requested. -/
  | outOfStorage
  deriving DecidableEq, Repr

/-- What is written about events: nothing, unless the environment sets a filter. -/
def Environment.log (env : Environment) (events : List Event) : String :=
  match env.vars.lookup "RUST_LOG" with
  | some filter =>
      let form := if (env.vars.lookup "LEXIS_LOG_TREE").isSome then Log.Form.tree else .flat
      Log.lines (Log.Filter.parse filter) form events
  | none => ""

/-- Lists the tokens of a text that was read from `path`. -/
def listTokens (env : Environment) (options : Options) (path source : String) : Outcome :=
  match Scan.start? source options.settings with
  | none => .outOfStorage
  | some scan =>
      let step := scan.wantedTokens
      let log :=
        env.log (.fileRead path source.utf8ByteSize :: (Scan.startEvents source ++ step.events))
      match step.result with
      | .ok tokens => .exited 0 (Token.listingAs options.json tokens) log
      | .error e => .exited 1 "" (log ++ Diagnostic.render path source e)

/-- Lists the tokens of a file, with the arguments behind its path. -/
def listFile (env : Environment) (path : String) (args : List String) : Outcome :=
  match Options.parse args with
  | .error e => .exited 1 "" ("error: " ++ e.message ++ "\n\n" ++ lexOptions)
  | .ok options =>
      match env.textOf path with
      | .error e => .exited 1 "" (e.message path ++ "\n")
      | .ok source => listTokens env options path source

/-- Whether a command asks for help. -/
def isHelp (command : String) : Bool := command = "help" || command = "--help" || command = "-h"

/-- A run with the given arguments. -/
def run (env : Environment) : List String → Outcome
  | [] => .exited 0 usage ""
  | "lex" :: [] => .exited 1 "" (lexUsage ++ "\n" ++ lexOptions)
  | "lex" :: path :: args => listFile env path args
  | command :: _ =>
      if isHelp command then .exited 0 usage ""
      else .exited 1 usage ("error: unknown command '" ++ command ++ "'\n\n")

/-- The file that a run reads: the one it is asked to list if its options are valid. -/
def fileToRead? : List String → Option String
  | "lex" :: path :: args =>
      match Options.parse args with
      | .ok _ => some path
      | .error _ => none
  | _ => none

end Lexing.CommandLine
