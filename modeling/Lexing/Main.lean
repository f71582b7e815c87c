import Lexing.CommandLine

/-!
# The program

Reads the file that the arguments ask for, runs the command line on its text and writes the result.
-/

namespace Lexing.CommandLine

/-- Whether a code of the system is the given one, which some calls report with its sign turned. -/
def isSystemCode (expected code : UInt32) : Bool := code = expected || code = -expected

/-- What a fault of the system means for reading a file. -/
def FileError.ofSystem : IO.Error → FileError
  | .noFileOrDirectory .. => .notFound
  | .permissionDenied .. => .permissionDenied
  | .inappropriateType _ code details =>
      if isSystemCode 21 code then .isDirectory
      else if isSystemCode 20 code then .notDirectory
      else .other details
  | .invalidArgument _ code details =>
      if isSystemCode 36 code then .nameTooLong else .other details
  | e => .other e.toString

/-- Reads a file as text. -/
def readText (path : String) : IO (Except FileError String) := do
  try
    let content ← IO.FS.readBinFile path
    return match String.fromUTF8? content with
      | some text => .ok text
      | none => .error .invalidUtf8
  catch e => return .error (.ofSystem e)

/-- The variables of the environment that a run depends on. -/
def readVariables : IO (List (String × String)) :=
  ["RUST_LOG", "LEXIS_LOG_TREE"].filterMapM fun name => do
    return (← IO.getEnv name).map fun value => (name, value)

end Lexing.CommandLine

open Lexing.CommandLine

def main (args : List String) : IO UInt32 := do
  let content : Except FileError String ←
    match fileToRead? args with
    | some path => readText path
    | none => pure (.error .notFound)
  let env : Environment := { vars := ← readVariables, textOf := fun _ => content }
  match run env args with
  | .exited status output errors =>
      IO.eprint errors
      IO.print output
      return status.toUInt32
  | .outOfStorage =>
      IO.eprintln "capacity overflow"
      return 101
