import Lexing.Event
import Lexing.Log.Filter

/-!
# Records of events

An event is logged as a record: a level, the target it belongs to, a message and named values. A record is
one line, in one of two forms.
-/

namespace Lexing.Log

structure Record where
  level : Level
  target : String
  message : String
  values : List (String × String)
  deriving DecidableEq, Repr

namespace Record

def ofEvent : Event → Record
  | .fileRead path bytes =>
      { level := .debug, target := "lexisc::commands::lex", message := "lexing file"
        values := [("path", Text.quote path), ("bytes", toString bytes)] }
  | .sourceCut bytes =>
      { level := .warn, target := "lexis_core::cursor"
        message := "source exceeds u32::MAX bytes, scanning a truncated prefix"
        values := [("len", toString bytes)] }
  | .bufferGrown growth =>
      { level := .trace, target := "lexis_core::accum_buffer", message := "accumulation buffer grown"
        values := [("from", toString growth.before), ("to", toString growth.after)] }
  | .tokenScanned token =>
      { level := .trace, target := "lexis_core::scanner", message := "token"
        values :=
          [("kind", token.kind.name), ("line", toString token.position.line),
           ("column", toString token.position.column)] }
  | .scanAborted error =>
      { level := .debug, target := "lexis_core::scanner", message := "scan aborted"
        values := [("err", error.message)] }
  | .scanComplete count =>
      { level := .debug, target := "lexis_core::scanner", message := "scan complete"
        values := [("count", toString count)] }

end Record

/-- How a record is written: flat, or as a leaf of a tree. -/
inductive Form where
  | flat
  | tree
  deriving DecidableEq, Repr

/-- A level's name, to the right of five columns. -/
def levelColumn (level : Level) : String :=
  String.ofList (List.replicate (5 - level.name.length) ' ') ++ level.name

/-- The line of a record. -/
def Record.line (form : Form) (r : Record) : String :=
  let values (separator : String) : String :=
    String.join (r.values.map fun (name, value) => separator ++ name ++ "=" ++ value)
  match form with
  | .flat => levelColumn r.level ++ " " ++ r.target ++ ": " ++ r.message ++ values " " ++ "\n"
  | .tree => " " ++ levelColumn r.level ++ " " ++ r.target ++ " " ++ r.message ++ values ", " ++ "\n"

/-- The lines of the events that a filter allows. -/
def lines (filter : Filter) (form : Form) (events : List Event) : String :=
  let records := events.map Record.ofEvent
  String.join ((records.filter fun r => filter.allows r.level r.target).map (Record.line form))

end Lexing.Log
