import Lexing.Fault
import Lexing.Token

/-!
# Events

What a run leaves in the log. A scan reports that its source is too long to be read as a whole, each change of
its buffer's storage, each token but the end of the file, the fault that stops it, and how many tokens a
complete scan gave.
-/

namespace Lexing

inductive Event where
  /-- A file was read and is about to be scanned. -/
  | fileRead (path : String) (bytes : Nat)
  /-- A source of so many bytes is too long, and only a part from its start is scanned. -/
  | sourceCut (bytes : Nat)
  | bufferGrown (growth : Growth)
  | tokenScanned (token : Token)
  | scanAborted (error : Fault)
  | scanComplete (count : Nat)
  deriving DecidableEq, Repr

end Lexing
