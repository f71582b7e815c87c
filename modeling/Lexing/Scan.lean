import Lexing.Event
import Lexing.Reader
import Lexing.Settings

/-!
# Scanning

A scan is a reader with the buffer for the text of its tokens. `Scan.nextToken` skips blanks, looks at one
character and reads the longest token that this character opens. At the end of the text it delivers the end
of file token, as often as it is asked. Main statement: a delivered token other than that one leaves less
text to read (`Scan.length_rest_nextToken_lt`).
-/

namespace Lexing

/-- What a character opens. -/
inductive Opening where
  | integer
  | string
  | lineBreak
  | identifier
  | symbol (kind : Kind)
  deriving DecidableEq, Repr

def isIdentifierStart (c : Char) : Bool := c.isAlpha || c = '_'

def isIdentifierPart (c : Char) : Bool := c.isAlphanum || c = '_'

theorem isIdentifierPart_of_isIdentifierStart {c : Char} (h : isIdentifierStart c = true) :
    isIdentifierPart c = true := by
  simp only [isIdentifierStart, isIdentifierPart, Char.isAlphanum, Bool.or_eq_true] at *
  exact h.imp_left .inl

/-- Which token a character opens, if any. -/
def Opening.ofChar? (c : Char) : Option Opening :=
  if c.isDigit then some .integer
  else if c = '"' then some .string
  else if c = '\n' then some .lineBreak
  else if isIdentifierStart c then some .identifier
  else (Kind.ofSymbol? c).map .symbol

theorem Opening.isDigit_of_ofChar? {c : Char} (h : Opening.ofChar? c = some .integer) :
    c.isDigit = true := by
  unfold Opening.ofChar? at h
  repeat' split at h
  all_goals simp_all

theorem Opening.isIdentifierStart_of_ofChar? {c : Char} (h : Opening.ofChar? c = some .identifier) :
    isIdentifierStart c = true := by
  unfold Opening.ofChar? at h
  repeat' split at h
  all_goals simp_all

structure Scan where
  reader : Reader
  buffer : TextBuffer
  /-- Whether `Scan.wantedTokens` leaves out line breaks. -/
  ignoreLineBreaks : Bool
  /-- Whether the iteration over the scan has ended. -/
  finished : Bool := false
  deriving DecidableEq, Repr

/-- What one call on a scan gives: a result, the scan afterwards and the events on the way. -/
structure Step (α : Type) where
  result : α
  scan : Scan
  events : List Event

/-- The same step with events in front of its own. -/
def Step.behind {α : Type} (step : Step α) (events : List Event) : Step α :=
  { step with events := events ++ step.events }

namespace Scan

/-- Begins a scan with the given buffer. -/
def startWith (buffer : TextBuffer) (source : String) (settings : Settings) : Scan :=
  { reader := .ofString source settings.tracking
    buffer
    ignoreLineBreaks := settings.ignoreLineBreaks }

/-- Begins a scan, unless storage for the buffer cannot be requested. -/
def start? (source : String) (settings : Settings) : Option Scan :=
  (TextBuffer.withCapacity? settings.capacity settings.growable).map
    fun buffer => startWith buffer source settings

/-- What is logged when a scan begins: whether some of the source is left unread. -/
def startEvents (source : String) : List Event :=
  if source.utf8ByteSize < Position.bound then [] else [.sourceCut source.utf8ByteSize]

def position (s : Scan) : Position := s.reader.position

def skipBlanks (s : Scan) : Scan := { s with reader := (s.reader.takeWhile isBlank).2 }

/-- Delivers a token that ends where `reader` stands. -/
def deliver (s : Scan) (reader : Reader) (kind : Kind) (text : List Char) :
    Step (Except Fault Token) :=
  let token : Token := { kind, text := String.ofList text, position := s.position }
  { result := .ok token, scan := { s with reader }, events := [.tokenScanned token] }

/-- Stops at a fault, with the reader where it stands. -/
def abort (s : Scan) (e : Fault) : Step (Except Fault Token) :=
  { result := .error e, scan := s, events := [.scanAborted e] }

/-- Stops at a fault of the buffer, behind the character that was refused. The characters that were pushed
begin where the reader stands. This fault leaves no event. -/
def overflow (s : Scan) (stored : Nat) (e : TextBuffer.Exhausted) : Step (Except Fault Token) :=
  { result := .error (.ofExhausted e)
    scan := { s with reader := s.reader.skip (stored + 1) }
    events := [] }

def integer (s : Scan) : Step (Except Fault Token) :=
  let (digits, reader) := s.reader.takeWhile Char.isDigit
  s.deliver reader .integer digits

/-- The word is gathered in the buffer, which may refuse a character of it. -/
def identifier (s : Scan) : Step (Except Fault Token) :=
  let (word, reader) := s.reader.takeWhile isIdentifierPart
  let fill := s.buffer.reset.fill word
  let s := { s with buffer := fill.buffer }
  let step :=
    match fill.fault with
    | some e => s.overflow fill.stored e
    | none => s.deliver reader .identifier s.buffer.toList
  step.behind (fill.growths.map .bufferGrown)

/-- A string ends at the next quotation mark, whatever stands before it. That it is missing shows only after
the buffer has taken everything up to the end of the text. -/
def string (s : Scan) : Step (Except Fault Token) :=
  let opened := s.reader.skip 1
  let (body, reader) := opened.takeWhile (· != '"')
  let fill := s.buffer.reset.fill body
  let s := { s with buffer := fill.buffer }
  let step :=
    match fill.fault, reader.peek? with
    | some e, _ => { s with reader := opened }.overflow fill.stored e
    | none, none => { s with reader }.abort (.unterminatedString s.position)
    | none, some _ => s.deliver (reader.skip 1) .string s.buffer.toList
  step.behind (fill.growths.map .bufferGrown)

/-- A line feed, together with a carriage return directly behind it. -/
def lineBreak (s : Scan) : Step (Except Fault Token) :=
  let length := if s.reader.peekNth? 1 = some '\r' then 2 else 1
  s.deliver ((s.reader.skip length).startLineAfter s.position.line) .lineBreak
    (s.reader.rest.take length)

def symbol (s : Scan) (kind : Kind) : Step (Except Fault Token) :=
  s.deliver (s.reader.skip 1) kind (s.reader.rest.take 1)

/-- The token that the next character opens. -/
def read (s : Scan) : Opening → Step (Except Fault Token)
  | .integer => s.integer
  | .string => s.string
  | .lineBreak => s.lineBreak
  | .identifier => s.identifier
  | .symbol kind => s.symbol kind

/-- The next token behind blanks, or the end of the file. -/
def nextToken (s : Scan) : Step (Except Fault Token) :=
  let s := s.skipBlanks
  match s.reader.peek? with
  | none => { result := .ok (.endOfFile s.position), scan := s, events := [] }
  | some c =>
      match Opening.ofChar? c with
      | some opening => s.read opening
      | none => s.abort (.unexpectedCharacter c s.position)

/-! ## A delivered token leaves less to read -/

theorem length_dropWhile_lt {p : Char → Bool} {c : Char} {cs : List Char} (h : p c = true) :
    ((c :: cs).dropWhile p).length < (c :: cs).length := by
  have : (cs.dropWhile p).length ≤ cs.length := (List.dropWhile_suffix p).length_le
  simp only [List.dropWhile_cons, h, if_true, List.length_cons]
  omega

theorem length_rest_integer_lt {s : Scan} {c : Char} {cs : List Char} (hrest : s.reader.rest = c :: cs)
    (hc : c.isDigit = true) : s.integer.scan.reader.rest.length < s.reader.rest.length := by
  simp only [integer, deliver, Reader.rest_takeWhile, hrest]
  exact length_dropWhile_lt hc

theorem length_rest_identifier_lt {s : Scan} {c : Char} {cs : List Char}
    (hrest : s.reader.rest = c :: cs) (hc : isIdentifierStart c = true) :
    s.identifier.scan.reader.rest.length < s.reader.rest.length := by
  unfold identifier
  dsimp only [Step.behind]
  split
  · simp only [overflow, Reader.rest_skip, hrest, List.length_drop, List.length_cons]
    omega
  · simp only [deliver, Reader.rest_takeWhile, hrest]
    exact length_dropWhile_lt (isIdentifierPart_of_isIdentifierStart hc)

theorem length_rest_string_lt {s : Scan} {c : Char} {cs : List Char} (hrest : s.reader.rest = c :: cs) :
    s.string.scan.reader.rest.length < s.reader.rest.length := by
  have hbody : (cs.dropWhile (· != '"')).length ≤ cs.length := (List.dropWhile_suffix _).length_le
  unfold string
  dsimp only [Step.behind]
  split
  · simp only [overflow, Reader.rest_skip, hrest, List.drop_succ_cons, List.length_drop,
      List.length_cons]
    omega
  · simp only [abort, Reader.rest_takeWhile, Reader.rest_skip, hrest, List.drop_succ_cons,
      List.drop_zero, List.length_cons]
    omega
  · simp only [deliver, Reader.rest_takeWhile, Reader.rest_skip, hrest, List.drop_succ_cons,
      List.drop_zero, List.length_drop, List.length_cons]
    omega

theorem length_rest_lineBreak_lt {s : Scan} {c : Char} {cs : List Char} (hrest : s.reader.rest = c :: cs) :
    s.lineBreak.scan.reader.rest.length < s.reader.rest.length := by
  unfold lineBreak
  simp only [deliver, Reader.rest_startLineAfter, Reader.rest_skip, hrest, List.length_drop,
    List.length_cons]
  split <;> omega

theorem length_rest_symbol_lt {s : Scan} {c : Char} {cs : List Char} (kind : Kind)
    (hrest : s.reader.rest = c :: cs) :
    (s.symbol kind).scan.reader.rest.length < s.reader.rest.length := by
  simp [symbol, deliver, hrest]

theorem length_rest_read_lt {s : Scan} {c : Char} {cs : List Char} {opening : Opening}
    (hrest : s.reader.rest = c :: cs) (hopen : Opening.ofChar? c = some opening) :
    (s.read opening).scan.reader.rest.length < s.reader.rest.length := by
  cases opening with
  | integer => exact length_rest_integer_lt hrest (Opening.isDigit_of_ofChar? hopen)
  | string => exact length_rest_string_lt hrest
  | lineBreak => exact length_rest_lineBreak_lt hrest
  | identifier => exact length_rest_identifier_lt hrest (Opening.isIdentifierStart_of_ofChar? hopen)
  | symbol kind => exact length_rest_symbol_lt kind hrest

theorem length_rest_skipBlanks_le (s : Scan) :
    s.skipBlanks.reader.rest.length ≤ s.reader.rest.length := by
  simpa [skipBlanks] using (List.dropWhile_suffix isBlank).length_le

/-- Every call that neither delivers the end of the file nor stops before an unexpected character reads at
least one character. -/
theorem length_rest_nextToken_lt {s : Scan} {t : Token} (h : s.nextToken.result = .ok t)
    (ht : t.isEndOfFile = false) :
    s.nextToken.scan.reader.rest.length < s.reader.rest.length := by
  have hblanks := s.length_rest_skipBlanks_le
  revert h
  unfold nextToken
  dsimp only
  cases hrest : s.skipBlanks.reader.rest with
  | nil =>
      intro h
      simp only [Reader.peek?, hrest, List.head?_nil, Except.ok.injEq] at h
      subst h
      cases ht
  | cons c cs =>
      simp only [Reader.peek?, hrest, List.head?_cons]
      split
      · next opening hopen =>
          intro _
          exact Nat.lt_of_lt_of_le (length_rest_read_lt hrest hopen) hblanks
      · simp [abort]

end Scan

end Lexing
