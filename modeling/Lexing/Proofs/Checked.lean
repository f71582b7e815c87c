import Lexing.Proofs.Positions
import Lexing.Token.Json

/-!
# Operations with their checks

A call reads, looks ahead, gathers and takes texts by operations that could each
go wrong: an offset could lie past the text or inside of a character, a number
could outgrow its 32 or 64 bits, a slot could lie past the storage.
`Underway.perform?` does one operation on the text itself, and fails where a
check does. `Scan.operations` lists what the next call does, in order.

On a scan that stands in a text of fewer than `2 ^ 32` bytes no check fails, and
the operations lead to the scan that the call leaves. What they take, be it a
slice of the text or what was gathered, is the text of the token that the call
delivers (`Scan.performAll?_operations`).
-/

namespace Lexing

namespace Position

/-- The position after a character, unless a number on the way is too large.
The column is counted up before a new line sets it back. -/
def advance? (mode : LineTracking) (p : Position) (c : Char) : Option Position :=
  if p.column + 1 < bound ∧ p.offset + c.utf8Size < bound ∧
      (mode.breaksAt c = true → p.line + 1 < bound) then
    some (p.advance mode c)
  else none

/-- The start of the line after the given one, unless its number is too large. -/
def startLineAfter? (p : Position) (line : Nat) : Option Position :=
  if line + 1 < bound then some (p.startLineAfter line) else none

theorem advance?_eq_some (mode : LineTracking) {p : Position} {c : Char}
    (hle : p.line + p.column ≤ p.offset) (hfits : p.offset + c.utf8Size < bound) :
    p.advance? mode c = some (p.advance mode c) := by
  have hsize := c.utf8Size_pos
  rw [advance?, if_pos]
  exact ⟨by omega, hfits, fun _ => by omega⟩

/-- The column may not pass its bound, though the blank would set it back. -/
example : (⟨5, 0, 0xFFFFFFFF⟩ : Position).advance? .whitespace ' ' = none := by decide

end Position

namespace TextBuffer

/-- The numbers that growing takes fit into 64 bits, and the storage that it
asks for can be requested. -/
def CanGrow (b : TextBuffer) : Prop :=
  2 * (b.count + 1) < Settings.capacityBound ∧ 2 * b.capacity < Settings.capacityBound ∧
    b.grownCapacity ≤ maxCapacity

instance (b : TextBuffer) : Decidable b.CanGrow :=
  inferInstanceAs (Decidable (_ ∧ _ ∧ _))

/-- Grows a full buffer, if it may and can. -/
def makeRoom? (b : TextBuffer) : Option (Except Exhausted TextBuffer) :=
  if b.count = b.capacity then
    if b.growable then
      if b.CanGrow then some (.ok b.grow) else none
    else some (.error ⟨b.capacity⟩)
  else some (.ok b)

/-- Pushes a character into a slot that has to exist. -/
def push? (b : TextBuffer) (c : Char) : Option (Except Exhausted TextBuffer) :=
  match b.makeRoom? with
  | none => none
  | some (.error e) => some (.error e)
  | some (.ok roomy) =>
      if h : roomy.count < roomy.slots.size then some (.ok (roomy.store c h)) else none

/-- Takes what was gathered, as far as there are slots. -/
def materialize? (b : TextBuffer) : Option (List Char) :=
  if b.count ≤ b.slots.size then some b.toList else none

theorem materialize?_eq_some (b : TextBuffer) : b.materialize? = some b.toList :=
  if_pos b.count_le

theorem canGrow_of_grownCapacity_le {b : TextBuffer} (h : b.grownCapacity ≤ maxCapacity) :
    b.CanGrow := by
  simp only [CanGrow, grownCapacity, maxCapacity, Settings.capacityBound] at *
  omega

theorem grownCapacity_le_of_full {b : TextBuffer} (hfull : b.count = b.capacity)
    (hcount : b.count < Position.bound) : b.grownCapacity ≤ maxCapacity := by
  simp only [grownCapacity, ← hfull, maxCapacity, Position.bound] at *
  omega

/-- No check fails, unless the storage to grow to cannot be requested. -/
theorem push?_eq_some_of_grownCapacity_le {b : TextBuffer}
    (hgrows : b.growable = true → b.count = b.capacity → b.grownCapacity ≤ maxCapacity)
    (c : Char) : b.push? c = some (b.push c) := by
  have hle := b.count_le_capacity
  by_cases hfull : b.count = b.capacity
  · have hslots : ¬ b.count < b.slots.size := by
      rw [hfull]
      exact Nat.lt_irrefl _
    cases hgrowable : b.growable with
    | true =>
        have hcan := canGrow_of_grownCapacity_le (hgrows hgrowable hfull)
        have hroom : b.makeRoom? = some (.ok b.grow) := by
          rw [makeRoom?, if_pos hfull, if_pos hgrowable, if_pos hcan]
        rw [push?, hroom, push, dif_neg hslots, if_pos hgrowable]
        exact dif_pos b.count_lt_size_grow
    | false =>
        have hroom : b.makeRoom? = some (.error ⟨b.capacity⟩) := by
          rw [makeRoom?, if_pos hfull, hgrowable]
          rfl
        rw [push?, hroom, push, dif_neg hslots, hgrowable]
        rfl
  · have hslots : b.count < b.slots.size := Nat.lt_of_le_of_ne hle hfull
    have hroom : b.makeRoom? = some (.ok b) := by rw [makeRoom?, if_neg hfull]
    rw [push?, hroom, push, dif_pos hslots]
    exact dif_pos hslots

theorem push?_eq_some {b : TextBuffer} (hcount : b.count < Position.bound) (c : Char) :
    b.push? c = some (b.push c) :=
  push?_eq_some_of_grownCapacity_le (fun _ hfull => grownCapacity_le_of_full hfull hcount) c

end TextBuffer

/-- What a call does with the reader and the buffer, in single operations. -/
inductive Operation where
  /-- Looks ahead in the text that begins at the offset. -/
  | peek
  /-- Reads a character, if there is one. -/
  | consume
  /-- Takes the text from `start` up to the offset. -/
  | sliceFrom (start : Nat)
  | startLineAfter (line : Nat)
  | reset
  | push (c : Char)
  /-- Takes what was gathered. -/
  | materialize
  deriving DecidableEq, Repr

/-- A scan while calls are under way, with the texts that they have taken. -/
structure Underway where
  scan : Scan
  texts : List (List Char) := []
  deriving DecidableEq, Repr

namespace Underway

/-- Does one operation on a scan of the text, unless a check fails. -/
def perform? (source : List Char) (u : Underway) : Operation → Option Underway
  | .peek => (Text.splitAtByte? source u.scan.position.offset).map fun _ => u
  | .consume =>
      match Text.splitAtByte? source u.scan.position.offset with
      | none => none
      | some (_, []) => some u
      | some (_, c :: rest) =>
          (u.scan.position.advance? u.scan.reader.tracking c).map fun position =>
            { u with scan := { u.scan with reader := { u.scan.reader with rest, position } } }
  | .sliceFrom start =>
      (Text.slice? source start u.scan.position.offset).map fun text =>
        { u with texts := u.texts ++ [text] }
  | .startLineAfter line =>
      (u.scan.position.startLineAfter? line).map fun position =>
        { u with scan := { u.scan with reader := { u.scan.reader with position } } }
  | .reset => some { u with scan := { u.scan with buffer := u.scan.buffer.reset } }
  | .push c =>
      (u.scan.buffer.push? c).map fun
        | .ok buffer => { u with scan := { u.scan with buffer } }
        | .error _ => u
  | .materialize =>
      u.scan.buffer.materialize?.map fun text => { u with texts := u.texts ++ [text] }

/-- Does operations in turn. -/
def performAll? (source : List Char) (u : Underway) (ops : List Operation) : Option Underway :=
  ops.foldlM (perform? source) u

section PerformAll

variable {source : List Char} {u v : Underway}

theorem performAll?_nil (source : List Char) (u : Underway) : u.performAll? source [] = some u := rfl

theorem performAll?_append {ops : List Operation} (h : u.performAll? source ops = some v)
    (others : List Operation) :
    u.performAll? source (ops ++ others) = v.performAll? source others := by
  unfold performAll? at *
  rw [List.foldlM_append, h]
  rfl

theorem performAll?_cons {op : Operation} (h : u.perform? source op = some v)
    (others : List Operation) :
    u.performAll? source (op :: others) = v.performAll? source others := by
  rw [performAll?, List.foldlM_cons, h]
  rfl

theorem performAll?_singleton {op : Operation} (h : u.perform? source op = some v) :
    u.performAll? source [op] = some v :=
  performAll?_cons h []

end PerformAll

end Underway

namespace Scan

open Underway

/-! ## What a call does -/

/-- Reads the characters, looking at each before and at what follows them. -/
def eating (run : List Char) : List Operation :=
  run.flatMap (fun _ => [.peek, .consume]) ++ [.peek]

/-- Pushes characters, each behind the operations `lead`, up to the first one
that is refused. If none is, the operations `last` follow. -/
def gathering (lead last : List Operation) (b : TextBuffer) : List Char → List Operation
  | [] => last
  | c :: cs =>
      lead ++ .push c ::
        match b.push c with
        | .ok b' => gathering lead last b' cs
        | .error _ => []

section Operations

variable (s : Scan)

def integerOperations : List Operation :=
  eating (s.reader.takeWhile Char.isDigit).1 ++ [.sliceFrom s.position.offset]

def identifierOperations : List Operation :=
  .reset ::
    gathering [.peek, .consume] [.peek, .materialize] s.buffer.reset
      (s.reader.takeWhile isIdentifierPart).1

/-- The last character that is read is the closing quotation mark. Without it nothing is taken. -/
def stringOperations : List Operation :=
  let (body, reader) := (s.reader.skip 1).takeWhile (· != '"')
  let taking := if reader.peek?.isSome then [.materialize] else []
  .consume :: .reset :: gathering [.consume] (.consume :: taking) s.buffer.reset body

def lineBreakOperations : List Operation :=
  let length := if s.reader.peekNth? 1 = some '\r' then 2 else 1
  .peek :: List.replicate length .consume ++
    [.startLineAfter s.position.line, .sliceFrom s.position.offset]

def symbolOperations : List Operation := [.consume, .sliceFrom s.position.offset]

/-- What reading the token that the next character opens does. -/
def readOperations : Opening → List Operation
  | .integer => s.integerOperations
  | .string => s.stringOperations
  | .lineBreak => s.lineBreakOperations
  | .identifier => s.identifierOperations
  | .symbol _ => s.symbolOperations

/-- What the next call does. -/
def operations : List Operation :=
  eating (s.reader.takeWhile isBlank).1 ++ .peek ::
    match s.skipBlanks.reader.peek? with
    | none => []
    | some c =>
        match Opening.ofChar? c with
        | some opening => s.skipBlanks.readOperations opening
        | none => []

/-- What the next `k` calls do. -/
def operationsOver (s : Scan) : Nat → List Operation
  | 0 => []
  | k + 1 => s.operations ++ s.nextToken.scan.operationsOver k

end Operations

/-- The text of a token that a call delivers, but for the end of the file. -/
def textsOf : Except Fault Token → List (List Char)
  | .ok t => if t.isEndOfFile then [] else [t.text.toList]
  | .error _ => []

@[simp]
theorem textsOf_error (e : Fault) : textsOf (.error e) = [] := rfl

@[simp]
theorem textsOf_endOfFile (p : Position) : textsOf (.ok (Token.endOfFile p)) = [] := rfl

theorem textsOf_deliver (s : Scan) (reader : Reader) {kind : Kind} (h : kind ≠ .endOfFile)
    (text : List Char) : textsOf (s.deliver reader kind text).result = [text] := by
  simp [textsOf, deliver, Token.isEndOfFile, h]

/-- The texts that the next `k` calls take. -/
def textsOver (s : Scan) (k : Nat) : List (List Char) :=
  (List.range k).flatMap fun j => textsOf (s.resultAt j)

theorem textsOver_succ (s : Scan) (k : Nat) :
    s.textsOver (k + 1) = textsOf s.nextToken.result ++ s.nextToken.scan.textsOver k := by
  rw [textsOver, List.range_succ_eq_map, List.flatMap_cons, List.flatMap_map]
  rfl

/-! ## Single operations -/

section Perform

variable {source : List Char} {s u : Scan} {texts : List (List Char)}

theorem perform?_peek (hs : s.StandsIn source) :
    perform? source ⟨s, texts⟩ .peek = some ⟨s, texts⟩ := by
  obtain ⟨front, hsplit⟩ := hs.exists_splitAtByte?
  rw [perform?, hsplit]
  rfl

theorem perform?_consume_of_nil (hs : s.StandsIn source) (hrest : s.reader.rest = []) :
    perform? source ⟨s, texts⟩ .consume = some ⟨s, texts⟩ := by
  obtain ⟨front, hsplit⟩ := hs.exists_splitAtByte?
  rw [perform?, hsplit, hrest]

theorem perform?_sliceFrom {cs : List Char} (hs : s.StandsIn source)
    (hrest : s.reader.rest = cs ++ u.reader.rest)
    (hoffset : u.position.offset = s.position.offset + Text.utf8Length cs) :
    perform? source ⟨u, texts⟩ (.sliceFrom s.position.offset) = some ⟨u, texts ++ [cs]⟩ := by
  obtain ⟨front, hsource, hfront, -⟩ := hs
  rw [perform?, hoffset, hfront, hsource, hrest, Text.slice?_append]
  rfl

/-- What has been read since `s` is sliced from the text. -/
theorem performAll?_sliceFrom_past {cs rest : List Char} (hs : s.StandsIn source)
    (hrest : s.reader.rest = cs ++ rest) :
    performAll? source ⟨s.past cs rest, texts⟩ [.sliceFrom s.position.offset] =
      some ⟨s.past cs rest, texts ++ [cs]⟩ := by
  have hoffset : (s.past cs rest).position.offset = s.position.offset + Text.utf8Length cs := by
    rw [position_past, Position.offset_advanceOver]
  exact performAll?_singleton (perform?_sliceFrom hs hrest hoffset)

theorem perform?_materialize :
    perform? source ⟨s, texts⟩ .materialize = some ⟨s, texts ++ [s.buffer.toList]⟩ := by
  rw [perform?, TextBuffer.materialize?_eq_some]
  rfl

variable (hsource : Text.utf8Length source < Position.bound)
include hsource

theorem perform?_consume {c : Char} {rest : List Char} (hs : s.StandsIn source)
    (hrest : s.reader.rest = c :: rest) :
    perform? source ⟨s, texts⟩ .consume = some ⟨s.past [c] rest, texts⟩ := by
  obtain ⟨front, hsplit⟩ := hs.exists_splitAtByte?
  have hunread := hs.offset_add_unread
  rw [hrest, Text.utf8Length_cons] at hunread
  have hadvance := Position.advance?_eq_some s.reader.tracking (c := c) hs.line_add_column_le
    (by omega)
  rw [perform?, hsplit, hrest]
  simp only [hadvance]
  rfl

/-- A new line starts where a character has been read behind it. -/
theorem perform?_startLineAfter {c : Char} {rest : List Char} (hs : s.StandsIn source)
    (hrest : s.reader.rest = c :: rest) :
    perform? source ⟨u, texts⟩ (.startLineAfter s.position.line) =
      some ⟨{ u with reader := u.reader.startLineAfter s.position.line }, texts⟩ := by
  have hle := hs.line_add_column_le
  have hunread := hs.offset_add_unread
  have hsize := c.utf8Size_pos
  rw [hrest, Text.utf8Length_cons] at hunread
  have hline : s.position.line + 1 < Position.bound := by omega
  rw [perform?, Position.startLineAfter?, if_pos hline]
  rfl

/-! ## Runs of characters -/

theorem performAll?_eating {run rest : List Char} (hs : s.StandsIn source)
    (hrest : s.reader.rest = run ++ rest) :
    performAll? source ⟨s, texts⟩ (eating run) = some ⟨s.past run rest, texts⟩ := by
  induction run generalizing s with
  | nil =>
      rw [List.nil_append] at hrest
      rw [eating, List.flatMap_nil, List.nil_append, performAll?_cons (perform?_peek hs),
        performAll?_nil, Scan.past, Reader.past_nil hrest]
  | cons c run ih =>
      rw [List.cons_append] at hrest
      have hpast : (s.past [c] (run ++ rest)).StandsIn source := hs.past hrest
      have hall : eating (c :: run) = .peek :: .consume :: eating run := rfl
      rw [hall, performAll?_cons (perform?_peek hs),
        performAll?_cons (perform?_consume hsource hs hrest), ih hpast rfl]
      simp [Scan.past]

/-- The characters are gathered as the buffer takes them in, and the scan ends
behind the one that is refused. -/
theorem performAll?_gathering {lead : List Operation} (last : List Operation)
    (hlead : ∀ (u : Scan) (c : Char) (rest : List Char), u.StandsIn source →
      u.reader.rest = c :: rest →
        performAll? source ⟨u, texts⟩ lead = some ⟨u.past [c] rest, texts⟩)
    {run rest : List Char} (hs : s.StandsIn source) (hrest : s.reader.rest = run ++ rest)
    (hcount : s.buffer.count ≤ s.position.offset) :
    performAll? source ⟨s, texts⟩ (gathering lead last s.buffer run) =
      match (s.buffer.fill run).fault with
      | none =>
          performAll? source
            ⟨{ s.past run rest with buffer := (s.buffer.fill run).buffer }, texts⟩ last
      | some _ =>
          some
            ⟨{ s with
                reader := s.reader.skip ((s.buffer.fill run).stored + 1)
                buffer := (s.buffer.fill run).buffer }, texts⟩ := by
  -- What the buffer holds has been read, so its count stays below the bound of the offset.
  induction run generalizing s with
  | nil =>
      rw [List.nil_append] at hrest
      have hhere : { s.past [] rest with buffer := (s.buffer.fill []).buffer } = s := by
        simp only [Scan.past, Reader.past_nil hrest]
        rfl
      rw [gathering, hhere]
      rfl
  | cons c run ih =>
      rw [List.cons_append] at hrest
      have hpast : (s.past [c] (run ++ rest)).StandsIn source := hs.past hrest
      have hunread := hs.offset_add_unread
      rw [hrest, Text.utf8Length_cons] at hunread
      have hsize := c.utf8Size_pos
      have hpush : perform? source ⟨s.past [c] (run ++ rest), texts⟩ (.push c) =
          some (match s.buffer.push c with
            | .ok buffer => ⟨{ s.past [c] (run ++ rest) with buffer }, texts⟩
            | .error _ => ⟨s.past [c] (run ++ rest), texts⟩) := by
        rw [perform?, buffer_past, TextBuffer.push?_eq_some (by omega), Option.map_some]
      rw [gathering, performAll?_append (hlead s c _ hs hrest), performAll?_cons hpush]
      cases hresult : s.buffer.push c with
      | error e =>
          rw [TextBuffer.fill_cons_of_refused hresult]
          simp only [performAll?_nil, Reader.skip_one_eq_past hrest]
          rfl
      | ok b' =>
          obtain ⟨hbuffer, hstored, hfault⟩ := TextBuffer.fill_cons_of_push hresult run
          have hcount' : b'.count ≤ (s.past [c] (run ++ rest)).position.offset := by
            rw [TextBuffer.count_of_push hresult, position_past, Position.offset_advanceOver]
            simp only [Text.utf8Length_cons, Text.utf8Length_nil]
            omega
          have hothers := ih (s := { s.past [c] (run ++ rest) with buffer := b' }) hpast rfl hcount'
          rw [hbuffer, hstored, hfault]
          simp only [hothers]
          cases (b'.fill run).fault with
          | none => simp [Scan.past]
          | some e =>
              simp only [Scan.past, ← Reader.skip_one_eq_past hrest, ← Reader.skip_add,
                Nat.add_comm 1]

/-! ## Tokens -/

theorem performAll?_consume {c : Char} {rest : List Char} (hs : s.StandsIn source)
    (hrest : s.reader.rest = c :: rest) :
    performAll? source ⟨s, texts⟩ [.consume] = some ⟨s.past [c] rest, texts⟩ :=
  performAll?_singleton (perform?_consume hsource hs hrest)

theorem performAll?_peek_consume {c : Char} {rest : List Char} (hs : s.StandsIn source)
    (hrest : s.reader.rest = c :: rest) :
    performAll? source ⟨s, texts⟩ [.peek, .consume] = some ⟨s.past [c] rest, texts⟩ := by
  rw [performAll?_cons (perform?_peek hs), performAll?_consume hsource hs hrest]

theorem performAll?_integerOperations (hs : s.StandsIn source) :
    performAll? source ⟨s, texts⟩ s.integerOperations =
      some ⟨s.integer.scan, texts ++ textsOf s.integer.result⟩ := by
  have hrest := (List.takeWhile_append_dropWhile (p := Char.isDigit) (l := s.reader.rest)).symm
  rw [integerOperations, integer, Reader.takeWhile_eq,
    performAll?_append (performAll?_eating hsource hs hrest)]
  simp only [textsOf_deliver s _ (show Kind.integer ≠ .endOfFile by decide)]
  exact performAll?_sliceFrom_past hs hrest

theorem performAll?_identifierOperations (hs : s.StandsIn source) :
    performAll? source ⟨s, texts⟩ s.identifierOperations =
      some ⟨s.identifier.scan, texts ++ textsOf s.identifier.result⟩ := by
  have hrest := (List.takeWhile_append_dropWhile (p := isIdentifierPart) (l := s.reader.rest)).symm
  rw [identifierOperations, identifier, Reader.takeWhile_eq]
  generalize s.reader.rest.takeWhile isIdentifierPart = word at hrest ⊢
  generalize s.reader.rest.dropWhile isIdentifierPart = rest at hrest ⊢
  have hreset : perform? source ⟨s, texts⟩ .reset =
      some ⟨{ s with buffer := s.buffer.reset }, texts⟩ := rfl
  rw [performAll?_cons hreset, performAll?_gathering hsource [.peek, .materialize]
    (fun _ _ _ hu hrest => performAll?_peek_consume hsource hu hrest)
    (s := { s with buffer := s.buffer.reset }) hs hrest (Nat.zero_le _)]
  simp only [Step.behind]
  cases (s.buffer.reset.fill word).fault with
  | some e => simp [textsOf, overflow]
  | none =>
      have hlast : StandsIn source
          { s.past word rest with buffer := (s.buffer.reset.fill word).buffer } := hs.past hrest
      simp only [textsOf_deliver _ _ (show Kind.identifier ≠ .endOfFile by decide)]
      exact (performAll?_cons (perform?_peek hlast) _).trans
        (performAll?_singleton perform?_materialize)

theorem performAll?_stringOperations {c : Char} {cs : List Char} (hs : s.StandsIn source)
    (hopen : s.reader.rest = c :: cs) :
    performAll? source ⟨s, texts⟩ s.stringOperations =
      some ⟨s.string.scan, texts ++ textsOf s.string.result⟩ := by
  have hpast : (s.past [c] cs).StandsIn source := hs.past hopen
  have hrest := (List.takeWhile_append_dropWhile (p := (· != '"')) (l := cs)).symm
  rw [stringOperations, string, Reader.skip_one_eq_past hopen, Reader.takeWhile_eq,
    Reader.rest_past]
  generalize cs.takeWhile (· != '"') = body at hrest ⊢
  generalize cs.dropWhile (· != '"') = rest at hrest ⊢
  have hreset : perform? source ⟨s.past [c] cs, texts⟩ .reset =
      some ⟨{ s.past [c] cs with buffer := s.buffer.reset }, texts⟩ := rfl
  rw [performAll?_cons (perform?_consume hsource hs hopen), performAll?_cons hreset,
    performAll?_gathering hsource _
      (fun _ _ _ hu hrest => performAll?_consume hsource hu hrest)
      (s := { s.past [c] cs with buffer := s.buffer.reset }) hpast hrest (Nat.zero_le _)]
  simp only [Step.behind]
  cases (s.buffer.reset.fill body).fault with
  | some e => simp [textsOf, overflow, Scan.past]
  | none =>
      have hlast : StandsIn source
          { (s.past [c] cs).past body rest with
            buffer := (s.buffer.reset.fill body).buffer } := hpast.past hrest
      -- The quotation mark is read, unless the text ends before it.
      cases rest with
      | nil =>
          simp only [Reader.peek?, Reader.rest_past, List.head?_nil, abort, textsOf_error,
            List.append_nil]
          exact performAll?_singleton (perform?_consume_of_nil hlast rfl)
      | cons q rest =>
          simp only [Reader.peek?, Reader.rest_past, List.head?_cons,
            textsOf_deliver _ _ (show Kind.string ≠ .endOfFile by decide)]
          exact (performAll?_cons (perform?_consume hsource hlast rfl) _).trans
            (performAll?_singleton perform?_materialize)

theorem performAll?_lineBreakOperations {c : Char} {cs : List Char} (hs : s.StandsIn source)
    (hopen : s.reader.rest = c :: cs) :
    performAll? source ⟨s, texts⟩ s.lineBreakOperations =
      some ⟨s.lineBreak.scan, texts ++ textsOf s.lineBreak.result⟩ := by
  have hend : ∀ run rest, s.reader.rest = run ++ rest →
      performAll? source ⟨s.past run rest, texts⟩
          [.startLineAfter s.position.line, .sliceFrom s.position.offset] =
        some ⟨{ s with reader := (s.reader.past run rest).startLineAfter s.position.line },
          texts ++ [run]⟩ := by
    intro run rest hrest
    rw [performAll?_cons (perform?_startLineAfter hsource hs hopen)]
    exact performAll?_singleton (perform?_sliceFrom hs hrest (Position.offset_advanceOver ..))
  rw [lineBreakOperations, lineBreak]
  simp only [textsOf_deliver s _ (show Kind.lineBreak ≠ .endOfFile by decide)]
  by_cases hpair : s.reader.peekNth? 1 = some '\r'
  · obtain ⟨rest, rfl⟩ : ∃ rest, cs = '\r' :: rest := by
      rw [Reader.peekNth?, hopen] at hpair
      cases cs with
      | nil => cases hpair
      | cons d rest => exact ⟨rest, by simpa using hpair⟩
    have hpast : (s.past [c] ('\r' :: rest)).StandsIn source := hs.past hopen
    have hboth : (s.past [c] ('\r' :: rest)).past ['\r'] rest = s.past [c, '\r'] rest := by
      simp [Scan.past]
    have hskip := Reader.skip_eq_past [c, '\r'] hopen
    simp only [if_pos hpair, List.replicate, List.cons_append, List.nil_append]
    rw [performAll?_cons (perform?_peek hs), performAll?_cons (perform?_consume hsource hs hopen),
      performAll?_cons (perform?_consume hsource hpast rfl), hboth,
      hend [c, '\r'] rest hopen, ← hskip, hopen]
    rfl
  · have hskip := Reader.skip_one_eq_past hopen
    simp only [if_neg hpair, List.replicate, List.cons_append, List.nil_append]
    rw [performAll?_cons (perform?_peek hs), performAll?_cons (perform?_consume hsource hs hopen),
      hend [c] cs hopen, hopen]
    simp only [deliver, hskip]
    rfl

theorem performAll?_symbolOperations {c : Char} {cs : List Char} {kind : Kind}
    (hkind : kind ≠ .endOfFile) (hs : s.StandsIn source) (hopen : s.reader.rest = c :: cs) :
    performAll? source ⟨s, texts⟩ s.symbolOperations =
      some ⟨(s.symbol kind).scan, texts ++ textsOf (s.symbol kind).result⟩ := by
  rw [symbolOperations, symbol, textsOf_deliver s _ hkind, Reader.skip_one_eq_past hopen, hopen,
    performAll?_cons (perform?_consume hsource hs hopen)]
  exact performAll?_sliceFrom_past hs hopen

theorem performAll?_readOperations {c : Char} {cs : List Char} {opening : Opening}
    (hc : Opening.ofChar? c = some opening) (hs : s.StandsIn source)
    (hopen : s.reader.rest = c :: cs) :
    performAll? source ⟨s, texts⟩ (s.readOperations opening) =
      some ⟨(s.read opening).scan, texts ++ textsOf (s.read opening).result⟩ := by
  cases opening with
  | integer => exact performAll?_integerOperations hsource hs
  | string => exact performAll?_stringOperations hsource hs hopen
  | lineBreak => exact performAll?_lineBreakOperations hsource hs hopen
  | identifier => exact performAll?_identifierOperations hsource hs
  | symbol kind =>
      have hkind : kind ≠ .endOfFile := by
        rintro rfl
        obtain ⟨hsymbol, -⟩ := Opening.symbol_of_ofChar? hc
        cases hsymbol
      exact performAll?_symbolOperations hsource hkind hs hopen

/-! ## Calls -/

/-- No check fails, and the text of the token is what was taken for it. -/
theorem performAll?_operations (hs : s.StandsIn source) :
    performAll? source ⟨s, texts⟩ s.operations =
      some ⟨s.nextToken.scan, texts ++ textsOf s.nextToken.result⟩ := by
  have hrest := (List.takeWhile_append_dropWhile (p := isBlank) (l := s.reader.rest)).symm
  have hblanks : s.skipBlanks =
      s.past (s.reader.rest.takeWhile isBlank) (s.reader.rest.dropWhile isBlank) := by
    rw [skipBlanks, Reader.takeWhile_eq]
    rfl
  have hskipped : s.skipBlanks.StandsIn source := by
    rw [hblanks]
    exact hs.past hrest
  have heat : performAll? source ⟨s, texts⟩ (eating (s.reader.rest.takeWhile isBlank)) =
      some ⟨s.skipBlanks, texts⟩ := by
    rw [hblanks]
    exact performAll?_eating hsource hs hrest
  rw [operations, nextToken, Reader.takeWhile_eq, performAll?_append heat,
    performAll?_cons (perform?_peek hskipped)]
  cases hnext : s.skipBlanks.reader.rest with
  | nil =>
      simp only [Reader.peek?, hnext, List.head?_nil, textsOf_endOfFile, List.append_nil]
      rfl
  | cons c cs =>
      simp only [Reader.peek?, hnext, List.head?_cons]
      cases hopening : Opening.ofChar? c with
      | none =>
          simp only [abort, textsOf_error, List.append_nil]
          rfl
      | some opening => exact performAll?_readOperations hsource hopening hskipped hnext

theorem performAll?_operationsOver (hs : s.StandsIn source) (k : Nat) :
    performAll? source ⟨s, texts⟩ (s.operationsOver k) =
      some ⟨s.after k, texts ++ s.textsOver k⟩ := by
  induction k generalizing s texts with
  | zero =>
      rw [textsOver, List.range_zero, List.flatMap_nil, List.append_nil]
      rfl
  | succ k ih =>
      rw [operationsOver, performAll?_append (performAll?_operations hsource hs), after,
        ih (hs.moves s.moves_nextToken), textsOver_succ, List.append_assoc]

end Perform

end Scan

end Lexing
