import Lexing.Proofs.Correspondence

/-!
# The same text in another place

Where a text stands behind another one, every position in it is shifted: the
offset and the line count on from where the text begins, and so does the column
as long as the first line lasts. Reading commutes with that, and so does a
call: two scans before the same text, whose positions differ by a shift, give
results that differ by the same shift, if their buffers take the same runs.
-/

namespace Lexing

namespace Position

/-- The position `q` of a text that begins at position `p`. -/
def shiftBy (q p : Position) : Position :=
  { offset := p.offset + q.offset
    line := p.line + q.line
    column := if q.line = 0 then p.column + q.column else q.column }

@[simp] theorem shiftBy_start (q : Position) : q.shiftBy {} = q := by
  simp [shiftBy]

variable (p q : Position) (mode : LineTracking)

theorem advance_shiftBy (c : Char) :
    (q.shiftBy p).advance mode c = (q.advance mode c).shiftBy p := by
  by_cases hbreak : mode.breaksAt c = true
  · simp [advance, shiftBy, hbreak, Nat.add_assoc]
  · by_cases hline : q.line = 0
    · simp [advance, shiftBy, hbreak, hline, Nat.add_assoc]
    · simp [advance, shiftBy, hbreak, hline, Nat.add_assoc]

/-- The line counts on, and its first column is the first one anywhere. -/
theorem startLineAfter_shiftBy (line : Nat) :
    (q.shiftBy p).startLineAfter (p.line + line) = (q.startLineAfter line).shiftBy p := by
  simp [startLineAfter, shiftBy, Nat.add_assoc]

end Position

/-- A text that begins at `p` is read as one that begins at the start. -/
theorem corresponds_shiftBy (p : Position) (mode : LineTracking) :
    Corresponds (Position.shiftBy · p) id mode mode where
  advance := by
    rintro q _ rfl c
    exact (Position.advance_shiftBy p q mode c).symm
  startLineAfter := by
    rintro q _ q' _ rfl rfl
    exact (Position.startLineAfter_shiftBy p q' q.line).symm

/-! ## Shifted results -/

def Token.shiftBy (t : Token) (p : Position) : Token := { t with position := t.position.shiftBy p }

/-- The fault with its position shifted, if it has one. -/
def Fault.shiftBy (e : Fault) (p : Position) : Fault :=
  match e with
  | .unexpectedCharacter c q => .unexpectedCharacter c (q.shiftBy p)
  | .unterminatedString q => .unterminatedString (q.shiftBy p)
  | .bufferExhausted capacity => .bufferExhausted capacity

def shiftResult (p : Position) : Except Fault Token → Except Fault Token
  | .ok t => .ok (t.shiftBy p)
  | .error e => .error (e.shiftBy p)

/-- The answer with all of its tokens and its fault shifted. -/
def Answer.shiftBy (a : Answer) (p : Position) : Answer :=
  match a with
  | .token result => .token (shiftResult p result)
  | .item result => .item (result.map (shiftResult p))
  | .tokens (.ok ts) => .tokens (.ok (ts.map (·.shiftBy p)))
  | .tokens (.error e) => .tokens (.error (e.shiftBy p))

theorem mapResult_shiftBy (p : Position) (result : Except Fault Token) :
    mapResult (Position.shiftBy · p) result = shiftResult p result := by
  cases result with
  | ok t => rfl
  | error e => cases e <;> rfl

theorem Answer.mapPositions_shiftBy (p : Position) (a : Answer) :
    a.mapPositions (Position.shiftBy · p) = a.shiftBy p := by
  have hresult : mapResult (Position.shiftBy · p) = shiftResult p :=
    funext (mapResult_shiftBy p)
  cases a with
  | token result => rw [mapPositions, hresult, shiftBy]
  | item result => rw [mapPositions, hresult, shiftBy]
  | tokens result =>
      cases result with
      | ok ts => rfl
      | error e => cases e <;> rfl

@[simp] theorem Token.shiftBy_start (t : Token) : t.shiftBy {} = t := by
  simp [Token.shiftBy]

@[simp] theorem Fault.shiftBy_start (e : Fault) : e.shiftBy {} = e := by
  cases e <;> simp [Fault.shiftBy]

@[simp] theorem shiftResult_start (result : Except Fault Token) :
    shiftResult {} result = result := by
  cases result <;> simp [shiftResult]

@[simp] theorem Answer.shiftBy_start (a : Answer) : a.shiftBy {} = a := by
  have hresult : shiftResult {} = id := funext shiftResult_start
  cases a with
  | token result => simp [Answer.shiftBy]
  | item result => simp [Answer.shiftBy, hresult]
  | tokens result => cases result <;> simp [Answer.shiftBy]

namespace Scan

/-- Both scans stand before the same text, `t` at the position of `s` in a text
that begins at `p`. Their buffers may differ. -/
structure Shifted (p : Position) (s t : Scan) : Prop where
  rest : t.reader.rest = s.reader.rest
  tracking : t.reader.tracking = s.reader.tracking
  position : t.position = s.position.shiftBy p

namespace Shifted

variable {p : Position} {s t : Scan}

theorem toMatches (h : Shifted p s t) : Matches (Position.shiftBy · p) id s t where
  rest := h.rest
  modes := by
    rw [h.tracking]
    exact corresponds_shiftBy p _
  position := h.position.symm

/-- If the buffers take the run alike that the call gathers, both calls give the
same result at their positions and move the readers alike. -/
theorem nextToken (h : Shifted p s t)
    (hfault : ∀ lead run, s.Collects lead run →
      (t.buffer.reset.fill run).fault = (s.buffer.reset.fill run).fault) :
    t.nextToken.result = shiftResult p s.nextToken.result ∧
      Shifted p s.nextToken.scan t.nextToken.scan := by
  obtain ⟨hresult, hscan, -⟩ := h.toMatches.nextToken hfault
  rw [mapResult_shiftBy, mapResult_id] at hresult
  refine ⟨hresult.symm, hscan.rest, ?_, hscan.position.symm⟩
  rw [tracking_nextToken, tracking_nextToken, h.tracking]

end Shifted

end Scan

end Lexing
