import Lexing.Proofs.Calls

/-!
# Two scans of one text

Scans that stand before the same text read it alike, wherever they stand and
whatever starts a line for them: a position is only reported and decides
nothing. `f` and `g` are views of positions that look the same through a whole
reading if they do so at its start. Then a call gives both scans results that
look the same, and so does every list of calls.
-/

namespace Lexing

/-- If `f` shows one position as `g` shows the other, they still do so behind a
character and behind a line break, where the scans count lines in these modes. -/
structure Corresponds (f g : Position → Position) (mode mode' : LineTracking) : Prop where
  advance : ∀ {p q : Position}, f p = g q → ∀ c, f (p.advance mode c) = g (q.advance mode' c)
  startLineAfter : ∀ {p q p' q' : Position}, f p = g q → f p' = g q' →
    f (p'.startLineAfter p.line) = g (q'.startLineAfter q.line)

namespace Corresponds

variable {f g : Position → Position} {mode mode' : LineTracking} {p q : Position}

theorem advanceOver (h : Corresponds f g mode mode') (hpq : f p = g q) (cs : List Char) :
    f (p.advanceOver mode cs) = g (q.advanceOver mode' cs) := by
  induction cs generalizing p q with
  | nil => exact hpq
  | cons c cs ih => exact ih (h.advance hpq c)

theorem endPosition (h : Corresponds f g mode mode') (hpq : f p = g q) (l : Lexeme) :
    f (l.endPosition mode p) = g (l.endPosition mode' q) := by
  unfold Lexeme.endPosition
  split
  · exact h.startLineAfter hpq (h.advanceOver hpq l.spelling)
  · exact h.advanceOver hpq l.spelling

end Corresponds

/-! ## Results through a view -/

section View

variable (f : Position → Position)

def Token.mapPosition (t : Token) : Token := { t with position := f t.position }

/-- The fault with its position seen through the view, if it has one. -/
def Fault.mapPosition : Fault → Fault
  | .unexpectedCharacter c p => .unexpectedCharacter c (f p)
  | .unterminatedString p => .unterminatedString (f p)
  | .bufferExhausted capacity => .bufferExhausted capacity

def mapResult : Except Fault Token → Except Fault Token
  | .ok t => .ok (t.mapPosition f)
  | .error e => .error (e.mapPosition f)

/-- The answer with all of its tokens and its fault seen through the view. -/
def Answer.mapPositions : Answer → Answer
  | .token result => .token (mapResult f result)
  | .item result => .item (result.map (mapResult f))
  | .tokens (.ok ts) => .tokens (.ok (ts.map (Token.mapPosition f)))
  | .tokens (.error e) => .tokens (.error (e.mapPosition f))

@[simp] theorem Token.isEndOfFile_mapPosition (t : Token) :
    (t.mapPosition f).isEndOfFile = t.isEndOfFile := rfl

theorem Scan.isLast_mapResult (result : Except Fault Token) :
    Scan.isLast (mapResult f result) = Scan.isLast result := by
  cases result <;> rfl

theorem Scan.filter_keeps_map_mapPosition (ignore : Bool) (ts : List Token) :
    (ts.map (Token.mapPosition f)).filter (Scan.keeps ignore) =
      (ts.filter (Scan.keeps ignore)).map (Token.mapPosition f) := by
  rw [List.filter_map]
  rfl

end View

@[simp] theorem Fault.mapPosition_id (e : Fault) : e.mapPosition id = e := by
  cases e <;> rfl

@[simp] theorem mapResult_id (result : Except Fault Token) : mapResult id result = result := by
  cases result with
  | ok t => rfl
  | error e => rw [mapResult, Fault.mapPosition_id]

@[simp] theorem Answer.mapPositions_id (a : Answer) : a.mapPositions id = a := by
  have htoken : Token.mapPosition id = id := rfl
  have hresult : mapResult id = id := funext mapResult_id
  cases a with
  | token result => rw [mapPositions, mapResult_id]
  | item result => rw [mapPositions, hresult, Option.map_id, id]
  | tokens result =>
      cases result with
      | ok ts => rw [mapPositions, htoken, List.map_id]
      | error e => rw [mapPositions, Fault.mapPosition_id]

/-- Results that look the same are both tokens or both faults. -/
theorem mapResult_eq_cases {f g : Position → Position} {r r' : Except Fault Token}
    (h : mapResult f r = mapResult g r') :
    (∃ a b, r = .ok a ∧ r' = .ok b ∧ a.mapPosition f = b.mapPosition g) ∨
      ∃ e e', r = .error e ∧ r' = .error e' ∧ e.mapPosition f = e'.mapPosition g := by
  cases r with
  | ok a =>
      cases r' with
      | ok b => exact .inl ⟨a, b, rfl, rfl, Except.ok.inj h⟩
      | error e' => cases h
  | error e =>
      cases r' with
      | ok b => cases h
      | error e' => exact .inr ⟨e, e', rfl, rfl, Except.error.inj h⟩

namespace Scan

variable {f g : Position → Position} {s t : Scan}

/-! ## One call -/

/-- Both scans stand before the same text, at positions that look the same. Their
buffers may differ. -/
structure Matches (f g : Position → Position) (s t : Scan) : Prop where
  rest : t.reader.rest = s.reader.rest
  modes : Corresponds f g s.reader.tracking t.reader.tracking
  position : f s.position = g t.position

namespace Matches

theorem past (h : Matches f g s t) (cs rest : List Char) :
    Matches f g (s.past cs rest) (t.past cs rest) :=
  ⟨rfl, h.modes, h.modes.advanceOver h.position cs⟩

/-- The readers move alike, whatever becomes of the buffers. -/
theorem skip (h : Matches f g s t) (n : Nat) (b b' : TextBuffer) :
    Matches f g { s with reader := s.reader.skip n, buffer := b }
      { t with reader := t.reader.skip n, buffer := b' } := by
  refine ⟨?_, h.modes, ?_⟩
  · show t.reader.rest.drop n = s.reader.rest.drop n
    rw [h.rest]
  · show f (s.position.advanceOver s.reader.tracking (s.reader.rest.take n)) =
      g (t.position.advanceOver t.reader.tracking (t.reader.rest.take n))
    rw [h.rest]
    exact h.modes.advanceOver h.position _

theorem behind (h : Matches f g s t) (l : Lexeme) (rest : List Char) :
    Matches f g (s.behind l rest) (t.behind l rest) :=
  ⟨rfl, h.modes, h.modes.endPosition h.position l⟩

/-- If the buffers take the run alike that the call gathers, both calls give
results that look the same and move the readers alike. Buffers that were equal
remain so. -/
theorem nextToken (h : Matches f g s t)
    (hfault : ∀ lead run, s.Collects lead run →
      (t.buffer.reset.fill run).fault = (s.buffer.reset.fill run).fault) :
    mapResult f s.nextToken.result = mapResult g t.nextToken.result ∧
      Matches f g s.nextToken.scan t.nextToken.scan ∧
      (t.buffer = s.buffer → t.nextToken.scan.buffer = s.nextToken.scan.buffer) := by
  have hout := s.nextToken_outcome
  generalize s.nextToken = step at hout ⊢
  cases hout with
  | @endOfFile gap hgap hrest =>
      have hpast := h.past gap []
      rw [nextToken_of_gap hgap (h.rest.trans hrest)]
      exact ⟨congrArg (fun p => Except.ok (Token.endOfFile p)) hpast.position, hpast, id⟩
  | @foreign gap rest c hgap hc hrest =>
      have hpast := h.past gap (c :: rest)
      rw [nextToken_of_foreign hgap hc (h.rest.trans hrest)]
      exact ⟨congrArg (fun p => Except.error (Fault.unexpectedCharacter c p)) hpast.position,
        hpast, id⟩
  | @openString gap body hgap hbody hfit hrest =>
      have hrun : Gathers ('"' :: body) ['"'] body := .string (by simp) hbody (EndsRun.nil _)
      have hsame := hfault _ body ⟨gap, ['"'], _, rfl, hgap, hrest, hrun⟩
      rw [(TextBuffer.fault_fill_eq_none_iff _ _).mpr hfit,
        TextBuffer.fault_fill_eq_none_iff] at hsame
      have hpast := h.past gap ('"' :: body)
      rw [nextToken_of_openString hgap hbody hsame (h.rest.trans hrest)]
      refine ⟨congrArg (fun p => Except.error (Fault.unterminatedString p)) hpast.position,
        ⟨rfl, h.modes, (hpast.past ('"' :: body) []).position⟩, ?_⟩
      · intro hbuffer
        show (t.buffer.reset.fill body).buffer = (s.buffer.reset.fill body).buffer
        rw [hbuffer]
  | @refusal gap text front run e hgap hrun he hrest =>
      have hsame := hfault _ run ⟨gap, front, text, rfl, hgap, hrest, hrun⟩
      rw [he] at hsame
      have hpast := h.past gap text
      rw [nextToken_of_gathers hgap hrun hsame (h.rest.trans hrest)]
      refine ⟨rfl, ?_, ?_⟩
      · -- Both buffers hold as many characters as the fault says.
        rw [refusal, refusal, buffer_past, buffer_past, TextBuffer.stored_fill_reset he,
          TextBuffer.stored_fill_reset hsame]
        exact hpast.skip _ _ _
      · intro hbuffer
        show (t.buffer.reset.fill run).buffer = (s.buffer.reset.fill run).buffer
        rw [hbuffer]
  | @lexeme gap rest l hgap hl hend hfit hrest =>
      have hfit' : l.FitsIn t.buffer := by
        intro hgathered
        have hrun := gathers_of_isGathered hl hend hgathered
        have hsame := hfault _ _ ⟨gap, l.opener, _, rfl, hgap, hrest, hrun⟩
        rw [(TextBuffer.fault_fill_eq_none_iff _ _).mpr (hfit hgathered)] at hsame
        exact (TextBuffer.fault_fill_eq_none_iff _ _).mp hsame
      have hpast := h.past gap (l.spelling ++ rest)
      rw [nextToken_of_lexeme hgap hl hend hfit' (h.rest.trans hrest)]
      refine ⟨congrArg (fun p => Except.ok (l.tokenAt p)) hpast.position, hpast.behind l rest, ?_⟩
      · intro hbuffer
        show (l.fill t.buffer).buffer = (l.fill s.buffer).buffer
        rw [hbuffer]

end Matches

/-! ## All calls -/

/-- The relation is kept by `nextToken`, with results that look the same, and it
leaves the iteration out. -/
structure Simulates (f g : Position → Position) (R : Scan → Scan → Prop) : Prop where
  nextToken : ∀ {s t : Scan}, R s t →
    mapResult f s.nextToken.result = mapResult g t.nextToken.result ∧
      R s.nextToken.scan t.nextToken.scan
  finished : ∀ {s t : Scan}, R s t → ∀ a b : Bool,
    R { s with finished := a } { t with finished := b }

end Scan

/-- Whether a call does not depend on the flags of a scan. -/
def Call.isDirect : Call → Bool
  | .nextToken | .tokens _ => true
  | .next | .wantedTokens => false

namespace Scan.Simulates

variable {f g : Position → Position} {R : Scan → Scan → Prop} {s t : Scan}

theorem delivers (h : Simulates f g R) {last : Scan} {ts : List Token} {log : List Event}
    (hrun : s.Delivers ts log last) (hst : R s t) :
    ∃ us log' last', t.Delivers us log' last' ∧
      ts.map (Token.mapPosition f) = us.map (Token.mapPosition g) ∧ R last last' := by
  induction hrun generalizing t with
  | nil s => exact ⟨[], [], t, .nil t, rfl, hst⟩
  | @cons s last a ts log ha hmore _ ih =>
      obtain ⟨hresult, hscan⟩ := h.nextToken hst
      obtain ⟨us, log', last', hothers, hsame, hlast⟩ := ih hscan
      rcases mapResult_eq_cases hresult with ⟨a', b, ha', hb, hab⟩ | ⟨e, _, he, -, -⟩
      · obtain rfl : a' = a := Except.ok.inj (ha'.symm.trans ha)
        have hmore' : b.isEndOfFile = false := by
          rw [← Token.isEndOfFile_mapPosition g, ← hab]
          exact hmore
        refine ⟨b :: us, _, last', .cons hb hmore' hothers, ?_, hlast⟩
        rw [List.map_cons, List.map_cons, hab, hsame]
      · rw [ha] at he
        cases he

theorem tokens (h : Simulates f g R) (hst : R s t) (ignore : Bool) :
    (Answer.tokens (s.tokens ignore).result).mapPositions f =
        (Answer.tokens (t.tokens ignore).result).mapPositions g ∧
      R (s.tokens ignore).scan (t.tokens ignore).scan := by
  obtain ⟨ts, log, last, hrun, hstop⟩ := s.exists_delivers
  obtain ⟨us, log', last', hrun', hsame, hlast⟩ := h.delivers hrun hst
  obtain ⟨hresult, hscan⟩ := h.nextToken hlast
  rcases mapResult_eq_cases hresult with ⟨a, b, ha, hb, hab⟩ | ⟨e, e', he, he', hee⟩
  · have hend := hstop a ha
    have hend' : b.isEndOfFile = true := by
      rw [← Token.isEndOfFile_mapPosition g, ← hab]
      exact hend
    rw [tokens_of_delivers_of_endOfFile hrun ha hend, tokens_of_delivers_of_endOfFile hrun' hb hend']
    refine ⟨?_, hscan⟩
    rw [Answer.mapPositions, Answer.mapPositions, List.map_append, List.map_append,
      ← filter_keeps_map_mapPosition, ← filter_keeps_map_mapPosition, hsame, List.map_singleton,
      List.map_singleton, hab]
  · rw [tokens_of_delivers_of_error hrun he, tokens_of_delivers_of_error hrun' he']
    refine ⟨?_, hscan⟩
    rw [Answer.mapPositions, Answer.mapPositions, hee]

/-- A call gives answers that look the same on both scans, if it does not depend
on their flags or if these are the same. -/
theorem call (h : Simulates f g R) (hst : R s t) {c : Call}
    (hc : c.isDirect = true ∨ SameFlags s t) :
    (s.call c).result.mapPositions f = (t.call c).result.mapPositions g ∧
      R (s.call c).scan (t.call c).scan ∧
      (SameFlags s t → SameFlags (s.call c).scan (t.call c).scan) := by
  obtain ⟨hresult, hscan⟩ := h.nextToken hst
  cases c with
  | nextToken => exact ⟨congrArg Answer.token hresult, hscan, SameFlags.nextToken⟩
  | tokens ignore =>
      obtain ⟨hall, hlast⟩ := h.tokens hst ignore
      exact ⟨hall, hlast, fun hflags => hflags.tokens ignore⟩
  | wantedTokens =>
      rcases hc with hdirect | hflags
      · cases hdirect
      · obtain ⟨hall, hlast⟩ := h.tokens hst s.ignoreLineBreaks
        rw [Scan.call, Scan.call, wantedTokens, wantedTokens, hflags.ignoreLineBreaks]
        exact ⟨hall, hlast, fun _ => hflags.tokens _⟩
  | next =>
      rcases hc with hdirect | hflags
      · cases hdirect
      · rcases s.call_next_cases with ⟨hs, hcall⟩ | ⟨hs, hcall⟩
        · rcases t.call_next_cases with ⟨_, hcall'⟩ | ⟨ht, _⟩
          · rw [hcall, hcall']
            exact ⟨rfl, hst, id⟩
          · rw [hflags.finished, hs] at ht
            cases ht
        · rcases t.call_next_cases with ⟨ht, _⟩ | ⟨_, hcall'⟩
          · rw [hflags.finished, hs] at ht
            cases ht
          · have hlast : isLast t.nextToken.result = isLast s.nextToken.result := by
              rw [← isLast_mapResult g, ← hresult, isLast_mapResult]
            rw [hcall, hcall']
            refine ⟨congrArg (fun r => Answer.item (some r)) hresult, h.finished hscan _ _, ?_⟩
            intro _
            exact ⟨hlast, hflags.nextToken.ignoreLineBreaks⟩

theorem calls (h : Simulates f g R) (hst : R s t) (cs : List Call)
    (hcs : (∀ c ∈ cs, c.isDirect = true) ∨ SameFlags s t) :
    (s.calls cs).result.map (Answer.mapPositions f) =
        (t.calls cs).result.map (Answer.mapPositions g) ∧
      R (s.calls cs).scan (t.calls cs).scan := by
  induction cs generalizing s t with
  | nil => exact ⟨rfl, hst⟩
  | cons c cs ih =>
      have hfirst : c.isDirect = true ∨ SameFlags s t :=
        hcs.imp_left fun hall => hall c List.mem_cons_self
      obtain ⟨hanswer, hscan, hflags⟩ := h.call hst hfirst
      have hothers := hcs.imp (fun hall d hd => hall d (List.mem_cons_of_mem c hd)) hflags
      obtain ⟨hanswers, hlast⟩ := ih hscan hothers
      refine ⟨?_, hlast⟩
      rw [Scan.calls, Scan.calls, List.map_cons, List.map_cons, hanswer, hanswers]

end Scan.Simulates

end Lexing
