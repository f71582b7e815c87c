import Lexing.Proofs.Calls
import Lexing.Proofs.LineColumn

/-!
# Every position of every run

`Scan.Moves` says that calls read a part of the text in a journey that passes
certain positions on the way. One call does, hence every list of calls, and
the positions that are passed are those of the answers. Each of them is
therefore the position that is counted at its offset, whatever the calls
before it were and whether or not they failed.
-/

namespace Lexing

/-- The line break tokens among those that events report. -/
def lineBreaks (log : List Event) : List Token := (delivered log).filter (·.kind = .lineBreak)

@[simp] theorem lineBreaks_append (log log' : List Event) :
    lineBreaks (log ++ log') = lineBreaks log ++ lineBreaks log' := by
  simp [lineBreaks]

@[simp] theorem lineBreaks_map_bufferGrown (growths : List Growth) :
    lineBreaks (growths.map .bufferGrown) = [] := by
  simp [lineBreaks]

/-- A journey from `p` to `q` that leads over the position `x`. -/
def Passes (mode : LineTracking) (p : Position) (cs : List Char) (ts : List Token)
    (q x : Position) : Prop :=
  ∃ cs₁ cs₂ ts₁ ts₂, cs = cs₁ ++ cs₂ ∧ ts = ts₁ ++ ts₂ ∧ Journey mode p cs₁ ts₁ x ∧
    Journey mode x cs₂ ts₂ q

namespace Passes

variable {mode : LineTracking} {p q r x : Position} {cs ds : List Char} {ts us : List Token}

theorem append (h : Passes mode p cs ts q x) (h' : Journey mode q ds us r) :
    Passes mode p (cs ++ ds) (ts ++ us) r x := by
  obtain ⟨cs₁, cs₂, ts₁, ts₂, rfl, rfl, hfirst, hthen⟩ := h
  exact ⟨cs₁, cs₂ ++ ds, ts₁, ts₂ ++ us, List.append_assoc .., List.append_assoc .., hfirst,
    hthen.trans h'⟩

theorem behind (h : Journey mode p cs ts q) (h' : Passes mode q ds us r x) :
    Passes mode p (cs ++ ds) (ts ++ us) r x := by
  obtain ⟨ds₁, ds₂, us₁, us₂, rfl, rfl, hfirst, hthen⟩ := h'
  exact ⟨cs ++ ds₁, ds₂, ts ++ us₁, us₂, (List.append_assoc ..).symm, (List.append_assoc ..).symm,
    h.trans hfirst, hthen⟩

theorem last (h : Journey mode p cs ts q) : Passes mode p cs ts q q :=
  ⟨cs, [], ts, [], (List.append_nil cs).symm, (List.append_nil ts).symm, h, .nil⟩

end Passes

namespace Scan

/-- Calls that lead from `s` to `s'` and leave the events `log` read what lies
between both, and pass the positions `marks` on the way, in this order. -/
structure Moves (s : Scan) (log : List Event) (s' : Scan) (marks : List Position) : Prop where
  tracking : s'.reader.tracking = s.reader.tracking
  journey : ∃ cs, s.reader.rest = cs ++ s'.reader.rest ∧
    Journey s.reader.tracking s.position cs (lineBreaks log) s'.position ∧
    ∀ x ∈ marks, Passes s.reader.tracking s.position cs (lineBreaks log) s'.position x
  ordered : marks.Pairwise fun x y => ∃ cs ts, Journey s.reader.tracking x cs ts y

namespace Moves

variable {s s' s'' : Scan} {log log' : List Event} {marks marks' : List Position}

theorem refl (s : Scan) : s.Moves [] s [] :=
  ⟨rfl, ⟨[], rfl, .nil, by simp⟩, .nil⟩

theorem trans (h : s.Moves log s' marks) (h' : s'.Moves log' s'' marks') :
    s.Moves (log ++ log') s'' (marks ++ marks') := by
  obtain ⟨htracking, ⟨cs, hrest, hjourney, hmarks⟩, hordered⟩ := h
  obtain ⟨htracking', ⟨ds, hrest', hjourney', hmarks'⟩, hordered'⟩ := h'
  rw [htracking] at hjourney' hmarks' hordered'
  refine ⟨htracking'.trans htracking, ⟨cs ++ ds, ?_, ?_, ?_⟩, ?_⟩
  · rw [hrest, hrest', List.append_assoc]
  · rw [lineBreaks_append]
    exact hjourney.trans hjourney'
  · intro x hx
    rw [lineBreaks_append]
    rcases List.mem_append.mp hx with hx | hx
    · exact (hmarks x hx).append hjourney'
    · exact Passes.behind hjourney (hmarks' x hx)
  · rw [List.pairwise_append]
    refine ⟨hordered, hordered', ?_⟩
    -- From one part to the other, the way leads over the scan between both.
    intro x hx y hy
    obtain ⟨_, cs₂, _, ts₂, _, _, _, hto⟩ := hmarks x hx
    obtain ⟨ds₁, _, us₁, _, _, _, hfrom, _⟩ := hmarks' y hy
    exact ⟨cs₂ ++ ds₁, ts₂ ++ us₁, hto.trans hfrom⟩

theorem mono (h : s.Moves log s' marks) (hsub : marks'.Sublist marks) :
    s.Moves log s' marks' := by
  obtain ⟨htracking, ⟨cs, hrest, hjourney, hmarks⟩, hordered⟩ := h
  exact ⟨htracking, ⟨cs, hrest, hjourney, fun x hx => hmarks x (hsub.subset hx)⟩,
    hordered.sublist hsub⟩

/-- Reading without a line break token, first a gap and then the rest. -/
theorem of_gap (gap cs : List Char) (htracking : s'.reader.tracking = s.reader.tracking)
    (hrest : s.reader.rest = gap ++ (cs ++ s'.reader.rest))
    (hposition : s'.position =
      (s.position.advanceOver s.reader.tracking gap).advanceOver s.reader.tracking cs)
    (hlog : lineBreaks log = []) :
    s.Moves log s' [s.position.advanceOver s.reader.tracking gap] := by
  have hgap : Journey s.reader.tracking s.position gap []
      (s.position.advanceOver s.reader.tracking gap) := Journey.nil.advanceOver gap
  have hcs : Journey s.reader.tracking (s.position.advanceOver s.reader.tracking gap) cs []
      s'.position := by
    rw [hposition]
    exact Journey.nil.advanceOver cs
  refine ⟨htracking, ⟨gap ++ cs, ?_, ?_, ?_⟩, List.pairwise_singleton ..⟩
  · rw [List.append_assoc]
    exact hrest
  · rw [hlog]
    exact hgap.trans hcs
  · intro x hx
    rw [List.mem_singleton.mp hx, hlog]
    exact (Passes.last hgap).append hcs

theorem offset_le (h : s.Moves log s' marks) : s.position.offset ≤ s'.position.offset := by
  obtain ⟨-, ⟨cs, -, hjourney, -⟩, -⟩ := h
  rw [hjourney.offset_eq]
  exact Nat.le_add_right _ _

/-- The position where calls end is passed last. -/
theorem append_position (h : s.Moves log s' marks) :
    s.Moves log s' (marks ++ [s'.position]) := by
  have hhere : s'.Moves [] s' [s'.position] := of_gap [] [] rfl rfl rfl rfl
  have hboth := h.trans hhere
  rwa [List.append_nil] at hboth

end Moves

/-! ## One call -/

theorem lineBreaks_delivery (s : Scan) (l : Lexeme) (rest : List Char) :
    lineBreaks (s.delivery l rest).events =
      if l.kind = .lineBreak then [l.tokenAt s.position] else [] := by
  rw [delivery, lineBreaks_append, lineBreaks_map_bufferGrown, List.nil_append]
  by_cases hkind : l.kind = .lineBreak
  · simp [lineBreaks, delivered, Event.token?, Lexeme.tokenAt, hkind]
  · simp [lineBreaks, delivered, Event.token?, Lexeme.tokenAt, hkind]

theorem moves_delivery {s : Scan} {gap rest : List Char} {l : Lexeme} (hl : l.WellFormed)
    (hrest : s.reader.rest = gap ++ (l.spelling ++ rest)) :
    s.Moves ((s.past gap (l.spelling ++ rest)).delivery l rest).events
      ((s.past gap (l.spelling ++ rest)).behind l rest)
      [s.position.advanceOver s.reader.tracking gap] := by
  have hlog := lineBreaks_delivery (s.past gap (l.spelling ++ rest)) l rest
  -- Only a line break token moves the position as a whole.
  by_cases hkind : l.kind = .lineBreak
  · rw [if_pos hkind] at hlog
    have hgap : Journey s.reader.tracking s.position gap []
        (s.position.advanceOver s.reader.tracking gap) := Journey.nil.advanceOver gap
    have hbreak : Journey s.reader.tracking (s.position.advanceOver s.reader.tracking gap)
        l.spelling [l.tokenAt (s.position.advanceOver s.reader.tracking gap)]
        (l.endPosition s.reader.tracking (s.position.advanceOver s.reader.tracking gap)) := by
      obtain ⟨c, cs, hspelling, -⟩ := hl.exists_spelling_eq_cons
      have hne : l.spelling ≠ [] := by
        rw [hspelling]
        exact List.cons_ne_nil c cs
      rw [Lexeme.endPosition, if_pos hkind]
      exact Journey.nil.lineBreak
        (t := l.tokenAt (s.position.advanceOver s.reader.tracking gap)) hkind rfl hne
    refine ⟨rfl, ⟨gap ++ l.spelling, ?_, ?_, ?_⟩, List.pairwise_singleton ..⟩
    · rw [hrest, List.append_assoc]
      rfl
    · rw [hlog]
      exact hgap.trans hbreak
    · intro x hx
      rw [List.mem_singleton.mp hx, hlog]
      exact (Passes.last hgap).append hbreak
  · rw [if_neg hkind] at hlog
    refine Moves.of_gap gap l.spelling rfl hrest ?_ hlog
    show l.endPosition _ _ = _
    rw [Lexeme.endPosition, if_neg hkind]
    rfl

/-- A call on a scan moves it over the gap to a token or a fault, and on. -/
theorem moves_nextToken (s : Scan) :
    s.Moves s.nextToken.events s.nextToken.scan
      ([s.nextToken.result].filterMap resultPosition?) := by
  have hout := s.nextToken_outcome
  generalize s.nextToken = step at hout ⊢
  cases hout with
  | @endOfFile gap hgap hrest =>
      exact Moves.of_gap gap [] rfl (by rw [hrest]; simp) rfl rfl
  | @foreign gap rest c hgap hc hrest =>
      exact Moves.of_gap gap [] rfl hrest rfl rfl
  | @openString gap body hgap hbody hfit hrest =>
      refine Moves.of_gap gap ('"' :: body) rfl ?_ rfl ?_
      · rw [hrest]
        simp [stranding]
      · simp [stranding, lineBreaks, delivered, Event.token?]
  | @refusal gap text front run e hgap hrun hfault hrest =>
      have hmoves : s.Moves ((s.past gap text).refusal front run e).events
          ((s.past gap text).refusal front run e).scan
          [s.position.advanceOver s.reader.tracking gap] := by
        refine Moves.of_gap gap
          (text.take (front.length + ((s.buffer.reset.fill run).stored + 1))) rfl ?_ rfl ?_
        · rw [hrest]
          simp [refusal]
        · simp [refusal]
      exact hmoves.mono (List.nil_sublist _)
  | lexeme hgap hl hend hfit hrest => exact moves_delivery hl hrest

/-! ## All calls -/

theorem moves_of_delivers {s last : Scan} {ts : List Token} {log : List Event}
    (h : s.Delivers ts log last) : s.Moves log last (ts.map Token.position) := by
  induction h with
  | nil s => exact Moves.refl s
  | @cons s last t ts log ht _ _ ih =>
      have hfirst := s.moves_nextToken
      rw [ht] at hfirst
      exact hfirst.trans ih

/-- The tokens that are kept stand where they stood among all. -/
theorem moves_tokens (s : Scan) (ignore : Bool) :
    s.Moves (s.tokens ignore).events (s.tokens ignore).scan
      (Answer.tokens (s.tokens ignore).result).positions := by
  obtain ⟨ts, log, last, hrun, hstop⟩ := s.exists_delivers
  have hmoves := (moves_of_delivers hrun).trans last.moves_nextToken
  cases hlast : last.nextToken.result with
  | error e =>
      rw [hlast] at hmoves
      rw [tokens_of_delivers_of_error hrun hlast]
      exact hmoves.mono (List.sublist_append_right _ _)
  | ok t =>
      rw [hlast] at hmoves
      rw [tokens_of_delivers_of_endOfFile hrun hlast (hstop t hlast)]
      have hcomplete : ∀ n, lineBreaks [.scanComplete n] = [] := fun _ => rfl
      have hkept : (Answer.tokens (.ok (ts.filter (keeps ignore) ++ [t]))).positions =
          (ts.filter (keeps ignore)).map Token.position ++ [t.position] := by
        simp [Answer.positions, Answer.results, List.filterMap_map, Function.comp_def,
          resultPosition?]
      rw [hkept]
      have hsub := (List.filter_sublist (p := keeps ignore) (l := ts)).map Token.position
      obtain ⟨htracking, hjourney, hordered⟩ :=
        hmoves.mono (hsub.append (List.Sublist.refl [t.position]))
      refine ⟨htracking, ?_, hordered⟩
      rw [lineBreaks_append, hcomplete, List.append_nil]
      exact hjourney

theorem moves_call (s : Scan) (c : Call) :
    s.Moves (s.call c).events (s.call c).scan (s.call c).result.positions := by
  cases c with
  | nextToken => exact s.moves_nextToken
  | next =>
      rcases s.call_next_cases with ⟨-, hcall⟩ | ⟨-, hcall⟩
      · rw [hcall]
        exact Moves.refl s
      · rw [hcall]
        obtain ⟨htracking, hjourney, hordered⟩ := s.moves_nextToken
        exact ⟨htracking, hjourney, hordered⟩
  | tokens ignore => exact s.moves_tokens ignore
  | wantedTokens => exact s.moves_tokens s.ignoreLineBreaks

theorem moves_calls (s : Scan) (cs : List Call) :
    s.Moves (s.calls cs).events (s.calls cs).scan ((s.calls cs).result.flatMap Answer.positions) := by
  induction cs generalizing s with
  | nil => exact Moves.refl s
  | cons c cs ih =>
      have hfirst := s.moves_call c
      have hothers := ih (s.call c).scan
      rw [calls, List.flatMap_cons]
      exact hfirst.trans hothers

/-! ## Where a scan stands -/

/-- The scan stands between two characters of the text: it has read `front`,
and its lines and columns come from there. -/
def StandsIn (source : List Char) (s : Scan) : Prop :=
  ∃ front, source = front ++ s.reader.rest ∧ s.position.offset = Text.utf8Length front ∧
    s.position.line + s.position.column ≤ front.length

theorem standsIn_startWith (buffer : TextBuffer) (source : String) (settings : Settings) :
    (startWith buffer source settings).StandsIn (Reader.readable source).toList :=
  ⟨[], rfl, rfl, Nat.le_refl 0⟩

namespace StandsIn

variable {source : List Char} {s : Scan}

theorem moves {s' : Scan} {log : List Event} {marks : List Position} (hs : s.StandsIn source)
    (hmoves : s.Moves log s' marks) : s'.StandsIn source := by
  obtain ⟨front, hsource, hoffset, hle⟩ := hs
  obtain ⟨-, ⟨cs, hrest, hjourney, -⟩, -⟩ := hmoves
  refine ⟨front ++ cs, ?_, ?_, ?_⟩
  · rw [hsource, hrest, List.append_assoc]
  · rw [hjourney.offset_eq, hoffset, Text.utf8Length_append]
  · have hadded := hjourney.line_add_column_le
    rw [List.length_append]
    omega

theorem calls (hs : s.StandsIn source) (cs : List Call) : (s.calls cs).scan.StandsIn source :=
  hs.moves (s.moves_calls cs)

theorem past {cs rest : List Char} (hs : s.StandsIn source)
    (hrest : s.reader.rest = cs ++ rest) : (s.past cs rest).StandsIn source := by
  have hmoves : s.Moves [] (s.past cs rest) _ := Moves.of_gap cs [] rfl hrest rfl rfl
  exact hs.moves hmoves

theorem line_add_column_le (hs : s.StandsIn source) :
    s.position.line + s.position.column ≤ s.position.offset := by
  obtain ⟨front, -, hoffset, hle⟩ := hs
  have hlength := Text.length_le_utf8Length front
  omega

theorem exists_splitAtByte? (hs : s.StandsIn source) :
    ∃ front, Text.splitAtByte? source s.position.offset = some (front, s.reader.rest) := by
  obtain ⟨front, hsource, hoffset, -⟩ := hs
  rw [hsource, hoffset]
  exact ⟨front, Text.splitAtByte?_append front s.reader.rest⟩

/-- What has been read and what is left to read make up the text. -/
theorem offset_add_unread (hs : s.StandsIn source) :
    s.position.offset + Text.utf8Length s.reader.rest = Text.utf8Length source := by
  obtain ⟨front, hsource, hoffset, -⟩ := hs
  rw [hsource, hoffset, Text.utf8Length_append]

end StandsIn

/-! ## What a token does to the line -/

theorem position_nextToken {s : Scan} {t : Token} (h : s.nextToken.result = .ok t)
    (hmore : t.isEndOfFile = false) :
    s.nextToken.scan.position = t.lexeme.endPosition s.reader.tracking t.position := by
  obtain ⟨gap, l, rest, -, -, -, -, -, hstep⟩ := exists_lexeme_of_nextToken h hmore
  rw [hstep] at h ⊢
  cases h
  rfl

/-- Behind a line break token, whatever its characters are, the next line starts. -/
theorem position_behind_lineBreak {s : Scan} {t : Token} (h : s.nextToken.result = .ok t)
    (hkind : t.kind = .lineBreak) :
    s.nextToken.scan.position = ⟨t.endOffset, t.position.line + 1, 0⟩ := by
  have hlexeme : t.lexeme.kind = .lineBreak := hkind
  have hmore : t.isEndOfFile = false := by simp [Token.isEndOfFile, hkind]
  rw [position_nextToken h hmore, Lexeme.endPosition, if_pos hlexeme, Token.endOffset,
    ← Position.offset_advanceOver]
  rfl

/-- A string advances the line by its blanks, where blanks count, and by nothing else. -/
theorem line_behind_string {s : Scan} {t : Token} (h : s.nextToken.result = .ok t)
    (hkind : t.kind = .string) :
    s.nextToken.scan.position.line =
      t.position.line + t.text.toList.countP s.reader.tracking.breaksAt := by
  have hmore : t.isEndOfFile = false := by simp [Token.isEndOfFile, hkind]
  have hspelling : t.lexeme.spelling = '"' :: t.text.toList ++ ['"'] := if_pos hkind
  have hlexeme : t.lexeme.kind ≠ .lineBreak := by
    show t.kind ≠ .lineBreak
    rw [hkind]
    decide
  have hquote : ['"'].countP s.reader.tracking.breaksAt = 0 := by
    cases s.reader.tracking <;> decide
  rw [position_nextToken h hmore, Lexeme.endPosition, if_neg hlexeme, Position.line_advanceOver,
    hspelling, List.cons_append, ← List.singleton_append, List.countP_append, List.countP_append,
    hquote, Nat.zero_add, Nat.add_zero]

end Scan

/-! ## Every position -/

/-- What holds of the positions that calls on a scan of the text answer with,
and of the one where they leave the scan. -/
structure PositionsCounted (settings : Settings) (source : String) (run : Step (List Answer)) :
    Prop where
  /-- Every token of an answer is reported, but for the end of the file. -/
  reported : ∀ a ∈ run.result, ∀ t, .ok t ∈ a.results → t.isEndOfFile = false →
    t ∈ delivered run.events
  /-- Only the offset, the text and the reported tokens decide on line and column. -/
  counted : ∀ p ∈ run.result.flatMap Answer.positions ++ [run.scan.position],
    p = countedPosition settings.tracking source.toList (delivered run.events) p.offset
  boundary : ∀ p ∈ run.result.flatMap Answer.positions ++ [run.scan.position],
    ∃ front back, source.toList = front ++ back ∧ p.offset = Text.utf8Length front
  /-- A position that comes later is no earlier position of the text. -/
  ordered : (run.result.flatMap Answer.positions ++ [run.scan.position]).Pairwise fun p q =>
    p = q ∨ p.offset < q.offset ∧ (p.line < q.line ∨ p.line = q.line ∧ p.column < q.column)
  /-- One or two characters, a line break token starts one line. -/
  lineBreak : ∀ t, run.scan.nextToken.result = .ok t → t.kind = .lineBreak →
    run.scan.nextToken.scan.position = ⟨t.endOffset, t.position.line + 1, 0⟩
  /-- A line feed inside of a string starts none. -/
  string : ∀ t, run.scan.nextToken.result = .ok t → t.kind = .string →
    run.scan.nextToken.scan.position.line = t.position.line +
      match settings.tracking with
      | .lineBreak => 0
      | .whitespace => t.text.toList.countP isBlank

theorem positionsCounted_calls {settings : Settings} {source : String} {scan : Scan}
    (hstart : Scan.start? source settings = some scan) (calls : List Call) :
    PositionsCounted settings source (scan.calls calls) := by
  have hreported : ∀ a ∈ (scan.calls calls).result, ∀ t, .ok t ∈ a.results →
      t.isEndOfFile = false → t ∈ delivered (scan.calls calls).events :=
    fun _ ha _ ht hmore => Scan.mem_delivered_calls ha ht hmore
  obtain ⟨-, rfl⟩ := Scan.start?_eq_some_iff.mp hstart
  obtain ⟨htracking, ⟨cs, hrest, hjourney, hpasses⟩, hordered⟩ :=
    (Scan.moves_calls _ calls).append_position
  generalize Scan.calls _ calls = run at hreported htracking hrest hpasses hordered ⊢
  -- What is read is the start of the source, if it is not all of it.
  obtain ⟨unread, hunread⟩ := Reader.readable_prefix source
  have hsplit : ∀ cs₁ cs₂, cs = cs₁ ++ cs₂ →
      source.toList = cs₁ ++ (cs₂ ++ (run.scan.reader.rest ++ unread)) := by
    rintro cs₁ cs₂ rfl
    have hread : (Reader.readable source).toList = (cs₁ ++ cs₂) ++ run.scan.reader.rest := hrest
    rw [← hunread, hread]
    simp only [List.append_assoc]
  refine ⟨hreported, ?_, ?_, ?_, ?_, ?_⟩
  · intro p hp
    obtain ⟨cs₁, cs₂, ts₁, ts₂, hcs, hbreaks, hfirst, hthen⟩ := hpasses p hp
    rw [hsplit cs₁ cs₂ hcs]
    -- What was delivered behind `p` stands behind `p`, and so it is not counted.
    exact hfirst.eq_countedPosition hbreaks fun u hu => (hthen.bounds_of_mem hu).2.1
  · intro p hp
    obtain ⟨cs₁, cs₂, ts₁, ts₂, hcs, -, hfirst, -⟩ := hpasses p hp
    exact ⟨cs₁, _, hsplit cs₁ cs₂ hcs, hfirst.offset_eq.trans (Nat.zero_add _)⟩
  · apply hordered.imp
    rintro p q ⟨cs, ts, hway⟩
    exact hway.eq_or_lt
  · intro t ht hkind
    exact Scan.position_behind_lineBreak ht hkind
  · intro t ht hkind
    have hline := Scan.line_behind_string ht hkind
    rw [hline, htracking]
    congr 1
    show t.text.toList.countP settings.tracking.breaksAt = _
    cases settings.tracking with
    | lineBreak => simp [LineTracking.breaksAt_lineBreak]
    | whitespace => exact List.countP_congr fun c _ => by rw [LineTracking.breaksAt_whitespace]

/-- A line break of two characters, a string with a blank and a line feed in it,
and a fault that is met twice before the iteration has ended. -/
theorem positionsCounted_calls_string :
    ∃ scan, Scan.start? "x\n\r\"a \n\" #" { capacity := 4 } = some scan ∧
      PositionsCounted { capacity := 4 } "x\n\r\"a \n\" #"
        (scan.calls [.next, .nextToken, .next, .nextToken, .next, .next]) ∧
      (scan.calls [.next, .nextToken, .next, .nextToken, .next, .next]).result.flatMap
        Answer.positions = [⟨0, 0, 0⟩, ⟨1, 0, 1⟩, ⟨3, 1, 0⟩, ⟨9, 3, 0⟩, ⟨9, 3, 0⟩] :=
  ⟨_, rfl, positionsCounted_calls rfl _, rfl⟩

end Lexing
