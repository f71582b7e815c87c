import Lexing.Proofs.Delivery

/-!
# Texts in pieces

A text that a scan reads to some point falls into pieces, each a gap with the
lexeme behind it. The tokens that calls deliver are the lexemes of the pieces,
each at the position where it stands, and every text in pieces that can be
told apart is delivered so. Main statement: `scansTo_iff_exists_pieces`, which
says the same of whole texts.
-/

namespace Lexing

/-- A lexeme with the gap in front of it. -/
abbrev Piece : Type := List Char × Lexeme

/-- The text that pieces make up. -/
def spell (pieces : List Piece) : List Char :=
  pieces.flatMap fun piece => piece.1 ++ piece.2.spelling

@[simp] theorem spell_nil : spell [] = [] := rfl

@[simp] theorem spell_cons (gap : List Char) (l : Lexeme) (pieces : List Piece) :
    spell ((gap, l) :: pieces) = gap ++ (l.spelling ++ spell pieces) := by
  simp [spell]

@[simp] theorem spell_append (ps qs : List Piece) : spell (ps ++ qs) = spell ps ++ spell qs := by
  simp [spell]

/-- The pieces can be told apart when `rest` follows: gaps are gaps, every
text fits its kind, and no lexeme is extended by what stands behind it. -/
def Legible (pieces : List Piece) (rest : List Char) : Prop :=
  ∀ before gap l after, pieces = before ++ (gap, l) :: after →
    IsGap gap ∧ l.WellFormed ∧ EndsRun l.extendedBy (spell after ++ rest)

namespace Legible

variable {gap rest : List Char} {l : Lexeme} {pieces : List Piece}

@[simp] theorem nil (rest : List Char) : Legible [] rest := by
  intro before gap l after h
  simp at h

theorem cons_iff :
    Legible ((gap, l) :: pieces) rest ↔
      (IsGap gap ∧ l.WellFormed ∧ EndsRun l.extendedBy (spell pieces ++ rest)) ∧
        Legible pieces rest := by
  constructor
  · intro h
    refine ⟨h [] gap l pieces rfl, ?_⟩
    intro before gap' l' after hsplit
    exact h ((gap, l) :: before) gap' l' after (by rw [hsplit, List.cons_append])
  · rintro ⟨hfirst, hothers⟩ before gap' l' after hsplit
    rcases before with _ | ⟨piece, before⟩
    · rw [List.nil_append, List.cons.injEq, Prod.mk.injEq] at hsplit
      obtain ⟨⟨rfl, rfl⟩, rfl⟩ := hsplit
      exact hfirst
    · rw [List.cons_append, List.cons.injEq] at hsplit
      exact hothers before gap' l' after hsplit.2

/-- Pieces can still be told apart when the text is cut off behind them. -/
theorem of_append {tail : List Char} (h : Legible pieces (tail ++ rest)) : Legible pieces tail := by
  intro before gap l after hsplit
  obtain ⟨hgap, hl, hend⟩ := h before gap l after hsplit
  rw [← List.append_assoc] at hend
  exact ⟨hgap, hl, hend.of_append⟩

end Legible

/-! ## The tokens of pieces -/

/-- The gaps with the tokens behind them, read from position `p` on. -/
def placed (mode : LineTracking) (p : Position) : List Piece → List (List Char × Token)
  | [] => []
  | (gap, l) :: pieces =>
      let here := p.advanceOver mode gap
      (gap, l.tokenAt here) :: placed mode (l.endPosition mode here) pieces

/-- The position behind the pieces, read from position `p` on. -/
def positionBehind (mode : LineTracking) (p : Position) : List Piece → Position
  | [] => p
  | (gap, l) :: pieces => positionBehind mode (l.endPosition mode (p.advanceOver mode gap)) pieces

/-- The tokens of pieces with a last gap behind them, read from position `p` on. -/
def tokensOf (mode : LineTracking) (p : Position) (pieces : List Piece) (tail : List Char) :
    List Token :=
  (placed mode p pieces).map Prod.snd ++
    [.endOfFile ((positionBehind mode p pieces).advanceOver mode tail)]

@[simp] theorem offset_positionBehind (mode : LineTracking) (p : Position) (pieces : List Piece) :
    (positionBehind mode p pieces).offset = p.offset + Text.utf8Length (spell pieces) := by
  induction pieces generalizing p with
  | nil => rfl
  | cons piece pieces ih =>
      obtain ⟨gap, l⟩ := piece
      simp only [positionBehind, ih, Lexeme.offset_endPosition, Position.offset_advanceOver,
        spell_cons, Text.utf8Length_append]
      omega

/-- The end of the file stands at the end of the text. -/
theorem offset_endOfFile (mode : LineTracking) (pieces : List Piece) (tail : List Char) :
    ((positionBehind mode {} pieces).advanceOver mode tail).offset =
      Text.utf8Length (spell pieces ++ tail) := by
  rw [Position.offset_advanceOver, offset_positionBehind, Text.utf8Length_append]
  exact congrArg (· + _) (Nat.zero_add _)

theorem map_lexeme_placed (mode : LineTracking) (p : Position) (pieces : List Piece) :
    (placed mode p pieces).map (fun piece => (piece.1, piece.2.lexeme)) = pieces := by
  induction pieces generalizing p with
  | nil => rfl
  | cons piece pieces ih => simp [placed, ih]

theorem map_lexeme_snd_placed (mode : LineTracking) (p : Position) (pieces : List Piece) :
    ((placed mode p pieces).map Prod.snd).map Token.lexeme = pieces.map Prod.snd := by
  have hlexemes := congrArg (List.map Prod.snd) (map_lexeme_placed mode p pieces)
  rwa [List.map_map] at hlexemes ⊢

theorem map_lexeme_tokensOf (mode : LineTracking) (p : Position) (pieces : List Piece)
    (tail : List Char) :
    (tokensOf mode p pieces tail).map Token.lexeme =
      pieces.map Prod.snd ++ [⟨.endOfFile, ""⟩] := by
  rw [tokensOf, List.map_append, map_lexeme_snd_placed]
  rfl

/-- A token stands behind everything that comes before it. -/
theorem offset_of_placed_eq_append {mode : LineTracking} {p : Position} {pieces : List Piece}
    {before after : List (List Char × Token)} {gap : List Char} {t : Token}
    (h : placed mode p pieces = before ++ (gap, t) :: after) :
    t.position.offset =
      p.offset + Text.utf8Length (spell (before.map fun piece => (piece.1, piece.2.lexeme)) ++ gap) := by
  induction pieces generalizing p before with
  | nil => simp [placed] at h
  | cons piece pieces ih =>
      obtain ⟨gap', l⟩ := piece
      rcases before with _ | ⟨first, before⟩
      · rw [List.nil_append, placed, List.cons.injEq, Prod.mk.injEq] at h
        obtain ⟨⟨rfl, rfl⟩, -⟩ := h
        exact Position.offset_advanceOver ..
      · rw [List.cons_append, placed, List.cons.injEq] at h
        obtain ⟨rfl, h⟩ := h
        rw [ih h]
        simp only [Lexeme.offset_endPosition, Position.offset_advanceOver, List.map_cons,
          Lexeme.lexeme_tokenAt, spell_cons, Text.utf8Length_append]
        omega

/-! ## Delivering pieces -/

/-- The limit of the buffer decides which lexemes fit. -/
theorem Lexeme.fitsIn_iff_of_sameLimit {b b' : TextBuffer} (h : b.SameLimit b') (l : Lexeme) :
    l.FitsIn b' ↔ l.FitsIn b := by
  rw [FitsIn, FitsIn, h.fits_reset_iff]

theorem Lexeme.fitsIn_of_growable {b : TextBuffer} (h : b.growable = true) (l : Lexeme) : l.FitsIn b :=
  fun _ => .inl h

namespace Scan

variable {s last : Scan} {ts : List Token} {log : List Event}

theorem exists_pieces_of_delivers (h : s.Delivers ts log last) :
    ∃ pieces, s.reader.rest = spell pieces ++ last.reader.rest ∧
      Legible pieces last.reader.rest ∧ (∀ piece ∈ pieces, piece.2.FitsIn s.buffer) ∧
      ts = (placed s.reader.tracking s.position pieces).map Prod.snd ∧
      last.position = positionBehind s.reader.tracking s.position pieces ∧
      last.reader.tracking = s.reader.tracking ∧ s.buffer.SameLimit last.buffer := by
  induction h with
  | nil s => exact ⟨[], rfl, Legible.nil _, by simp, rfl, rfl, rfl, .refl _⟩
  | @cons s last t ts log ht hmore _ ih =>
      obtain ⟨gap, l, rest, hgap, hl, hend, hfit, hrest, hstep⟩ := exists_lexeme_of_nextToken ht hmore
      obtain ⟨pieces, hspell, hlegible, hfits, hts, hlast, htracking, hlimit⟩ := ih
      rw [hstep] at ht hspell hfits hts hlast htracking hlimit
      have htoken : l.tokenAt (s.position.advanceOver s.reader.tracking gap) = t :=
        Except.ok.inj ht
      have hbuffer := (s.past gap (l.spelling ++ rest)).sameLimit_behind l rest
      -- What the first lexeme leaves unread is the text of the other pieces.
      simp only [scan_delivery, rest_behind, tracking_behind, position_behind, reader_past,
        Reader.tracking_past, position_past] at hspell hts hlast htracking
      refine ⟨(gap, l) :: pieces, ?_, ?_, ?_, ?_, hlast, htracking, hbuffer.trans hlimit⟩
      · rw [hrest, hspell, spell_cons, List.append_assoc, List.append_assoc]
      · exact Legible.cons_iff.mpr ⟨⟨hgap, hl, hspell ▸ hend⟩, hlegible⟩
      · intro piece hpiece
        rcases List.mem_cons.mp hpiece with rfl | hpiece
        · exact hfit
        · exact (Lexeme.fitsIn_iff_of_sameLimit hbuffer _).mp (hfits piece hpiece)
      · rw [← htoken, hts]
        rfl

theorem exists_delivers_of_pieces {pieces : List Piece} {rest : List Char}
    (hrest : s.reader.rest = spell pieces ++ rest) (hlegible : Legible pieces rest)
    (hfits : ∀ piece ∈ pieces, piece.2.FitsIn s.buffer) :
    ∃ log last, s.Delivers ((placed s.reader.tracking s.position pieces).map Prod.snd) log last ∧
      last.reader.rest = rest ∧
      last.position = positionBehind s.reader.tracking s.position pieces ∧
      last.reader.tracking = s.reader.tracking ∧ s.buffer.SameLimit last.buffer := by
  induction pieces generalizing s with
  | nil => exact ⟨[], s, .nil s, hrest, rfl, rfl, .refl _⟩
  | cons piece pieces ih =>
      obtain ⟨gap, l⟩ := piece
      obtain ⟨⟨hgap, hl, hend⟩, hlegible⟩ := Legible.cons_iff.mp hlegible
      rw [spell_cons, List.append_assoc, List.append_assoc] at hrest
      have hfit : l.FitsIn s.buffer := hfits (gap, l) List.mem_cons_self
      have hstep := nextToken_of_lexeme hgap hl hend hfit hrest
      have ht : s.nextToken.result =
          .ok (l.tokenAt (s.position.advanceOver s.reader.tracking gap)) := by
        rw [hstep]
        rfl
      have hmode : s.nextToken.scan.reader.tracking = s.reader.tracking := by
        rw [hstep]
        rfl
      have hposition : s.nextToken.scan.position =
          l.endPosition s.reader.tracking (s.position.advanceOver s.reader.tracking gap) := by
        rw [hstep]
        rfl
      have hbuffer : s.buffer.SameLimit s.nextToken.scan.buffer := by
        rw [hstep]
        exact l.sameLimit_fill s.buffer
      -- The buffer may have grown since, but what fits is decided by its limit.
      have hothers : ∀ piece ∈ pieces, piece.2.FitsIn s.nextToken.scan.buffer := by
        intro piece hpiece
        exact (Lexeme.fitsIn_iff_of_sameLimit hbuffer _).mpr
          (hfits piece (List.mem_cons_of_mem _ hpiece))
      obtain ⟨log, last, hrun, hlastRest, hlast, htracking, hlimit⟩ :=
        ih (by rw [hstep]; rfl) hlegible hothers
      rw [hmode, hposition] at hrun hlast
      rw [hmode] at htracking
      exact ⟨_, last, .cons ht (isEndOfFile_tokenAt hl _) hrun, hlastRest, hlast, htracking,
        hbuffer.trans hlimit⟩

/-! ## Texts in pieces -/

/-- A scan delivers all tokens of its text exactly if the text is in pieces
that can be told apart and fit the buffer. -/
theorem tokens_eq_ok_iff_exists_pieces {tokens : List Token} :
    (s.tokens false).result = .ok tokens ↔
      ∃ pieces tail, s.reader.rest = spell pieces ++ tail ∧ IsGap tail ∧ Legible pieces tail ∧
        (∀ piece ∈ pieces, piece.2.FitsIn s.buffer) ∧
        tokens = tokensOf s.reader.tracking s.position pieces tail := by
  rw [tokens_eq_ok_iff]
  constructor
  · rintro ⟨ts, log, last, t, hrun, ht, hend, rfl⟩
    obtain ⟨tail, htail, hlastRest, rfl, -⟩ := exists_gap_of_nextToken ht hend
    obtain ⟨pieces, hspell, hlegible, hfits, rfl, hposition, htracking, -⟩ :=
      exists_pieces_of_delivers hrun
    rw [hlastRest] at hspell hlegible
    refine ⟨pieces, tail, hspell, htail, hlegible, hfits, ?_⟩
    rw [filter_keeps_false, position_past, hposition, htracking]
    rfl
  · rintro ⟨pieces, tail, hspell, htail, hlegible, hfits, rfl⟩
    obtain ⟨log, last, hrun, hlastRest, hposition, htracking, -⟩ :=
      exists_delivers_of_pieces hspell hlegible hfits
    refine ⟨_, log, last, .endOfFile (last.past tail []).position, hrun, ?_, rfl, ?_⟩
    · rw [nextToken_of_gap htail hlastRest]
    · rw [filter_keeps_false, position_past, hposition, htracking]
      rfl

end Scan

theorem scansTo_iff_exists_pieces {settings : Settings} {source : String} {tokens : List Token} :
    ScansTo settings source tokens ↔
      settings.capacity ≤ TextBuffer.maxCapacity ∧
        ∃ pieces tail, (Reader.readable source).toList = spell pieces ++ tail ∧ IsGap tail ∧
          Legible pieces tail ∧ (∀ piece ∈ pieces, piece.2.FitsIn settings.buffer) ∧
          tokens = tokensOf settings.tracking {} pieces tail := by
  constructor
  · rintro ⟨scan, hstart, hrun⟩
    obtain ⟨hcapacity, rfl⟩ := Scan.start?_eq_some_iff.mp hstart
    exact ⟨hcapacity, Scan.tokens_eq_ok_iff_exists_pieces.mp hrun⟩
  · rintro ⟨hcapacity, hpieces⟩
    exact ⟨_, Scan.start?_eq_some_iff.mpr ⟨hcapacity, rfl⟩,
      Scan.tokens_eq_ok_iff_exists_pieces.mpr hpieces⟩

/-- What is spelled in pieces scans into them, if it can be read as a whole. -/
theorem scansTo_spell {settings : Settings} {pieces : List Piece} {tail : List Char}
    (hcapacity : settings.capacity ≤ TextBuffer.maxCapacity)
    (hlength : Text.utf8Length (spell pieces ++ tail) < Position.bound) (htail : IsGap tail)
    (hlegible : Legible pieces tail)
    (hfits : ∀ piece ∈ pieces, piece.2.FitsIn settings.buffer) :
    ScansTo settings (String.ofList (spell pieces ++ tail))
      (tokensOf settings.tracking {} pieces tail) := by
  rw [scansTo_iff_exists_pieces, Reader.toList_readable_ofList hlength]
  exact ⟨hcapacity, pieces, tail, rfl, htail, hlegible, hfits, rfl⟩

end Lexing
