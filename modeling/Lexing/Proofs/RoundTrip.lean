import Lexing.Proofs.Pieces
import Lexing.Proofs.Truncation

/-!
# Spelling and scanning again

A text that is spelled from lexemes is scanned into these lexemes, provided
that none stands so close behind another that both would read as one. Spaces
between them always suffice, so a list of tokens can be written down and
scanned again.
-/

namespace Lexing

/-- Lexemes with gaps in front of them and `tail` behind, where no two stand
so close that they would read as one. -/
structure Separated (pieces : List Piece) (tail : List Char) : Prop where
  gap : ∀ piece ∈ pieces, IsGap piece.1
  gap_tail : IsGap tail
  wellFormed : ∀ piece ∈ pieces, piece.2.WellFormed
  /-- No integer stands directly behind an integer. -/
  integer : ∀ before gap l l' after, pieces = before ++ (gap, l) :: ([], l') :: after →
    l.kind = .integer → l'.kind ≠ .integer
  /-- Neither an identifier nor an integer stands directly behind an identifier. -/
  identifier : ∀ before gap l l' after, pieces = before ++ (gap, l) :: ([], l') :: after →
    l.kind = .identifier → l'.kind ≠ .identifier ∧ l'.kind ≠ .integer
  /-- No carriage return stands directly behind a line feed. -/
  lineFeed : ∀ before gap after, pieces = before ++ (gap, ⟨.lineBreak, "\n"⟩) :: after →
    (spell after ++ tail).head? ≠ some '\r'

/-! ## What stands behind a lexeme -/

namespace Lexeme

theorem kind_of_opening_eq_integer {l : Lexeme} (h : l.opening = .integer) : l.kind = .integer := by
  unfold opening at h
  split at h <;> first | assumption | cases h

theorem kind_of_opening_eq_identifier {l : Lexeme} (h : l.opening = .identifier) :
    l.kind = .identifier := by
  unfold opening at h
  split at h <;> first | assumption | cases h

/-- A space directly behind a lexeme never belongs to it. -/
theorem extendedBy_space (l : Lexeme) : l.extendedBy ' ' = false := by
  unfold extendedBy
  split
  · decide
  · decide
  · simp
  · rfl

end Lexeme

/-- The next character is a blank or opens a lexeme without a gap. -/
theorem isBlank_or_opens {pieces : List Piece} {tail : List Char} {c : Char}
    (hgap : ∀ piece ∈ pieces, IsGap piece.1) (htail : IsGap tail)
    (hwell : ∀ piece ∈ pieces, piece.2.WellFormed)
    (hc : c ∈ (spell pieces ++ tail).head?) :
    isBlank c = true ∨
      ∃ l after, pieces = ([], l) :: after ∧ Opening.ofChar? c = some l.opening := by
  rcases pieces with _ | ⟨⟨gap, l⟩, after⟩
  · exact .inl (htail c (List.mem_of_mem_head? hc))
  · rcases gap with _ | ⟨d, gap⟩
    · obtain ⟨d, cs, hspelling, -, hopen⟩ :=
        (hwell ([], l) List.mem_cons_self).exists_spelling_eq_cons
      have hd : d = c := by simpa [hspelling] using hc
      subst hd
      exact .inr ⟨l, after, rfl, hopen⟩
    · have hd : d = c := by simpa using hc
      subst hd
      exact .inl (hgap (d :: gap, l) List.mem_cons_self d List.mem_cons_self)

theorem exists_integer_of_isDigit {pieces : List Piece} {c : Char} (hdigit : c.isDigit = true)
    (hnext : isBlank c = true ∨
      ∃ l after, pieces = ([], l) :: after ∧ Opening.ofChar? c = some l.opening) :
    ∃ l after, pieces = ([], l) :: after ∧ l.kind = .integer := by
  rcases hnext with hblank | ⟨l, after, hpieces, hopen⟩
  · rw [isBlank_eq_false_of_isIdentifierPart (isIdentifierPart_of_isDigit hdigit)] at hblank
    cases hblank
  · rw [Opening.ofChar?_of_isDigit hdigit, Option.some.injEq] at hopen
    exact ⟨l, after, hpieces, Lexeme.kind_of_opening_eq_integer hopen.symm⟩

theorem exists_word_of_isIdentifierPart {pieces : List Piece} {c : Char}
    (hpart : isIdentifierPart c = true)
    (hnext : isBlank c = true ∨
      ∃ l after, pieces = ([], l) :: after ∧ Opening.ofChar? c = some l.opening) :
    ∃ l after, pieces = ([], l) :: after ∧ (l.kind = .identifier ∨ l.kind = .integer) := by
  rcases isIdentifierPart_iff.mp hpart with hstart | hdigit
  · rcases hnext with hblank | ⟨l, after, hpieces, hopen⟩
    · rw [isBlank_eq_false_of_isIdentifierPart hpart] at hblank
      cases hblank
    · rw [Opening.ofChar?_of_isIdentifierStart hstart, Option.some.injEq] at hopen
      exact ⟨l, after, hpieces, .inl (Lexeme.kind_of_opening_eq_identifier hopen.symm)⟩
  · obtain ⟨l, after, hpieces, hkind⟩ := exists_integer_of_isDigit hdigit hnext
    exact ⟨l, after, hpieces, .inr hkind⟩

theorem legible_of_separated {pieces : List Piece} {tail : List Char}
    (h : Separated pieces tail) : Legible pieces tail := by
  intro before gap l after hsplit
  have hmem : ∀ piece ∈ (gap, l) :: after, piece ∈ pieces := by
    intro piece hpiece
    rw [hsplit]
    exact List.mem_append_right before hpiece
  have hself := hmem (gap, l) List.mem_cons_self
  refine ⟨h.gap _ hself, h.wellFormed _ hself, ?_⟩
  intro c hc
  have hnext := isBlank_or_opens
    (fun piece hpiece => h.gap piece (hmem piece (List.mem_cons_of_mem _ hpiece))) h.gap_tail
    (fun piece hpiece => h.wellFormed piece (hmem piece (List.mem_cons_of_mem _ hpiece))) hc
  rw [Bool.eq_false_iff]
  intro hextends
  -- A character that extends the lexeme contradicts what the pieces keep apart.
  unfold Lexeme.extendedBy at hextends
  split at hextends
  · next hkind =>
      obtain ⟨l', rest, rfl, hinteger⟩ := exists_integer_of_isDigit hextends hnext
      exact h.integer before gap l l' rest hsplit hkind hinteger
  · next hkind =>
      obtain ⟨l', rest, rfl, hword⟩ := exists_word_of_isIdentifierPart hextends hnext
      obtain ⟨hidentifier, hinteger⟩ := h.identifier before gap l l' rest hsplit hkind
      rcases hword with hword | hword
      · exact hidentifier hword
      · exact hinteger hword
  · next hkind =>
      obtain ⟨htext, rfl⟩ : l.text = "\n" ∧ c = '\r' := by simpa using hextends
      have hl : l = ⟨.lineBreak, "\n"⟩ := by
        rw [← hkind, ← htext]
      rw [hl] at hsplit
      exact h.lineFeed before gap after hsplit hc
  · cases hextends

/-! ## Lexemes with a space between any two -/

/-- The lexemes as pieces, each but the first behind one space. -/
def spaced : List Lexeme → List Piece
  | [] => []
  | l :: ls => ([], l) :: ls.map fun l => ([' '], l)

theorem map_snd_spaced (ls : List Lexeme) : (spaced ls).map Prod.snd = ls := by
  cases ls with
  | nil => rfl
  | cons l ls => simp [spaced, Function.comp_def]

theorem spell_map_space (ls : List Lexeme) :
    spell (ls.map fun l => ([' '], l)) = ls.flatMap fun l => ' ' :: l.spelling := by
  induction ls with
  | nil => rfl
  | cons l ls ih => simp [ih]

theorem intercalate_spelling (ls : List Lexeme) :
    [' '].intercalate (ls.map Lexeme.spelling) = spell (spaced ls) := by
  cases ls with
  | nil => rfl
  | cons l ls =>
      rw [spaced, spell_cons, spell_map_space, List.nil_append]
      induction ls generalizing l with
      | nil => simp
      | cons l' ls ih =>
          rw [List.map_cons, List.map_cons, List.intercalate_cons_cons, ← List.map_cons, ih]
          simp

theorem isGap_space : IsGap [' '] := by
  intro c hc
  rw [List.mem_singleton.mp hc]
  decide

theorem legible_spaced {ls : List Lexeme} {tail : List Char} (hls : ∀ l ∈ ls, l.WellFormed)
    (htail : tail = [] ∨ tail = [' ']) : Legible (spaced ls) tail := by
  have hbehind : ∀ (l : Lexeme) (ls : List Lexeme),
      EndsRun l.extendedBy (spell (ls.map fun l => ([' '], l)) ++ tail) := by
    intro l ls
    rcases ls with _ | ⟨l', ls⟩
    · rcases htail with rfl | rfl
      · exact EndsRun.nil _
      · exact EndsRun.cons.mpr l.extendedBy_space
    · rw [List.map_cons, spell_cons]
      exact EndsRun.cons.mpr l.extendedBy_space
  rcases ls with _ | ⟨l, ls⟩
  · exact Legible.nil tail
  · obtain ⟨hl, hothers⟩ := List.forall_mem_cons.mp hls
    clear hls
    refine Legible.cons_iff.mpr ⟨⟨isGap_nil, hl, hbehind l ls⟩, ?_⟩
    induction ls with
    | nil => exact Legible.nil tail
    | cons l' ls ih =>
        obtain ⟨hl', hothers⟩ := List.forall_mem_cons.mp hothers
        exact Legible.cons_iff.mpr ⟨⟨isGap_space, hl', hbehind l' ls⟩, ih hothers⟩

/-- The tokens written down one behind the other, with a space between any two. -/
def respell (tokens : List Token) : List Char :=
  [' '].intercalate (tokens.map fun t => t.lexeme.spelling)

theorem respell_eq_spell (tokens : List Token) :
    respell tokens = spell (spaced (tokens.map Token.lexeme)) := by
  rw [← intercalate_spelling, List.map_map]
  rfl

/-- The end of the file leaves at most a space behind the others. -/
theorem exists_tail_respell (ts : List Token) {t : Token} (ht : t.lexeme = ⟨.endOfFile, ""⟩) :
    ∃ tail, (tail = [] ∨ tail = [' ']) ∧
      respell (ts ++ [t]) = spell (spaced (ts.map Token.lexeme)) ++ tail := by
  have hspelling : t.lexeme.spelling = [] := by
    rw [ht]
    rfl
  rcases ts with _ | ⟨first, ts⟩
  · exact ⟨[], .inl rfl, by simp [respell_eq_spell, spaced, hspelling]⟩
  · exact ⟨[' '], .inr rfl, by simp [respell_eq_spell, spaced, hspelling]⟩

/-! ## Scanning what was spelled -/

/-- Only the gap behind the last lexeme may be cut off. -/
theorem exists_scansTo_of_legible {settings : Settings} {pieces : List Piece} {tail : List Char}
    (hstorable : settings.Storable) (hlength : Text.utf8Length (spell pieces) < Position.bound)
    (htail : IsGap tail) (hlegible : Legible pieces tail)
    (hfits : ∀ piece ∈ pieces, piece.2.FitsIn settings.buffer) :
    ∃ tokens, ScansTo settings (String.ofList (spell pieces ++ tail)) tokens ∧
      tokens.map Token.lexeme = pieces.map Prod.snd ++ [⟨.endOfFile, ""⟩] := by
  obtain ⟨read, unread, htext, rfl⟩ : ∃ read unread,
      (Reader.readable (String.ofList (spell pieces ++ tail))).toList = spell pieces ++ read ∧
        tail = read ++ unread := by
    obtain ⟨unread, hunread⟩ := Text.takeBytes_prefix
      (Position.bound - 1 - Text.utf8Length (spell pieces)) tail
    refine ⟨_, unread, ?_, hunread.symm⟩
    rw [Reader.toList_readable, String.toList_ofList,
      Text.takeBytes_append (Nat.le_sub_one_of_lt hlength)]
  refine ⟨tokensOf settings.tracking {} pieces read, ?_, map_lexeme_tokensOf ..⟩
  exact scansTo_iff_exists_pieces.mpr ⟨Settings.storable_iff.mp hstorable, pieces, read, htext,
    fun c hc => htail c (List.mem_append_left unread hc), hlegible.of_append, hfits, rfl⟩

/-- What was delivered is well formed and has fit the buffer. -/
theorem Scan.Delivers.wellFormed {s last : Scan} {ts : List Token} {log : List Event}
    (h : s.Delivers ts log last) :
    ∀ t ∈ ts, t.lexeme.WellFormed ∧ t.lexeme.FitsIn s.buffer := by
  obtain ⟨pieces, -, hlegible, hfits, rfl, -, -, -⟩ := exists_pieces_of_delivers h
  intro t ht
  have hl : t.lexeme ∈ pieces.map Prod.snd := by
    rw [← map_lexeme_snd_placed s.reader.tracking s.position]
    exact List.mem_map_of_mem ht
  obtain ⟨⟨gap, l⟩, hpiece, hsame⟩ := List.mem_map.mp hl
  obtain ⟨before, after, hsplit⟩ := List.append_of_mem hpiece
  rw [← hsame]
  exact ⟨(hlegible before gap l after hsplit).2.1, hfits (gap, l) hpiece⟩

/-- The buffer that the settings ask for takes in what `b` takes in. -/
theorem Lexeme.FitsIn.of_room {b : TextBuffer} {settings : Settings} {l : Lexeme}
    (h : l.FitsIn b)
    (hroom : settings.growable = true ∨
      b.growable = false ∧ b.capacity ≤ settings.capacity) : l.FitsIn settings.buffer := by
  intro hgathered
  have hb := (TextBuffer.fits_reset_iff _ _).mp (h hgathered)
  refine (TextBuffer.fits_reset_iff _ _).mpr ?_
  rw [Settings.buffer, TextBuffer.capacity_withCapacity]
  rcases hroom with hgrowable | ⟨hfixed, hle⟩
  · exact .inl hgrowable
  · rcases hb with hgrowable | hb
    · rw [hfixed] at hgrowable
      cases hgrowable
    · exact .inr (Nat.le_trans hb hle)

theorem exists_scansTo_spaced {settings : Settings} {ls : List Lexeme} {tail : List Char}
    (hstorable : settings.Storable)
    (hlength : Text.utf8Length (spell (spaced ls)) < Position.bound)
    (htail : tail = [] ∨ tail = [' '])
    (hls : ∀ l ∈ ls, l.WellFormed ∧ l.FitsIn settings.buffer) :
    ∃ tokens, ScansTo settings (String.ofList (spell (spaced ls) ++ tail)) tokens ∧
      tokens.map Token.lexeme = ls ++ [⟨.endOfFile, ""⟩] := by
  have hgap : IsGap tail := by
    rcases htail with rfl | rfl
    · exact isGap_nil
    · exact isGap_space
  have hlegible := legible_spaced (fun l hl => (hls l hl).1) htail
  have hfits : ∀ piece ∈ spaced ls, piece.2.FitsIn settings.buffer := by
    intro piece hpiece
    have hl : piece.2 ∈ (spaced ls).map Prod.snd := List.mem_map_of_mem hpiece
    rw [map_snd_spaced] at hl
    exact (hls piece.2 hl).2
  obtain ⟨tokens, hscan, hlexemes⟩ := exists_scansTo_of_legible hstorable hlength hgap hlegible hfits
  rw [map_snd_spaced] at hlexemes
  exact ⟨tokens, hscan, hlexemes⟩

/-- Tokens that a scan has delivered can be written down and scanned again,
with the end of the file among them or without it. -/
theorem exists_scansTo_respell {s : Scan} {ignore : Bool} {tokens shown : List Token}
    {settings : Settings} (h : (s.tokens ignore).result = .ok tokens)
    (hshown : shown = tokens ∨ shown = tokens.dropLast) (hstorable : settings.Storable)
    (hlength : Text.utf8Length (respell tokens.dropLast) < Position.bound)
    (hroom : settings.growable = true ∨
      s.buffer.growable = false ∧ s.buffer.capacity ≤ settings.capacity) :
    ∃ again, ScansTo settings (String.ofList (respell shown)) again ∧
      again.map Token.lexeme = tokens.map Token.lexeme := by
  obtain ⟨ts, log, last, t, hrun, ht, hend, rfl⟩ := Scan.tokens_eq_ok_iff.mp h
  have hlast : t.lexeme = ⟨.endOfFile, ""⟩ := by
    obtain ⟨gap, -, -, rfl, -⟩ := Scan.exists_gap_of_nextToken ht hend
    rfl
  have hkept : ∀ l ∈ (ts.filter (Scan.keeps ignore)).map Token.lexeme,
      l.WellFormed ∧ l.FitsIn settings.buffer := by
    intro l hl
    obtain ⟨u, hu, rfl⟩ := List.mem_map.mp hl
    obtain ⟨hwell, hfit⟩ := hrun.wellFormed u (List.mem_filter.mp hu).1
    exact ⟨hwell, hfit.of_room hroom⟩
  generalize ts.filter (Scan.keeps ignore) = kept at hshown hkept hlength ⊢
  rw [List.dropLast_concat] at hshown hlength
  -- With or without the end of the file, the text is that of the other tokens and a tail.
  obtain ⟨tail, htail, htext⟩ : ∃ tail, (tail = [] ∨ tail = [' ']) ∧
      respell shown = spell (spaced (kept.map Token.lexeme)) ++ tail := by
    rcases hshown with rfl | rfl
    · exact exists_tail_respell kept hlast
    · exact ⟨[], .inl rfl, by rw [respell_eq_spell, List.append_nil]⟩
  obtain ⟨again, hscan, hlexemes⟩ :=
    exists_scansTo_spaced hstorable (respell_eq_spell kept ▸ hlength) htail hkept
  refine ⟨again, htext ▸ hscan, ?_⟩
  rw [hlexemes, List.map_append, List.map_singleton, hlast]

/-- What is spelled from lexemes that are kept apart is scanned into them, and
so are tokens that were written down with spaces between them, unless there are
too many for the last one to be read. -/
theorem scansTo_spell_and_respell :
    (∀ (settings : Settings) (pieces : List Piece) (tail : List Char),
      settings.growable = true → settings.Storable → Separated pieces tail →
      Text.utf8Length (spell pieces) < Position.bound →
      ∃ tokens, ScansTo settings (String.ofList (spell pieces ++ tail)) tokens ∧
        tokens.map Token.lexeme = pieces.map Prod.snd ++ [⟨.endOfFile, ""⟩]) ∧
    (∀ (s : Scan) (ignore : Bool) (tokens : List Token),
      (s.tokens ignore).result = .ok tokens →
      ∀ (shown : List Token) (settings : Settings),
      shown = tokens ∨ shown = tokens.dropLast → settings.Storable →
      Text.utf8Length (respell tokens.dropLast) < Position.bound →
      (settings.growable = true ∨
        s.buffer.growable = false ∧ s.buffer.capacity ≤ settings.capacity) →
      ∃ again, ScansTo settings (String.ofList (respell shown)) again ∧
        again.map Token.lexeme = tokens.map Token.lexeme) := by
  constructor
  · intro settings pieces tail hgrowable hstorable hseparated hlength
    refine exists_scansTo_of_legible hstorable hlength hseparated.gap_tail
      (legible_of_separated hseparated) ?_
    exact fun piece _ => Lexeme.fitsIn_of_growable hgrowable piece.2
  · intro s ignore tokens h shown settings hshown hstorable hlength hroom
    exact exists_scansTo_respell h hshown hstorable hlength hroom

/-- A number directly before a word, and tokens that are written down with the
end of the file among them. -/
theorem scansTo_spell_and_respell_numberWord :
    Separated [([], ⟨.integer, "1"⟩), ([], ⟨.identifier, "a"⟩), ([' '], ⟨.lineBreak, "\n"⟩)] ['\t'] ∧
    (∃ tokens, ScansTo { capacity := 0 } "1a \n\t" tokens ∧
      tokens.map Token.lexeme =
        [⟨.integer, "1"⟩, ⟨.identifier, "a"⟩, ⟨.lineBreak, "\n"⟩, ⟨.endOfFile, ""⟩]) ∧
    ((Scan.startWith (.withCapacity 1 false) "a\"b\"" {}).tokens true).result =
      .ok [⟨.identifier, "a", ⟨0, 0, 0⟩⟩, ⟨.string, "b", ⟨1, 0, 1⟩⟩, ⟨.endOfFile, "", ⟨4, 0, 4⟩⟩] ∧
    (∃ again, ScansTo { capacity := 1, growable := false } "a \"b\" " again ∧
      again.map Token.lexeme = [⟨.identifier, "a"⟩, ⟨.string, "b"⟩, ⟨.endOfFile, ""⟩]) := by
  have hseparated : Separated
      [([], ⟨.integer, "1"⟩), ([], ⟨.identifier, "a"⟩), ([' '], ⟨.lineBreak, "\n"⟩)] ['\t'] := by
    constructor
    · simp only [List.forall_mem_cons]
      exact ⟨by simp [IsGap], by simp [IsGap], isGap_space, by simp⟩
    · simp [IsGap, isBlank]
    · simp only [List.forall_mem_cons]
      exact ⟨@Lexeme.WellFormed.integer ['1'] (by decide) (by simp),
        @Lexeme.WellFormed.identifier 'a' [] (by decide) (by simp), .lineFeed, by simp⟩
    · intro before gap l l' after h
      rcases before with _ | ⟨_, _ | ⟨_, _ | ⟨_, before⟩⟩⟩
      all_goals simp at h
      obtain ⟨⟨-, rfl⟩, ⟨rfl⟩, -⟩ := h
      decide
    · intro before gap l l' after h
      rcases before with _ | ⟨_, _ | ⟨_, _ | ⟨_, before⟩⟩⟩
      all_goals simp at h
      obtain ⟨⟨-, rfl⟩, ⟨rfl⟩, -⟩ := h
      decide
    · intro before gap after h
      rcases before with _ | ⟨_, _ | ⟨_, _ | ⟨_, before⟩⟩⟩
      all_goals simp at h
      obtain ⟨-, -, -, rfl⟩ := h
      simp
  have hscan : ((Scan.startWith (.withCapacity 1 false) "a\"b\"" {}).tokens true).result =
      .ok [⟨.identifier, "a", ⟨0, 0, 0⟩⟩, ⟨.string, "b", ⟨1, 0, 1⟩⟩,
        ⟨.endOfFile, "", ⟨4, 0, 4⟩⟩] :=
    Scan.tokens_eq_ok_iff.mpr ⟨_, _, _, _, .cons rfl rfl (.cons rfl rfl (.nil _)), rfl, rfl, rfl⟩
  have hspell : String.ofList (spell [([], ⟨.integer, "1"⟩), ([], ⟨.identifier, "a"⟩),
      ([' '], ⟨.lineBreak, "\n"⟩)] ++ ['\t']) = "1a \n\t" := by decide
  have hrespell : String.ofList (respell [⟨.identifier, "a", ⟨0, 0, 0⟩⟩,
      ⟨.string, "b", ⟨1, 0, 1⟩⟩, ⟨.endOfFile, "", ⟨4, 0, 4⟩⟩]) = "a \"b\" " := by decide
  refine ⟨hseparated, ?_, hscan, ?_⟩
  · rw [← hspell]
    exact scansTo_spell_and_respell.1 { capacity := 0 } _ _ rfl (by decide) hseparated (by decide)
  · rw [← hrespell]
    exact scansTo_spell_and_respell.2 _ _ _ hscan _ { capacity := 1, growable := false } (.inl rfl)
      (by decide) (by decide) (.inr ⟨rfl, by decide⟩)

/-- A lexeme on its own stands too close to no other one. -/
theorem separated_singleton {gap : List Char} {l : Lexeme} (hgap : IsGap gap) (hl : l.WellFormed) :
    Separated [(gap, l)] [] := by
  refine ⟨?_, isGap_nil, ?_, ?_, ?_, ?_⟩
  · exact List.forall_mem_singleton.mpr hgap
  · exact List.forall_mem_singleton.mpr hl
  · intro before gap' l₁ l₂ after h
    rcases before with _ | ⟨_, before⟩ <;> simp at h
  · intro before gap' l₁ l₂ after h
    rcases before with _ | ⟨_, before⟩ <;> simp at h
  · intro before gap' after h
    rcases before with _ | ⟨_, before⟩
    · rw [← (List.cons.inj h).2]
      exact nofun
    · simp at h

/-- A string does not scan if its end is left unread. -/
theorem not_scansTo_blanksAndString {blanks : Nat} {settings : Settings} {tokens : List Token}
    (hblanks : blanks + 2 = Position.bound) :
    ¬ ScansTo settings (blanksAndString blanks) tokens := by
  rintro ⟨scan, hstart, hrun⟩
  obtain ⟨p, -, hresult, -, -⟩ := Scan.nextToken_blanksAndString hblanks hstart
  have herror : (scan.tokens false).result = .error (.unterminatedString p) :=
    Scan.tokens_eq_error_iff.mpr ⟨_, _, _, .nil scan, hresult⟩
  rw [hrun] at herror
  cases herror

theorem spell_blanksAndString (blanks : Nat) :
    String.ofList (spell [(List.replicate blanks ' ', ⟨.string, "a"⟩)] ++ []) =
      blanksAndString blanks := by
  rw [spell_cons, spell_nil, List.append_nil, List.append_nil]
  rfl

/-- One string behind blanks is spelled right, and longer than what is read. -/
theorem separated_and_not_scansTo :
    ({} : Settings).growable = true ∧ ({} : Settings).Storable ∧
    Separated [(List.replicate (Position.bound - 2) ' ', ⟨.string, "a"⟩)] [] ∧
    ∀ tokens, ¬ ScansTo {}
      (String.ofList (spell [(List.replicate (Position.bound - 2) ' ', ⟨.string, "a"⟩)] ++ []))
      tokens := by
  refine ⟨rfl, by decide, ?_, fun tokens => ?_⟩
  · exact separated_singleton (isGap_replicate _) (@Lexeme.WellFormed.string ['a'] (by decide))
  · rw [spell_blanksAndString]
    exact not_scansTo_blanksAndString (by decide)

end Lexing
