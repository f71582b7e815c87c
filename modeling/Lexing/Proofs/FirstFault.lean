import Lexing.Proofs.Pieces
import Lexing.Proofs.Truncation

/-!
# The first fault

A scan stops at the first place where the text before it scans on its own and
what follows there cannot be a token: a foreign character, or a quotation mark
that no other one follows. Up to there it delivers what the text before is
scanned into, and the fault stands where the end of the file would have stood.
A character inside of a string is no such place, because the text before it is
then a string without an end.

A buffer that may grow never stops a scan.
-/

namespace Lexing

/-! ## What follows a text that scans -/

namespace Lexeme

theorem extendedBy_of_not_part {c : Char} (hpart : isIdentifierPart c = false) (hreturn : c ≠ '\r')
    (l : Lexeme) : l.extendedBy c = false := by
  have hdigit : c.isDigit = false := by
    rw [Bool.eq_false_iff]
    intro hdigit
    rw [isIdentifierPart_of_isDigit hdigit] at hpart
    cases hpart
  unfold extendedBy
  split
  · exact hdigit
  · exact hpart
  · simp [hreturn]
  · rfl

theorem extendedBy_of_foreign {c : Char} (hc : Foreign c) (l : Lexeme) :
    l.extendedBy c = false := by
  apply extendedBy_of_not_part hc.not_part
  rintro rfl
  exact absurd hc.not_blank (by decide)

theorem extendedBy_quote (l : Lexeme) : l.extendedBy '"' = false :=
  extendedBy_of_not_part (by decide) (by decide) l

end Lexeme

namespace Legible

variable {pieces : List Piece} {tail rest : List Char}

theorem append (h : Legible pieces tail) (hrest : ∀ l : Lexeme, EndsRun l.extendedBy rest) :
    Legible pieces (tail ++ rest) := by
  intro before gap l after hsplit
  obtain ⟨hgap, hl, hend⟩ := h before gap l after hsplit
  refine ⟨hgap, hl, ?_⟩
  rw [← List.append_assoc]
  exact hend.append fun _ => hrest l

end Legible

/-! ## Calls up to a fault -/

namespace Scan

/-- Calls deliver the tokens `ts`; the one after them stops at `e` and leads
to the scan `stop`. -/
def Fails (s : Scan) (ts : List Token) (e : Fault) (stop : Scan) : Prop :=
  ∃ log last, s.Delivers ts log last ∧ last.nextToken.result = .error e ∧
    last.nextToken.scan = stop

variable {s stop : Scan} {ts : List Token}

theorem Fails.tokens_eq {e : Fault} (h : s.Fails ts e stop) (ignore : Bool) :
    (s.tokens ignore).result = .error e ∧ (s.tokens ignore).scan = stop := by
  obtain ⟨log, last, hrun, he, hstop⟩ := h
  rw [tokens_of_delivers_of_error hrun he]
  exact ⟨rfl, hstop⟩

theorem tokens_eq_error_iff_fails {e : Fault} {ignore : Bool} :
    (s.tokens ignore).result = .error e ↔ ∃ ts stop, s.Fails ts e stop := by
  rw [tokens_eq_error_iff]
  constructor
  · rintro ⟨ts, log, last, hrun, he⟩
    exact ⟨ts, last.nextToken.scan, log, last, hrun, he, rfl⟩
  · rintro ⟨ts, stop, log, last, hrun, he, -⟩
    exact ⟨ts, log, last, hrun, he⟩

section Pieces

variable {pieces : List Piece} {tail : List Char}

theorem fails_of_foreign {c : Char} {back : List Char}
    (hrest : s.reader.rest = spell pieces ++ (tail ++ c :: back)) (htail : IsGap tail)
    (hlegible : Legible pieces tail) (hfits : ∀ piece ∈ pieces, piece.2.FitsIn s.buffer)
    (hc : Foreign c) :
    ∃ stop p, p = (positionBehind s.reader.tracking s.position pieces).advanceOver
        s.reader.tracking tail ∧
      s.Fails ((placed s.reader.tracking s.position pieces).map Prod.snd)
        (.unexpectedCharacter c p) stop ∧
      stop.reader.rest = c :: back ∧ stop.position = p := by
  have hapart : ∀ l : Lexeme, EndsRun l.extendedBy (c :: back) := by
    intro l
    exact EndsRun.cons.mpr (Lexeme.extendedBy_of_foreign hc l)
  obtain ⟨log, last, hrun, hlastRest, hposition, htracking, -⟩ :=
    exists_delivers_of_pieces hrest (hlegible.append hapart) hfits
  have hstep := nextToken_of_foreign htail hc hlastRest
  refine ⟨_, (last.past tail (c :: back)).position, ?_, ⟨log, last, hrun, ?_, rfl⟩, ?_, ?_⟩
  · rw [position_past, hposition, htracking]
  · rw [hstep]
    rfl
  · rw [hstep]
    rfl
  · rw [hstep]
    rfl

theorem fails_of_openString {body : List Char}
    (hrest : s.reader.rest = spell pieces ++ (tail ++ '"' :: body)) (htail : IsGap tail)
    (hlegible : Legible pieces tail) (hgrowable : s.buffer.growable = true) (hbody : '"' ∉ body) :
    ∃ stop p, p = (positionBehind s.reader.tracking s.position pieces).advanceOver
        s.reader.tracking tail ∧
      s.Fails ((placed s.reader.tracking s.position pieces).map Prod.snd)
        (.unterminatedString p) stop ∧
      stop.reader.rest = [] ∧
      stop.position.offset = s.position.offset + Text.utf8Length s.reader.rest := by
  have hapart : ∀ l : Lexeme, EndsRun l.extendedBy ('"' :: body) := by
    intro l
    exact EndsRun.cons.mpr l.extendedBy_quote
  have hfits : ∀ piece ∈ pieces, piece.2.FitsIn s.buffer := by
    intro piece _ _
    exact .inl hgrowable
  obtain ⟨log, last, hrun, hlastRest, hposition, htracking, hlimit⟩ :=
    exists_delivers_of_pieces hrest (hlegible.append hapart) hfits
  have hstep := nextToken_of_openString htail hbody (.inl (hlimit.growable.trans hgrowable)) hlastRest
  refine ⟨_, (last.past tail ('"' :: body)).position, ?_, ⟨log, last, hrun, ?_, rfl⟩, ?_, ?_⟩
  · rw [position_past, hposition, htracking]
  · rw [hstep]
    rfl
  · rw [hstep]
    rfl
  · rw [hstep, hrest]
    show ((last.past tail ('"' :: body)).position.advanceOver _ ('"' :: body)).offset = _
    simp only [Position.offset_advanceOver, position_past, hposition, offset_positionBehind,
      Text.utf8Length_append]
    omega

end Pieces

/-- Only these two faults stop a scan whose buffer may grow, and either has
pieces before it. -/
theorem exists_pieces_of_fails {e : Fault} (hgrowable : s.buffer.growable = true)
    (h : s.Fails ts e stop) :
    ∃ pieces tail rest p, s.reader.rest = spell pieces ++ (tail ++ rest) ∧ IsGap tail ∧
      Legible pieces tail ∧
      p = (positionBehind s.reader.tracking s.position pieces).advanceOver s.reader.tracking tail ∧
      ((∃ c back, rest = c :: back ∧ Foreign c ∧ e = .unexpectedCharacter c p) ∨
        ∃ body, rest = '"' :: body ∧ '"' ∉ body ∧ e = .unterminatedString p) := by
  obtain ⟨log, last, hrun, he, -⟩ := h
  obtain ⟨pieces, hspell, hlegible, -, -, hposition, htracking, hlimit⟩ :=
    exists_pieces_of_delivers hrun
  have hout := last.nextToken_outcome
  generalize last.nextToken = step at he hout
  cases hout with
  | endOfFile => cases he
  | lexeme => cases he
  | @foreign gap back c hgap hc hlastRest =>
      cases he
      rw [hlastRest] at hspell hlegible
      refine ⟨pieces, gap, c :: back, _, hspell, hgap, hlegible.of_append, ?_, .inl ⟨c, back, rfl, hc, rfl⟩⟩
      rw [position_past, hposition, htracking]
  | @openString gap body hgap hbody _ hlastRest =>
      cases he
      rw [hlastRest] at hspell hlegible
      refine ⟨pieces, gap, '"' :: body, _, hspell, hgap, hlegible.of_append, ?_,
        .inr ⟨body, rfl, hbody, rfl⟩⟩
      rw [position_past, hposition, htracking]
  | @refusal gap text front run e hgap hgathers hfault _ =>
      -- A buffer that may grow has room for every run.
      have hfit : last.buffer.reset.Fits run := .inl (hlimit.growable.trans hgrowable)
      rw [(TextBuffer.fault_fill_eq_none_iff _ _).mpr hfit] at hfault
      cases hfault

end Scan

/-! ## Whole texts -/

section Source

variable {settings : Settings} {source : String} {scan : Scan}

/-- The part of a source before some place of it scans into pieces, if at all. -/
theorem exists_pieces_of_scansTo_front {front back : List Char} {tokens : List Token}
    (hsource : (Reader.readable source).toList = front ++ back)
    (hfront : ScansTo settings (String.ofList front) tokens) :
    ∃ pieces tail, front = spell pieces ++ tail ∧ IsGap tail ∧ Legible pieces tail ∧
      (∀ piece ∈ pieces, piece.2.FitsIn settings.buffer) ∧
      tokens = tokensOf settings.tracking {} pieces tail := by
  obtain ⟨-, hpieces⟩ := scansTo_iff_exists_pieces.mp hfront
  rwa [Reader.toList_readable_ofList (Reader.utf8Length_lt_of_readable hsource).1] at hpieces

/-- The text before a foreign character is delivered, and its end is where the
scan stops. -/
theorem fails_of_scansTo_of_foreign {front back : List Char} {c : Char} {tokens : List Token}
    (hstart : Scan.start? source settings = some scan)
    (hsource : (Reader.readable source).toList = front ++ c :: back)
    (hfront : ScansTo settings (String.ofList front) tokens) (hc : Foreign c) :
    ∃ ts p stop, tokens = ts ++ [.endOfFile p] ∧ p.offset = Text.utf8Length front ∧
      scan.Fails ts (.unexpectedCharacter c p) stop ∧ stop.reader.rest = c :: back ∧
      stop.position = p := by
  obtain ⟨-, rfl⟩ := Scan.start?_eq_some_iff.mp hstart
  obtain ⟨pieces, tail, hspell, htail, hlegible, hfits, rfl⟩ :=
    exists_pieces_of_scansTo_front hsource hfront
  rw [hspell, List.append_assoc] at hsource
  obtain ⟨stop, p, rfl, hrun, hrest, hposition⟩ :=
    Scan.fails_of_foreign (s := .startWith settings.buffer source settings) hsource htail hlegible
      hfits hc
  refine ⟨_, _, stop, rfl, ?_, hrun, hrest, hposition⟩
  rw [hspell]
  exact offset_endOfFile ..

theorem fails_of_scansTo_of_openString {front body : List Char} {tokens : List Token}
    (hstart : Scan.start? source settings = some scan)
    (hsource : (Reader.readable source).toList = front ++ '"' :: body)
    (hfront : ScansTo settings (String.ofList front) tokens)
    (hgrowable : settings.growable = true) (hbody : '"' ∉ body) :
    ∃ ts p stop, tokens = ts ++ [.endOfFile p] ∧ p.offset = Text.utf8Length front ∧
      scan.Fails ts (.unterminatedString p) stop ∧ stop.reader.rest = [] ∧
      stop.position.offset = Text.utf8Length (Reader.readable source).toList := by
  obtain ⟨-, rfl⟩ := Scan.start?_eq_some_iff.mp hstart
  obtain ⟨pieces, tail, hspell, htail, hlegible, -, rfl⟩ :=
    exists_pieces_of_scansTo_front hsource hfront
  rw [hspell, List.append_assoc] at hsource
  obtain ⟨stop, p, rfl, hrun, hrest, hposition⟩ :=
    Scan.fails_of_openString (s := .startWith settings.buffer source settings) hsource htail
      hlegible hgrowable hbody
  refine ⟨_, _, stop, rfl, ?_, hrun, hrest, hposition.trans (Nat.zero_add _)⟩
  rw [hspell]
  exact offset_endOfFile ..

/-- Before a fault there is a text that scans. -/
theorem exists_scansTo_of_error {e : Fault} {ignore : Bool}
    (hstart : Scan.start? source settings = some scan) (hgrowable : settings.growable = true)
    (he : (scan.tokens ignore).result = .error e) :
    ∃ front rest tokens p, (Reader.readable source).toList = front ++ rest ∧
      p.offset = Text.utf8Length front ∧ ScansTo settings (String.ofList front) tokens ∧
      ((∃ c back, rest = c :: back ∧ Foreign c ∧ e = .unexpectedCharacter c p) ∨
        ∃ body, rest = '"' :: body ∧ '"' ∉ body ∧ e = .unterminatedString p) := by
  obtain ⟨hcapacity, rfl⟩ := Scan.start?_eq_some_iff.mp hstart
  obtain ⟨ts, stop, hrun⟩ := Scan.tokens_eq_error_iff_fails.mp he
  obtain ⟨pieces, tail, rest, p, hrest, htail, hlegible, rfl, hfault⟩ :=
    Scan.exists_pieces_of_fails hgrowable hrun
  have hsource : (Reader.readable source).toList = (spell pieces ++ tail) ++ rest := by
    rw [List.append_assoc]
    exact hrest
  have hlength := (Reader.utf8Length_lt_of_readable hsource).1
  refine ⟨spell pieces ++ tail, rest, _, _, hsource, offset_endOfFile ..,
    scansTo_spell hcapacity hlength htail hlegible ?_, hfault⟩
  exact fun piece _ => Lexeme.fitsIn_of_growable hgrowable piece.2

theorem unexpectedCharacter_iff (hstart : Scan.start? source settings = some scan)
    (hgrowable : settings.growable = true) {c : Char} {offset : Nat} :
    (∃ p, p.offset = offset ∧ (scan.tokens false).result = .error (.unexpectedCharacter c p)) ↔
      ∃ front back tokens, (Reader.readable source).toList = front ++ c :: back ∧
        offset = Text.utf8Length front ∧ ScansTo settings (String.ofList front) tokens ∧
        Foreign c := by
  constructor
  · rintro ⟨p, rfl, he⟩
    obtain ⟨front, rest, tokens, p', hsource, hoffset, hfront, hfault⟩ :=
      exists_scansTo_of_error hstart hgrowable he
    rcases hfault with ⟨c', back, rfl, hc, hsame⟩ | ⟨_, _, _, hsame⟩
    · cases hsame
      exact ⟨front, back, tokens, hsource, hoffset, hfront, hc⟩
    · cases hsame
  · rintro ⟨front, back, tokens, hsource, rfl, hfront, hc⟩
    obtain ⟨ts, p, stop, -, hoffset, hrun, -, -⟩ :=
      fails_of_scansTo_of_foreign hstart hsource hfront hc
    exact ⟨p, hoffset, (hrun.tokens_eq false).1⟩

theorem unterminatedString_iff (hstart : Scan.start? source settings = some scan)
    (hgrowable : settings.growable = true) {offset : Nat} :
    (∃ p, p.offset = offset ∧ (scan.tokens false).result = .error (.unterminatedString p)) ↔
      ∃ front back tokens, (Reader.readable source).toList = front ++ '"' :: back ∧
        offset = Text.utf8Length front ∧ ScansTo settings (String.ofList front) tokens ∧
        '"' ∉ back := by
  constructor
  · rintro ⟨p, rfl, he⟩
    obtain ⟨front, rest, tokens, p', hsource, hoffset, hfront, hfault⟩ :=
      exists_scansTo_of_error hstart hgrowable he
    rcases hfault with ⟨_, _, _, _, hsame⟩ | ⟨back, rfl, hback, hsame⟩
    · cases hsame
    · cases hsame
      exact ⟨front, back, tokens, hsource, hoffset, hfront, hback⟩
  · rintro ⟨front, back, tokens, hsource, rfl, hfront, hback⟩
    obtain ⟨ts, p, stop, -, hoffset, hrun, -, -⟩ :=
      fails_of_scansTo_of_openString hstart hsource hfront hgrowable hback
    exact ⟨p, hoffset, (hrun.tokens_eq false).1⟩

end Source

/-- How a scan of the text ends, and what it has done before. -/
structure ClassifiesFaults (settings : Settings) (source : String) (scan : Scan) : Prop where
  /-- The scan reaches the end of the text or stops at one of two faults. -/
  outcome : (∃ tokens, (scan.tokens false).result = .ok tokens) ∨
    (∃ c p, (scan.tokens false).result = .error (.unexpectedCharacter c p)) ∨
    ∃ p, (scan.tokens false).result = .error (.unterminatedString p)
  unexpectedCharacter : ∀ c offset,
    (∃ p, p.offset = offset ∧ (scan.tokens false).result = .error (.unexpectedCharacter c p)) ↔
      ∃ front back tokens, source.toList = front ++ c :: back ∧ offset = Text.utf8Length front ∧
        ScansTo settings (String.ofList front) tokens ∧ Foreign c
  unterminatedString : ∀ offset,
    (∃ p, p.offset = offset ∧ (scan.tokens false).result = .error (.unterminatedString p)) ↔
      ∃ front back tokens, source.toList = front ++ '"' :: back ∧
        offset = Text.utf8Length front ∧ ScansTo settings (String.ofList front) tokens ∧ '"' ∉ back
  /-- The tokens before a foreign character are those of the text before it, and
  the character is not read. -/
  stop_foreign : ∀ front c back tokens, source.toList = front ++ c :: back →
    ScansTo settings (String.ofList front) tokens → Foreign c →
    ∃ ts p stop, tokens = ts ++ [.endOfFile p] ∧ p.offset = Text.utf8Length front ∧
      scan.Fails ts (.unexpectedCharacter c p) stop ∧ (scan.tokens false).scan = stop ∧
      stop.reader.rest = c :: back ∧ stop.position = p
  /-- The same of a string without an end, which is read. -/
  stop_openString : ∀ front back tokens, source.toList = front ++ '"' :: back →
    ScansTo settings (String.ofList front) tokens → '"' ∉ back →
    ∃ ts p stop, tokens = ts ++ [.endOfFile p] ∧ p.offset = Text.utf8Length front ∧
      scan.Fails ts (.unterminatedString p) stop ∧ (scan.tokens false).scan = stop ∧
      stop.reader.rest = [] ∧ stop.position.offset = Text.utf8Length source.toList

/-- The end of the text is where reading ends: of a source that is too long, a part from its
start counts. -/
theorem exists_classifiesFaults_of_growable {settings : Settings} (source : String)
    (hgrowable : settings.growable = true) (hstorable : settings.Storable) :
    ∃ scan part, Scan.start? source settings = some scan ∧ ReadablePart source part ∧
      ClassifiesFaults settings part scan := by
  obtain ⟨scan, hstart⟩ : ∃ scan, Scan.start? source settings = some scan :=
    ⟨_, Scan.start?_eq_some_iff.mpr ⟨Settings.storable_iff.mp hstorable, rfl⟩⟩
  refine ⟨scan, _, hstart, readablePart_readable source, ?_, ?_, ?_, ?_, ?_⟩
  · cases hresult : (scan.tokens false).result with
    | ok tokens => exact .inl ⟨tokens, rfl⟩
    | error e =>
        obtain ⟨_, _, _, p, _, _, _, hfault⟩ := exists_scansTo_of_error hstart hgrowable hresult
        rcases hfault with ⟨c, _, _, _, rfl⟩ | ⟨_, _, _, rfl⟩
        · exact .inr (.inl ⟨c, p, rfl⟩)
        · exact .inr (.inr ⟨p, rfl⟩)
  · intro c offset
    exact unexpectedCharacter_iff hstart hgrowable
  · intro offset
    exact unterminatedString_iff hstart hgrowable
  · intro front c back tokens hsource hfront hc
    obtain ⟨ts, p, stop, htokens, hoffset, hrun, hrest, hposition⟩ :=
      fails_of_scansTo_of_foreign hstart hsource hfront hc
    exact ⟨ts, p, stop, htokens, hoffset, hrun, (hrun.tokens_eq false).2, hrest, hposition⟩
  · intro front back tokens hsource hfront hback
    obtain ⟨ts, p, stop, htokens, hoffset, hrun, hrest, hposition⟩ :=
      fails_of_scansTo_of_openString hstart hsource hfront hgrowable hback
    exact ⟨ts, p, stop, htokens, hoffset, hrun, (hrun.tokens_eq false).2, hrest, hposition⟩

/-- The number sign stands inside of a string, the dot does not. -/
theorem exists_classifiesFaults_of_growable_dot :
    ({ capacity := 0 } : Settings).growable = true ∧ ({ capacity := 0 } : Settings).Storable ∧
    ∃ scan, Scan.start? "\"#\" x.y" { capacity := 0 } = some scan ∧
      ClassifiesFaults { capacity := 0 } "\"#\" x.y" scan ∧
      (scan.tokens false).result = .error (.unexpectedCharacter '.' ⟨5, 1, 1⟩) := by
  obtain ⟨scan, part, hstart, hpart, hclassifies⟩ :=
    @exists_classifiesFaults_of_growable { capacity := 0 } "\"#\" x.y" rfl (by decide)
  rw [hpart.eq_of_lt (by decide)] at hclassifies
  refine ⟨rfl, by decide, scan, hstart, hclassifies, ?_⟩
  cases hstart
  exact Scan.tokens_eq_error_iff.mpr ⟨_, _, _, .cons rfl rfl (.cons rfl rfl (.nil _)), rfl⟩

/-- A string has no end if reading ends before it, though there is a quotation mark behind. -/
theorem not_classifiesFaults_blanksAndString {blanks : Nat} {settings : Settings} {scan : Scan}
    (hblanks : blanks + 2 = Position.bound)
    (hstart : Scan.start? (blanksAndString blanks) settings = some scan) :
    ¬ ClassifiesFaults settings (blanksAndString blanks) scan := by
  intro h
  obtain ⟨p, hp, hresult, -, -⟩ := Scan.nextToken_blanksAndString hblanks hstart
  obtain ⟨front, back, tokens, hsource, hfront, -, hback⟩ := (h.unterminatedString blanks).mp
    ⟨p, hp, Scan.tokens_eq_error_iff.mpr ⟨_, _, _, .nil _, hresult⟩⟩
  rw [blanksAndString, String.toList_ofList] at hsource
  obtain ⟨-, hquote⟩ :=
    Text.append_inj_of_utf8Length_eq hsource ((utf8Length_blanks blanks).trans hfront)
  rw [← (List.cons.inj hquote).2] at hback
  exact hback (.tail _ (.head _))

theorem exists_not_classifiesFaults :
    ({} : Settings).growable = true ∧ ({} : Settings).Storable ∧
    ∃ scan, Scan.start? (blanksAndString (Position.bound - 2)) {} = some scan ∧
      ¬ ClassifiesFaults {} (blanksAndString (Position.bound - 2)) scan := by
  have hstorable : ({} : Settings).Storable := by decide
  have hstart := hstorable.start?_eq (blanksAndString (Position.bound - 2))
  exact ⟨rfl, hstorable, _, hstart, not_classifiesFaults_blanksAndString (by decide) hstart⟩

end Lexing
