import Lexing.Proofs.Ending
import Lexing.Proofs.Pieces
import Lexing.Proofs.Positions
import Lexing.Proofs.Shifting
import Lexing.Proofs.Truncation

/-!
# The first text that is too long

Only the texts of identifiers and strings pass through the buffer, the latter
also where the closing quotation mark is missing. A scan whose buffer may not
grow delivers what one with a growing buffer delivers, up to the first of these
texts that is longer than the capacity. There it stops, behind the first
character that has no room.
-/

namespace Lexing

/-- The result of a call whose text passes through the buffer, with the offset
at which that text begins and the text. -/
inductive GatheredText (source : List Char) : Except Fault Token → Nat → List Char → Prop
  | identifier {t : Token} (hkind : t.kind = .identifier) :
      GatheredText source (.ok t) t.position.offset t.text.toList
  | string {t : Token} (hkind : t.kind = .string) :
      GatheredText source (.ok t) (t.position.offset + 1) t.text.toList
  | openString {p : Position} {front body : List Char} (hsource : source = front ++ '"' :: body)
      (hoffset : p.offset = Text.utf8Length front) :
      GatheredText source (.error (.unterminatedString p)) (p.offset + 1) body

/-- The result has a text that passes through the buffer and is longer than `n` characters. -/
def Overlong (source : List Char) (n : Nat) (result : Except Fault Token) : Prop :=
  ∃ start text, GatheredText source result start text ∧ n < text.length

theorem gatheredText_tokenAt (source : List Char) {l : Lexeme} (h : l.isGathered = true)
    (p : Position) :
    GatheredText source (.ok (l.tokenAt p)) (p.offset + Text.utf8Length l.opener)
      l.text.toList := by
  rw [Lexeme.isGathered, Bool.or_eq_true, decide_eq_true_eq, decide_eq_true_eq] at h
  rcases h with hkind | hkind
  · rw [Lexeme.opener, if_neg (by simp [hkind])]
    exact .identifier hkind
  · rw [Lexeme.opener, if_pos hkind]
    exact .string hkind

namespace Scan

variable {source : List Char} {n : Nat} {f g s : Scan}

/-! ## What is gathered shows in the result -/

theorem gatheredText_of_collects {lead run : List Char} (hgrowable : s.buffer.growable = true)
    (hstands : s.StandsIn source) (h : s.Collects lead run) :
    GatheredText source s.nextToken.result (s.position.offset + Text.utf8Length lead) run := by
  obtain ⟨gap, front, text, rfl, hgap, hrest, hrun⟩ := h
  have hfit : ∀ l : Lexeme, l.FitsIn s.buffer := fun _ _ => .inl hgrowable
  rw [Text.utf8Length_append, ← Nat.add_assoc,
    ← Position.offset_advanceOver s.reader.tracking s.position gap]
  cases hrun with
  | @identifier c word rest hcs hc hword hend =>
      have hspelling : text = (⟨.identifier, String.ofList (c :: word)⟩ : Lexeme).spelling ++ rest := by
        rw [hcs, Lexeme.spelling_of_ne_string _ (by decide)]
      rw [hspelling] at hrest
      rw [nextToken_of_lexeme hgap (.identifier hc hword) hend (hfit _) hrest]
      have htext := gatheredText_tokenAt source
        (l := ⟨.identifier, String.ofList (c :: word)⟩) rfl
        (s.position.advanceOver s.reader.tracking gap)
      rwa [String.toList_ofList] at htext
  | @string _ rest hcs hbody hend =>
      cases rest with
      | nil =>
          rw [hcs, List.append_nil] at hrest
          rw [nextToken_of_openString hgap hbody (.inl hgrowable) hrest]
          obtain ⟨front, hsource, hoffset, -⟩ := hstands.past hrest
          exact .openString hsource hoffset
      | cons d rest =>
          have hd : d = '"' := by simpa using hend
          have hspelling : text = (⟨.string, String.ofList run⟩ : Lexeme).spelling ++ rest := by
            rw [hcs, hd, Lexeme.spelling_string]
            simp
          rw [hspelling] at hrest
          rw [nextToken_of_lexeme hgap (.string hbody)
            (.of_forall rest fun c => Lexeme.extendedBy_string _ c) (hfit _) hrest]
          have htext := gatheredText_tokenAt source (l := ⟨.string, String.ofList run⟩) rfl
            (s.position.advanceOver s.reader.tracking gap)
          rwa [String.toList_ofList] at htext

theorem collects_of_gatheredText {start : Nat} {text : List Char} (hstands : s.StandsIn source)
    (h : GatheredText source s.nextToken.result start text) :
    ∃ lead, s.Collects lead text ∧ start = s.position.offset + Text.utf8Length lead := by
  have hout := s.nextToken_outcome
  generalize s.nextToken = step at h hout
  cases hout with
  | endOfFile =>
      cases h with
      | identifier hkind => cases hkind
      | string hkind => cases hkind
  | foreign => cases h
  | refusal => cases h
  | @openString gap body hgap hbody hfit hrest =>
      cases h with
      | @openString p front body' hsource hoffset =>
          obtain ⟨before, hbefore, hstart, -⟩ := hstands.past hrest
          -- The text can be divided at the quotation mark in one way only.
          have hsplit : front ++ '"' :: text = before ++ '"' :: body :=
            hsource.symm.trans hbefore
          have hlength : Text.utf8Length front = Text.utf8Length before :=
            hoffset.symm.trans hstart
          obtain ⟨-, hbody'⟩ := Text.append_inj_of_utf8Length_eq hsplit hlength
          cases hbody'
          have hrun : Gathers ('"' :: text) ['"'] text := .string (by simp) hbody (EndsRun.nil _)
          refine ⟨gap ++ ['"'], ⟨gap, ['"'], _, rfl, hgap, hrest, hrun⟩, ?_⟩
          rw [position_past, Position.offset_advanceOver, Text.utf8Length_append, Nat.add_assoc]
          rfl
  | @lexeme gap rest l hgap hl hend hfit hrest =>
      have hcollects : l.isGathered = true → s.Collects (gap ++ l.opener) l.text.toList :=
        fun hgathered =>
          ⟨gap, l.opener, _, rfl, hgap, hrest, gathers_of_isGathered hl hend hgathered⟩
      cases h with
      | identifier hkind =>
          have hl : l.kind = .identifier := hkind
          refine ⟨gap ++ l.opener, hcollects (by simp [Lexeme.isGathered, hl]), ?_⟩
          show (s.position.advanceOver s.reader.tracking gap).offset = _
          simp [Lexeme.opener, hl]
      | string hkind =>
          have hl : l.kind = .string := hkind
          refine ⟨gap ++ l.opener, hcollects (by simp [Lexeme.isGathered, hl]), ?_⟩
          show (s.position.advanceOver s.reader.tracking gap).offset + 1 = _
          rw [Position.offset_advanceOver, Text.utf8Length_append, Lexeme.opener, if_pos hl,
            Nat.add_assoc]
          rfl

/-! ## Both buffers side by side -/

/-- Two scans at the same place of the text: the buffer of `f` holds `n`
characters for good, that of `g` grows. -/
structure SideBySide (source : List Char) (n : Nat) (f g : Scan) : Prop extends
    Shifted {} g f where
  fixed : f.buffer.growable = false
  capacity : f.buffer.capacity = n
  growable : g.buffer.growable = true
  standsIn : g.StandsIn source

namespace SideBySide

theorem fits_iff (h : SideBySide source n f g) (run : List Char) :
    (f.buffer.reset.fill run).fault = none ↔ run.length ≤ n := by
  rw [TextBuffer.fault_fill_eq_none_iff, TextBuffer.fits_reset_iff, h.fixed, h.capacity]
  simp

/-- A call that comes upon no text of more than `n` characters is the same on both. -/
theorem nextToken (h : SideBySide source n f g)
    (hshort : ¬ Overlong source n g.nextToken.result) :
    f.nextToken.result = g.nextToken.result ∧
      SideBySide source n f.nextToken.scan g.nextToken.scan := by
  have hf := f.sameLimit_nextToken
  have hg := g.sameLimit_nextToken
  have hfault : ∀ lead run, g.Collects lead run →
      (f.buffer.reset.fill run).fault = (g.buffer.reset.fill run).fault := by
    intro lead run hrun
    have htext := gatheredText_of_collects h.growable h.standsIn hrun
    have hroom : run.length ≤ n := Nat.not_lt.mp fun hlong => hshort ⟨_, run, htext, hlong⟩
    rw [(h.fits_iff run).mpr hroom, eq_comm, TextBuffer.fault_fill_eq_none_iff]
    exact .inl h.growable
  obtain ⟨hresult, hscan⟩ := h.toShifted.nextToken hfault
  rw [shiftResult_start] at hresult
  refine ⟨hresult, hscan, hf.growable.trans h.fixed, ?_, hg.growable.trans h.growable,
    h.standsIn.moves g.moves_nextToken⟩
  rw [hf.capacity h.fixed, h.capacity]

theorem after {k : Nat} (h : SideBySide source n f g)
    (hshort : ∀ j < k, ¬ Overlong source n (g.resultAt j)) :
    SideBySide source n (f.after k) (g.after k) := by
  induction k generalizing f g with
  | zero => exact h
  | succ k ih =>
      obtain ⟨-, hscan⟩ := h.nextToken (hshort 0 (Nat.succ_pos k))
      exact ih hscan fun j hj => hshort (j + 1) (Nat.succ_lt_succ hj)

theorem resultAt {k : Nat} (h : SideBySide source n f g)
    (hshort : ∀ j ≤ k, ¬ Overlong source n (g.resultAt j)) :
    f.resultAt k = g.resultAt k ∧ (f.after (k + 1)).position = (g.after (k + 1)).position := by
  have hafter := h.after fun j hj => hshort j (Nat.le_of_lt hj)
  obtain ⟨hresult, hscan⟩ := hafter.nextToken (hshort k (Nat.le_refl k))
  refine ⟨hresult, ?_⟩
  rw [after_succ, after_succ, hscan.position, Position.shiftBy_start]

/-- A text of more than `n` characters stops the scan behind the first of them
that has no room. -/
theorem nextToken_of_collects {lead run : List Char} (h : SideBySide source n f g)
    (hrun : g.Collects lead run) (hlong : n < run.length) :
    f.nextToken.result = .error (.bufferExhausted n) ∧
      g.reader.rest = lead ++ (run.take (n + 1) ++ f.nextToken.scan.reader.rest) ∧
      f.nextToken.scan.position.offset =
        g.position.offset + Text.utf8Length (lead ++ run.take (n + 1)) := by
  obtain ⟨gap, front, text, rfl, hgap, hrest, hgathers⟩ := hrun
  obtain ⟨rest, rfl⟩ := hgathers.exists_eq
  have hfault : (f.buffer.reset.fill run).fault = some ⟨n⟩ := by
    rw [TextBuffer.fault_fill_reset_eq_some_iff, h.capacity]
    exact ⟨h.fixed, hlong, rfl⟩
  have hreader := reader_refusal hfault gap front rest
  dsimp only at hreader
  rw [nextToken_of_gathers hgap hgathers hfault (h.rest.trans hrest), position, hreader,
    Reader.rest_past, Reader.position_past, Position.offset_advanceOver]
  refine ⟨rfl, ?_, ?_⟩
  · rw [hrest, List.append_assoc, ← List.append_assoc (run.take _), List.take_append_drop]
  · have hoffset : f.reader.position.offset = g.position.offset :=
      congrArg Position.offset (h.position.trans (Position.shiftBy_start _))
    rw [hoffset, List.append_assoc]

end SideBySide

/-! ## Behind the last token -/

theorem ended_of_isLast (hgrowable : s.buffer.growable = true)
    (h : isLast s.nextToken.result = true) : s.nextToken.scan.Ended := by
  have hout := s.nextToken_outcome
  generalize s.nextToken = step at h hout ⊢
  cases hout with
  | endOfFile => exact .inl rfl
  | foreign hgap hc hrest => exact .inr ⟨_, _, rfl, hc⟩
  | openString => exact .inl rfl
  | @refusal gap text front run e hgap hrun hfault hrest =>
      have hfits : s.buffer.reset.Fits run := .inl hgrowable
      rw [(TextBuffer.fault_fill_eq_none_iff _ _).mpr hfits] at hfault
      cases hfault
  | lexeme hgap hl =>
      rw [delivery, isLast, isEndOfFile_tokenAt hl] at h
      cases h

theorem Ended.not_overlong (h : s.Ended) : ¬ Overlong source n s.nextToken.result := by
  rintro ⟨start, text, htext, -⟩
  obtain ⟨-, hend | ⟨c, hforeign⟩⟩ := h.outcome
  · rw [hend] at htext
    cases htext with
    | identifier hkind => cases hkind
    | string hkind => cases hkind
  · rw [hforeign] at htext
    cases htext

/-- Behind the first result that ends an iteration there is no text to gather. -/
theorem not_overlong_of_isLast (hgrowable : s.buffer.growable = true) {j k : Nat}
    (hlast : isLast (s.resultAt j) = true) (hlt : j < k) :
    ¬ Overlong source n (s.resultAt k) := by
  have hbuffer : (s.after j).buffer.growable = true := by
    refine keep_after (P := fun u => u.buffer.growable = true) ?_ hgrowable j
    intro u hu
    exact u.sameLimit_nextToken.growable.trans hu
  obtain ⟨i, rfl⟩ := Nat.exists_eq_add_of_lt hlt
  have hended : (s.after (j + 1 + i)).Ended := by
    rw [after_add, after_succ]
    exact keep_after (P := Ended) (fun _ hu => hu.nextToken) (ended_of_isLast hbuffer hlast) i
  rw [Nat.add_right_comm]
  exact hended.not_overlong

/-- Before a text that is too long, both scans deliver the same tokens: if an
iteration had ended there, no text would have come behind it. -/
theorem SideBySide.exists_token_of_lt {j k : Nat} (h : SideBySide source n f g)
    (hshort : ∀ i < k, ¬ Overlong source n (g.resultAt i))
    (hlong : Overlong source n (g.resultAt k)) (hj : j < k) :
    ∃ t, f.resultAt j = .ok t ∧ g.resultAt j = .ok t ∧ t.isEndOfFile = false ∧
      (f.after (j + 1)).position = (g.after (j + 1)).position := by
  obtain ⟨hsame, hposition⟩ := h.resultAt fun i hi => hshort i (Nat.lt_of_le_of_lt hi hj)
  have hmore : isLast (g.resultAt j) = false := by
    rw [Bool.eq_false_iff]
    intro hlast
    exact not_overlong_of_isLast h.growable hlast hj hlong
  cases hg : g.resultAt j with
  | error e =>
      rw [hg] at hmore
      cases hmore
  | ok t =>
      rw [hg] at hsame hmore
      exact ⟨t, hsame, rfl, hmore, hposition⟩

end Scan

/-! ## The first text that is too long -/

/-- How a scan `f` with a buffer of `n` characters for good compares with a scan
`g` of the same text whose buffer grows, token by token. -/
structure DivergesAtOverlong (source : String) (n : Nat) (f g : Scan) : Prop where
  /-- Up to the first text of more than `n` characters both give the same. -/
  agree : ∀ k, (∀ j ≤ k, ¬ Overlong source.toList n (g.resultAt j)) →
    f.resultAt k = g.resultAt k ∧ (f.after (k + 1)).position = (g.after (k + 1)).position
  /-- If there is no such text up to the end of the file or the first fault,
  they do so for ever. -/
  forever : ∀ k, Scan.isLast (g.resultAt k) = true →
    (∀ j ≤ k, ¬ Overlong source.toList n (g.resultAt j)) →
    ∀ i, f.resultAt i = g.resultAt i ∧ (f.after (i + 1)).position = (g.after (i + 1)).position
  /-- The first such text stops `f` behind its character `n + 1`. Before, both
  have delivered the same tokens. -/
  diverge : ∀ k start text, (∀ j < k, ¬ Overlong source.toList n (g.resultAt j)) →
    GatheredText source.toList (g.resultAt k) start text → n < text.length →
    (∀ j < k, ∃ t, f.resultAt j = .ok t ∧ g.resultAt j = .ok t ∧ t.isEndOfFile = false ∧
      (f.after (j + 1)).position = (g.after (j + 1)).position) ∧
    f.resultAt k = .error (.bufferExhausted n) ∧
    (∃ front, source.toList = front ++ (text.take (n + 1) ++ (f.after (k + 1)).reader.rest) ∧
      start = Text.utf8Length front ∧
      (f.after (k + 1)).position.offset = Text.utf8Length (front ++ text.take (n + 1))) ∧
    ∀ ignore, (f.tokens ignore).result = .error (.bufferExhausted n) ∧
      (f.tokens ignore).scan = f.after (k + 1)
  /-- No other token stops `f`, whatever its length. -/
  others : ∀ k t, (∀ j < k, ¬ Overlong source.toList n (g.resultAt j)) →
    g.resultAt k = .ok t → t.kind ≠ .identifier → t.kind ≠ .string → f.resultAt k = .ok t

theorem Scan.SideBySide.divergesAtOverlong {source : String} {n : Nat} {f g : Scan}
    (h : SideBySide source.toList n f g) : DivergesAtOverlong source n f g := by
  refine ⟨fun k hshort => h.resultAt hshort, ?_, ?_, ?_⟩
  · intro k hlast hshort i
    apply h.resultAt
    intro j _
    rcases Nat.lt_or_ge k j with hlt | hle
    · exact not_overlong_of_isLast h.growable hlast hlt
    · exact hshort j hle
  · intro k start text hshort htext hlong
    have hafter := h.after hshort
    obtain ⟨lead, hrun, hstart⟩ := collects_of_gatheredText hafter.standsIn htext
    obtain ⟨hresult, hrest, hoffset⟩ := hafter.nextToken_of_collects hrun hlong
    have hbefore : ∀ j < k, ∃ t, f.resultAt j = .ok t ∧ g.resultAt j = .ok t ∧
        t.isEndOfFile = false ∧ (f.after (j + 1)).position = (g.after (j + 1)).position := by
      intro j hj
      exact h.exists_token_of_lt hshort ⟨start, text, htext, hlong⟩ hj
    refine ⟨hbefore, hresult, ?_, ?_⟩
    · obtain ⟨front, hsource, hfront, -⟩ := hafter.standsIn
      rw [after_succ]
      refine ⟨front ++ lead, ?_, ?_, ?_⟩
      · rw [hsource, hrest, List.append_assoc]
      · rw [hstart, hfront, Text.utf8Length_append]
      · rw [hoffset, hfront, List.append_assoc, Text.utf8Length_append front]
    · intro ignore
      obtain ⟨ts, log, hrun⟩ := exists_delivers_after (s := f) (k := k) fun j hj => by
        obtain ⟨t, ht, -, hmore, -⟩ := hbefore j hj
        exact ⟨t, ht, hmore⟩
      rw [tokens_of_delivers_of_error hrun hresult, after_succ]
      exact ⟨rfl, rfl⟩
  · intro k t hshort ht hidentifier hstring
    have hk : ¬ Overlong source.toList n (g.resultAt k) := by
      rintro ⟨start, text, htext, -⟩
      rw [ht] at htext
      cases htext with
      | identifier hkind => exact hidentifier hkind
      | string hkind => exact hstring hkind
    obtain ⟨hsame, -⟩ := (h.after hshort).nextToken hk
    exact hsame.trans ht

/-- What follows an opening quotation mark is what is read of it, also if the source is longer. -/
theorem exists_divergesAtOverlong {fixed growing : Settings} (source : String)
    (hfixed : fixed.growable = false) (hgrowing : growing.growable = true)
    (htracking : fixed.tracking = growing.tracking) (hstorable : fixed.Storable)
    (hstorable' : growing.Storable) :
    ∃ f g part, Scan.start? source fixed = some f ∧ Scan.start? source growing = some g ∧
      ReadablePart source part ∧ DivergesAtOverlong part fixed.capacity f g := by
  refine ⟨.startWith fixed.buffer source fixed, .startWith growing.buffer source growing, _,
    hstorable.start?_eq source, hstorable'.start?_eq source, readablePart_readable source, ?_⟩
  apply Scan.SideBySide.divergesAtOverlong
  exact ⟨⟨rfl, htracking, rfl⟩, hfixed, TextBuffer.capacity_withCapacity _ _, hgrowing,
    Scan.standsIn_startWith ..⟩

/-- A string that just fits, a number that is longer, and a word with a letter too many. -/
theorem exists_divergesAtOverlong_word :
    ({ capacity := 3, growable := false } : Settings).Storable ∧
    ({ capacity := 0 } : Settings).Storable ∧
    ∃ f g, Scan.start? "\"abc\" 12345 abcde" { capacity := 3, growable := false } = some f ∧
      Scan.start? "\"abc\" 12345 abcde" { capacity := 0 } = some g ∧
      DivergesAtOverlong "\"abc\" 12345 abcde" 3 f g ∧
      f.resultAt 0 = .ok ⟨.string, "abc", ⟨0, 0, 0⟩⟩ ∧
      f.resultAt 1 = .ok ⟨.integer, "12345", ⟨6, 1, 0⟩⟩ ∧
      f.resultAt 2 = .error (.bufferExhausted 3) ∧ (f.after 3).position = ⟨16, 2, 4⟩ ∧
      (f.tokens true).result = .error (.bufferExhausted 3) := by
  obtain ⟨f, g, part, hf, hg, hpart, hdiverges⟩ := @exists_divergesAtOverlong
    { capacity := 3, growable := false } { capacity := 0 } "\"abc\" 12345 abcde" rfl rfl rfl
    (by decide) (by decide)
  rw [hpart.eq_of_lt (by decide)] at hdiverges
  cases hf
  cases hg
  refine ⟨by decide, by decide, _, _, rfl, rfl, hdiverges, rfl, rfl, rfl, rfl, ?_⟩
  have hshort : ∀ j < 2, ¬ Overlong "\"abc\" 12345 abcde".toList 3
      (Scan.resultAt (.startWith (.withCapacity 0 true) "\"abc\" 12345 abcde" { capacity := 0 })
        j) := by
    rintro (_ | _ | j) hj ⟨start, text, htext, hlong⟩
    · change GatheredText _ (.ok ⟨.string, "abc", ⟨0, 0, 0⟩⟩) start text at htext
      cases htext <;> exact absurd hlong (by decide)
    · change GatheredText _ (.ok ⟨.integer, "12345", ⟨6, 1, 0⟩⟩) start text at htext
      cases htext with
      | identifier hkind => cases hkind
      | string hkind => cases hkind
    · omega
  have htext : GatheredText "\"abc\" 12345 abcde".toList
      (.ok ⟨.identifier, "abcde", ⟨12, 2, 0⟩⟩) 12 "abcde".toList := .identifier rfl
  obtain ⟨-, -, -, htokens⟩ := hdiverges.diverge 2 _ _ hshort htext (by decide)
  exact (htokens true).1

/-- What is left unread behind a quotation mark does not exhaust the buffer. -/
theorem not_divergesAtOverlong_blanksAndString {blanks : Nat} {fixed growing : Settings} {f g : Scan}
    (hblanks : blanks + 2 = Position.bound)
    (hf : Scan.start? (blanksAndString blanks) fixed = some f)
    (hg : Scan.start? (blanksAndString blanks) growing = some g) :
    ¬ DivergesAtOverlong (blanksAndString blanks) 1 f g := by
  intro h
  obtain ⟨p, -, hfixed, -, -⟩ := Scan.nextToken_blanksAndString hblanks hf
  obtain ⟨q, hq, hgrowing, -, -⟩ := Scan.nextToken_blanksAndString hblanks hg
  have htext : GatheredText (blanksAndString blanks).toList (g.resultAt 0) (q.offset + 1)
      ['a', '"'] := by
    rw [Scan.resultAt, Scan.after, hgrowing]
    refine .openString String.toList_ofList ?_
    rw [hq, utf8Length_blanks]
  obtain ⟨-, hexhausted, -⟩ :=
    h.diverge 0 _ _ (fun j hj => absurd hj (Nat.not_lt_zero j)) htext (by decide)
  rw [Scan.resultAt, Scan.after, hfixed] at hexhausted
  cases hexhausted

theorem exists_not_divergesAtOverlong :
    ({ capacity := 1, growable := false } : Settings).Storable ∧ ({} : Settings).Storable ∧
    ∃ f g,
      Scan.start? (blanksAndString (Position.bound - 2)) { capacity := 1, growable := false } =
        some f ∧
      Scan.start? (blanksAndString (Position.bound - 2)) {} = some g ∧
      ¬ DivergesAtOverlong (blanksAndString (Position.bound - 2)) 1 f g := by
  have hstorable : ({ capacity := 1, growable := false } : Settings).Storable := by decide
  have hstorable' : ({} : Settings).Storable := by decide
  have hf := hstorable.start?_eq (blanksAndString (Position.bound - 2))
  have hg := hstorable'.start?_eq (blanksAndString (Position.bound - 2))
  exact ⟨hstorable, hstorable', _, _, hf, hg,
    not_divergesAtOverlong_blanksAndString (by decide) hf hg⟩

end Lexing
