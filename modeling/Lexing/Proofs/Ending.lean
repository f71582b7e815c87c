import Lexing.Proofs.Positions
import Lexing.Proofs.Truncation

/-!
# The end of a scan is final

A scan ends where nothing is left to read or where a foreign character is next.
No call moves an ended scan, and every call gives the one result that is left,
as often as it is asked. Only the iteration takes note of its end: it gives its
last result once and nothing afterwards, whatever other calls are made between
its steps.
-/

namespace Lexing

/-- What a call answers where `r` is the only result left. An iteration may have
ended before. -/
inductive AnswersOnly (r : Except Fault Token) : Call → Answer → Prop
  | nextToken : AnswersOnly r .nextToken (.token r)
  | tokens (ignore : Bool) : AnswersOnly r (.tokens ignore) (.tokens (r.map fun t => [t]))
  | wantedTokens : AnswersOnly r .wantedTokens (.tokens (r.map fun t => [t]))
  | next : AnswersOnly r .next (.item (some r))
  | ended : AnswersOnly r .next (.item none)

namespace Scan

/-- Whatever calls are made, each of them gives `r` and nothing else, and nothing
changes but that the iteration takes note of its end. -/
structure GivesOnly (s : Scan) (r : Except Fault Token) : Prop where
  answers : ∀ (later : List Call) (c : Call), AnswersOnly r c ((s.calls later).scan.call c).result
  place : ∀ later : List Call, ∃ finished, (s.calls later).scan = { s with finished }

/-- There is nothing left to read, or a foreign character is next. -/
def Ended (s : Scan) : Prop :=
  s.reader.rest = [] ∨ ∃ c rest, s.reader.rest = c :: rest ∧ Foreign c

/-! ## Calls on an ended scan -/

variable {s : Scan}

theorem past_nil {rest : List Char} (h : s.reader.rest = rest) : s.past [] rest = s := by
  rw [past, Reader.past_nil h]

theorem nextToken_of_nil (h : s.reader.rest = []) :
    s.nextToken = { result := .ok (.endOfFile s.position), scan := s, events := [] } := by
  rw [nextToken_of_gap isGap_nil h, past_nil h]

theorem nextToken_of_foreign_cons {c : Char} {rest : List Char} (hc : Foreign c)
    (h : s.reader.rest = c :: rest) :
    s.nextToken = s.abort (.unexpectedCharacter c s.position) := by
  rw [nextToken_of_foreign isGap_nil hc h, past_nil h]

namespace Ended

/-- A scan that has ended delivers the end of the file or stops at the foreign
character, and stays as it is. -/
theorem outcome (h : s.Ended) :
    s.nextToken.scan = s ∧
      (s.nextToken.result = .ok (.endOfFile s.position) ∨
        ∃ c, s.nextToken.result = .error (.unexpectedCharacter c s.position)) := by
  rcases h with hrest | ⟨c, rest, hrest, hc⟩
  · rw [nextToken_of_nil hrest]
    exact ⟨rfl, .inl rfl⟩
  · rw [nextToken_of_foreign_cons hc hrest]
    exact ⟨rfl, .inr ⟨c, rfl⟩⟩

theorem nextToken (h : s.Ended) : s.nextToken.scan.Ended := by
  rw [h.outcome.1]
  exact h

theorem stops (h : s.Ended) : s.Stops := by
  intro t ht
  obtain ⟨-, hend | ⟨c, hforeign⟩⟩ := h.outcome
  · rw [hend] at ht
    cases ht
    rfl
  · rw [hforeign] at ht
    cases ht

/-- The flag of the iteration does not matter. -/
theorem result_with_finished (h : s.Ended) (finished : Bool) :
    { s with finished }.nextToken.result = s.nextToken.result := by
  rcases h with hrest | ⟨c, rest, hrest, hc⟩
  · rw [nextToken_of_nil hrest, nextToken_of_nil (s := { s with finished }) hrest]
    rfl
  · rw [nextToken_of_foreign_cons hc hrest,
      nextToken_of_foreign_cons (s := { s with finished }) hc hrest]
    rfl

theorem tokens (h : s.Ended) (ignore : Bool) :
    (s.tokens ignore).result = s.nextToken.result.map (fun t => [t]) ∧
      (s.tokens ignore).scan = s := by
  have hscan := scan_tokens_of_delivers (.nil s) h.stops ignore
  refine ⟨?_, hscan.trans h.outcome.1⟩
  cases hresult : s.nextToken.result with
  | error e =>
      rw [tokens_of_delivers_of_error (.nil s) hresult]
      rfl
  | ok t =>
      rw [tokens_of_delivers_of_endOfFile (.nil s) hresult (h.stops t hresult)]
      rfl

theorem call (h : s.Ended) (c : Call) :
    AnswersOnly s.nextToken.result c (s.call c).result ∧
      ∃ finished, (s.call c).scan = { s with finished } := by
  have hscan := h.outcome.1
  cases c with
  | nextToken => exact ⟨.nextToken, s.finished, hscan⟩
  | next =>
      rcases s.call_next_cases with ⟨-, hcall⟩ | ⟨-, hcall⟩
      · rw [hcall]
        exact ⟨.ended, s.finished, rfl⟩
      · rw [hcall, hscan]
        exact ⟨.next, _, rfl⟩
  | tokens ignore =>
      obtain ⟨hresult, hsame⟩ := h.tokens ignore
      rw [Scan.call, hresult]
      exact ⟨.tokens ignore, s.finished, hsame⟩
  | wantedTokens =>
      obtain ⟨hresult, hsame⟩ := h.tokens s.ignoreLineBreaks
      rw [Scan.call, wantedTokens, hresult]
      exact ⟨.wantedTokens, s.finished, hsame⟩

theorem calls (h : s.Ended) (cs : List Call) : ∃ finished, (s.calls cs).scan = { s with finished } := by
  induction cs generalizing s with
  | nil => exact ⟨s.finished, rfl⟩
  | cons c cs ih =>
      obtain ⟨-, finished, hscan⟩ := h.call c
      have hended : { s with finished }.Ended := h
      obtain ⟨finished', hothers⟩ := ih hended
      rw [Scan.calls, hscan]
      exact ⟨finished', hothers⟩

theorem givesOnly (h : s.Ended) : s.GivesOnly s.nextToken.result := by
  refine ⟨?_, h.calls⟩
  intro later c
  obtain ⟨finished, hscan⟩ := h.calls later
  have hended : { s with finished }.Ended := h
  rw [hscan, ← h.result_with_finished finished]
  exact (hended.call c).1

end Ended

/-! ## What ends a scan -/

/-- The scan has ended, and `r` is the result that is left. -/
def EndedWith (s : Scan) (r : Except Fault Token) : Prop := s.Ended ∧ s.nextToken.result = r

theorem EndedWith.givesOnly {r : Except Fault Token} (h : s.EndedWith r) (finished : Bool) :
    { s with finished }.GivesOnly r := by
  obtain ⟨hended, rfl⟩ := h
  have hflag : { s with finished }.Ended := hended
  rw [← hended.result_with_finished finished]
  exact hflag.givesOnly

theorem endedWith_of_nil (h : s.reader.rest = []) : s.EndedWith (.ok (.endOfFile s.position)) := by
  refine ⟨.inl h, ?_⟩
  rw [nextToken_of_nil h]

theorem endedWith_of_endOfFile {t : Token} (h : s.nextToken.result = .ok t)
    (hend : t.isEndOfFile = true) : s.nextToken.scan.EndedWith (.ok t) := by
  obtain ⟨gap, -, -, rfl, hscan⟩ := exists_gap_of_nextToken h hend
  rw [hscan]
  exact endedWith_of_nil rfl

theorem endedWith_of_unexpectedCharacter {c : Char} {p : Position}
    (h : s.nextToken.result = .error (.unexpectedCharacter c p)) :
    s.nextToken.scan.EndedWith (.error (.unexpectedCharacter c p)) := by
  have hout := s.nextToken_outcome
  generalize s.nextToken = step at h hout ⊢
  cases hout with
  | @foreign gap rest c hgap hc hrest =>
      cases h
      refine ⟨.inr ⟨c, rest, rfl, hc⟩, ?_⟩
      show (s.past gap (c :: rest)).nextToken.result = _
      rw [nextToken_of_foreign_cons hc rfl]
      rfl
  | endOfFile => cases h
  | openString => cases h
  | refusal => cases h
  | lexeme => cases h

theorem rest_of_unterminatedString {p : Position}
    (h : s.nextToken.result = .error (.unterminatedString p)) :
    s.nextToken.scan.reader.rest = [] := by
  have hout := s.nextToken_outcome
  generalize s.nextToken = step at h hout ⊢
  cases hout with
  | openString => rfl
  | endOfFile => cases h
  | foreign => cases h
  | refusal => cases h
  | lexeme => cases h

section Answers

variable {c : Call}

theorem givesOnly_of_mem_call {r : Except Fault Token} (hmem : r ∈ (s.call c).result.results)
    (hlast : isLast r = true)
    (hagain : ∀ u : Scan, u.nextToken.result = r → u.nextToken.scan.EndedWith r) :
    (s.call c).scan.GivesOnly r := by
  obtain ⟨k, finished, hr, hscan⟩ := exists_resultAt_of_mem_call hmem
  rw [hscan hlast, after_succ]
  exact (hagain (s.after k) hr.symm).givesOnly finished

theorem rest_of_unterminatedString_mem_call {p : Position}
    (hmem : .error (.unterminatedString p) ∈ (s.call c).result.results) :
    (s.call c).scan.reader.rest = [] := by
  obtain ⟨k, finished, hr, hscan⟩ := exists_resultAt_of_mem_call hmem
  rw [hscan rfl, after_succ]
  exact rest_of_unterminatedString hr.symm

end Answers

end Scan

/-! ## The steps of the iteration among other calls -/

/-- What a step of the iteration gives. -/
def Answer.item? : Answer → Option (Option (Except Fault Token))
  | .item result => some result
  | .token _ | .tokens _ => none

/-- What the steps of the iteration give, without the answers of other calls. -/
def items (answers : List Answer) : List (Option (Except Fault Token)) :=
  answers.filterMap Answer.item?

/-- An iteration gives tokens, then the end of the file or a fault, and nothing
behind that. -/
inductive IteratesOnce : List (Option (Except Fault Token)) → Prop
  | running {ts : List Token} (hmore : ∀ t ∈ ts, t.isEndOfFile = false) :
      IteratesOnce (ts.map fun t => some (.ok t))
  | ended {ts : List Token} {r : Except Fault Token} (hmore : ∀ t ∈ ts, t.isEndOfFile = false)
      (hlast : Scan.isLast r = true) (n : Nat) :
      IteratesOnce ((ts.map fun t => some (.ok t)) ++ some r :: List.replicate n none)

theorem IteratesOnce.cons {items : List (Option (Except Fault Token))} (h : IteratesOnce items)
    {t : Token} (ht : t.isEndOfFile = false) : IteratesOnce (some (.ok t) :: items) := by
  cases h with
  | @running ts hmore =>
      have hall : ∀ u ∈ t :: ts, u.isEndOfFile = false := List.forall_mem_cons.mpr ⟨ht, hmore⟩
      exact .running hall
  | @ended ts r hmore hlast n =>
      have hall : ∀ u ∈ t :: ts, u.isEndOfFile = false := List.forall_mem_cons.mpr ⟨ht, hmore⟩
      exact .ended hall hlast n

namespace Scan

variable {s : Scan}

/-- Only a step of the iteration gives an item, and no other call touches the flag. -/
theorem item?_call_of_ne_next {c : Call} (h : c ≠ .next) :
    (s.call c).result.item? = none ∧ (s.call c).scan.finished = s.finished := by
  cases c with
  | nextToken => exact ⟨rfl, s.flags_nextToken.1⟩
  | next => exact absurd rfl h
  | tokens ignore => exact ⟨rfl, (SameFlags.self_tokens s ignore).finished⟩
  | wantedTokens => exact ⟨rfl, (SameFlags.self_tokens s s.ignoreLineBreaks).finished⟩

theorem items_calls_of_finished (h : s.finished = true) (cs : List Call) :
    ∃ n, items (s.calls cs).result = List.replicate n none := by
  induction cs generalizing s with
  | nil => exact ⟨0, rfl⟩
  | cons c cs ih =>
      by_cases hc : c = .next
      · subst hc
        rcases s.call_next_cases with ⟨-, hcall⟩ | ⟨hfinished, -⟩
        · obtain ⟨n, hothers⟩ := ih h
          refine ⟨n + 1, ?_⟩
          rw [calls, hcall, List.replicate_succ, ← hothers]
          rfl
        · rw [h] at hfinished
          cases hfinished
      · obtain ⟨hitem, hflag⟩ := item?_call_of_ne_next (s := s) hc
        obtain ⟨n, hothers⟩ := ih (hflag.trans h)
        refine ⟨n, ?_⟩
        rw [calls, items, List.filterMap_cons_none hitem]
        exact hothers

theorem iteratesOnce_calls (h : s.finished = false) (cs : List Call) :
    IteratesOnce (items (s.calls cs).result) := by
  induction cs generalizing s with
  | nil =>
      have hmore : ∀ t ∈ ([] : List Token), t.isEndOfFile = false := by simp
      exact .running hmore
  | cons c cs ih =>
      by_cases hc : c = .next
      · subst hc
        rcases s.call_next_cases with ⟨hfinished, -⟩ | ⟨-, hcall⟩
        · rw [h] at hfinished
          cases hfinished
        · rw [calls, hcall]
          cases hlast : isLast s.nextToken.result with
          | true =>
              obtain ⟨n, hothers⟩ :=
                items_calls_of_finished (s := { s.nextToken.scan with finished := true }) rfl cs
              have hmore : ∀ t ∈ ([] : List Token), t.isEndOfFile = false := by simp
              show IteratesOnce (some s.nextToken.result :: items _)
              rw [hothers]
              exact .ended hmore hlast n
          | false =>
              have hothers := ih (s := { s.nextToken.scan with finished := false }) rfl
              show IteratesOnce (some s.nextToken.result :: items _)
              cases hresult : s.nextToken.result with
              | error e =>
                  rw [hresult] at hlast
                  cases hlast
              | ok t =>
                  rw [hresult] at hlast
                  exact hothers.cons hlast
      · obtain ⟨hitem, hflag⟩ := item?_call_of_ne_next (s := s) hc
        rw [calls, items, List.filterMap_cons_none hitem]
        exact ih (hflag.trans h)

end Scan

/-! ## The end is final -/

/-- What calls on a scan of the text do once they have come to an end. -/
structure EndsForGood (source : String) (scan : Scan) : Prop where
  endOfFile : ∀ (history : List Call) (c : Call) (t : Token),
    .ok t ∈ ((scan.calls history).scan.call c).result.results → t.isEndOfFile = true →
    ((scan.calls history).scan.call c).scan.GivesOnly (.ok t)
  unexpectedCharacter : ∀ (history : List Call) (c : Call) (char : Char) (p : Position),
    .error (.unexpectedCharacter char p) ∈ ((scan.calls history).scan.call c).result.results →
    ((scan.calls history).scan.call c).scan.GivesOnly (.error (.unexpectedCharacter char p))
  /-- Behind a string without an end there is the end of the text. -/
  unterminatedString : ∀ (history : List Call) (c : Call) (p : Position),
    .error (.unterminatedString p) ∈ ((scan.calls history).scan.call c).result.results →
    ((scan.calls history).scan.call c).scan.reader.rest = [] ∧
      ((scan.calls history).scan.call c).scan.position.offset = Text.utf8Length source.toList ∧
      ((scan.calls history).scan.call c).scan.GivesOnly
        (.ok (.endOfFile ((scan.calls history).scan.call c).scan.position))
  /-- Other calls between its steps do not make an iteration go on. -/
  iteration : ∀ history : List Call, IteratesOnce (items (scan.calls history).result)
  /-- A step behind the end of the iteration does nothing. -/
  idle : ∀ history : List Call, ((scan.calls history).scan.call .next).result = .item none →
    ((scan.calls history).scan.call .next).scan = (scan.calls history).scan

/-- The end of the text is where reading ends, also if the source is longer. -/
theorem exists_endsForGood_of_storable {settings : Settings} (source : String)
    (hstorable : settings.Storable) :
    ∃ scan part, Scan.start? source settings = some scan ∧ ReadablePart source part ∧
      EndsForGood part scan := by
  refine ⟨_, _, hstorable.start?_eq source, readablePart_readable source, ?_, ?_, ?_, ?_, ?_⟩
  · intro history c t hmem hend
    apply Scan.givesOnly_of_mem_call hmem hend
    intro u hu
    exact Scan.endedWith_of_endOfFile hu hend
  · intro history c char p hmem
    apply Scan.givesOnly_of_mem_call hmem rfl
    intro u hu
    exact Scan.endedWith_of_unexpectedCharacter hu
  · intro history c p hmem
    have hstands := ((Scan.standsIn_startWith settings.buffer source settings).calls history).moves
      (Scan.moves_call _ c)
    have hrest := Scan.rest_of_unterminatedString_mem_call hmem
    have hoffset := hstands.offset_add_unread
    rw [hrest] at hoffset
    exact ⟨hrest, hoffset, (Scan.endedWith_of_nil hrest).givesOnly _⟩
  · intro history
    exact Scan.iteratesOnce_calls rfl history
  · intro history hnone
    rcases (Scan.calls _ history).scan.call_next_cases with ⟨-, hcall⟩ | ⟨-, hcall⟩
    · rw [hcall]
    · rw [hcall] at hnone
      cases hnone

/-- The number sign is met by three calls, and the iteration gives it once. -/
theorem exists_endsForGood_of_storable_foreign :
    ({ capacity := 1, growable := false } : Settings).Storable ∧
    ∃ scan, Scan.start? "a #" { capacity := 1, growable := false } = some scan ∧
      EndsForGood "a #" scan ∧
      (scan.calls [.next, .nextToken, .next, .nextToken, .next]).result =
        [.item (some (.ok ⟨.identifier, "a", ⟨0, 0, 0⟩⟩)),
          .token (.error (.unexpectedCharacter '#' ⟨2, 1, 0⟩)),
          .item (some (.error (.unexpectedCharacter '#' ⟨2, 1, 0⟩))),
          .token (.error (.unexpectedCharacter '#' ⟨2, 1, 0⟩)), .item none] ∧
      (scan.calls [.next, .nextToken]).scan.GivesOnly
        (.error (.unexpectedCharacter '#' ⟨2, 1, 0⟩)) := by
  obtain ⟨scan, part, hstart, hpart, hends⟩ := @exists_endsForGood_of_storable
    { capacity := 1, growable := false } "a #" (by decide)
  rw [hpart.eq_of_lt (by decide)] at hends
  cases hstart
  refine ⟨by decide, _, rfl, hends, rfl, ?_⟩
  exact hends.unexpectedCharacter [.next] .nextToken '#' ⟨2, 1, 0⟩ (List.mem_singleton.mpr rfl)

/-- A string that is cut off ends a scan before the end of its source. -/
theorem not_endsForGood_blanksAndString {blanks : Nat} {settings : Settings} {scan : Scan}
    (hblanks : blanks + 2 = Position.bound)
    (hstart : Scan.start? (blanksAndString blanks) settings = some scan) :
    ¬ EndsForGood (blanksAndString blanks) scan := by
  intro h
  obtain ⟨p, -, hresult, -, hoffset⟩ := Scan.nextToken_blanksAndString hblanks hstart
  have hmem : .error (.unterminatedString p) ∈ (scan.call .nextToken).result.results :=
    List.mem_singleton.mpr hresult.symm
  obtain ⟨-, hend, -⟩ := h.unterminatedString [] .nextToken p hmem
  have hsame : scan.nextToken.scan.position.offset = blanks + 3 :=
    hend.trans utf8Length_blanksAndString
  omega

theorem exists_not_endsForGood :
    ({} : Settings).Storable ∧
    ∃ scan, Scan.start? (blanksAndString (Position.bound - 2)) {} = some scan ∧
      ¬ EndsForGood (blanksAndString (Position.bound - 2)) scan := by
  have hstorable : ({} : Settings).Storable := by decide
  have hstart := hstorable.start?_eq (blanksAndString (Position.bound - 2))
  exact ⟨hstorable, _, hstart, not_endsForGood_blanksAndString (by decide) hstart⟩

end Lexing
