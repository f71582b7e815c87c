import Lexing.Proofs.Positions

/-!
# Calling again reaches the end

A call that neither delivers the end of the file nor stops before a foreign
character reads at least one character, also where it ends with another fault.
So whoever goes on after every other fault comes to one of these two, after no
more calls than there are characters left, whatever the buffer can hold and
whatever the calls before were.
-/

namespace Lexing

namespace Scan

/-- Whether calling again gives nothing else: at the end of the file, or before a
character that belongs to no token. -/
def isFinal : Except Fault Token → Bool
  | .ok t => t.isEndOfFile
  | .error (.unexpectedCharacter _ _) => true
  | .error (.unterminatedString _) => false
  | .error (.bufferExhausted _) => false

/-! ## One call -/

variable {s : Scan}

/-- The character that a buffer refuses has been read. -/
theorem length_rest_refusal_lt {text front run : List Char} {e : TextBuffer.Exhausted}
    (hrun : Gathers text front run) (hfault : (s.buffer.reset.fill run).fault = some e)
    (hrest : s.reader.rest = text) :
    (s.refusal front run e).scan.reader.rest.length < s.reader.rest.length := by
  obtain ⟨rest, htext⟩ := hrun.exists_eq
  obtain ⟨-, hlong, -⟩ := TextBuffer.fault_fill_reset_eq_some_iff.mp hfault
  have hlength : 0 < s.reader.rest.length := by
    rw [hrest, htext, List.length_append, List.length_append]
    omega
  simp only [refusal, Reader.rest_skip, List.length_drop]
  omega

theorem length_rest_nextToken_lt_of_isFinal (h : isFinal s.nextToken.result = false) :
    s.nextToken.scan.reader.rest.length < s.reader.rest.length := by
  have hout := s.nextToken_outcome
  generalize s.nextToken = step at h hout ⊢
  cases hout with
  | endOfFile => cases h
  | foreign => cases h
  | openString _ _ _ hrest =>
      show 0 < _
      rw [hrest, List.length_append, List.length_cons]
      omega
  | @refusal gap text front run e _ hrun hfault hrest =>
      have hless := length_rest_refusal_lt (s := s.past gap text) hrun hfault rfl
      rw [hrest, List.length_append]
      exact Nat.lt_of_lt_of_le hless (Nat.le_add_left _ _)
  | lexeme _ hl _ _ hrest =>
      obtain ⟨c, cs, hspelling, -⟩ := hl.exists_spelling_eq_cons
      rw [hrest, hspelling, scan_delivery, rest_behind]
      simp only [List.length_append, List.length_cons]
      omega

/-- Where less is left to read, the offset is larger. -/
theorem Moves.offset_lt {s' : Scan} {log : List Event} {marks : List Position}
    (h : s.Moves log s' marks) (hless : s'.reader.rest.length < s.reader.rest.length) :
    s.position.offset < s'.position.offset := by
  obtain ⟨-, ⟨cs, hrest, hjourney, -⟩, -⟩ := h
  have hlength := congrArg List.length hrest
  have hbytes := Text.length_le_utf8Length cs
  rw [List.length_append] at hlength
  rw [hjourney.offset_eq]
  omega

theorem offset_nextToken_lt (h : isFinal s.nextToken.result = false) :
    s.position.offset < s.nextToken.scan.position.offset :=
  s.moves_nextToken.offset_lt (length_rest_nextToken_lt_of_isFinal h)

/-! ## Many calls -/

/-- Whoever calls again and again comes to a final result. -/
theorem exists_isFinal_resultAt (s : Scan) :
    ∃ k ≤ s.reader.rest.length,
      (∀ j < k, isFinal (s.resultAt j) = false) ∧ isFinal (s.resultAt k) = true := by
  cases hfinal : isFinal s.nextToken.result with
  | true => exact ⟨0, Nat.zero_le _, by simp, hfinal⟩
  | false =>
      have hless := length_rest_nextToken_lt_of_isFinal hfinal
      obtain ⟨k, hk, hbefore, hlast⟩ := exists_isFinal_resultAt s.nextToken.scan
      refine ⟨k + 1, by omega, ?_, hlast⟩
      intro j hj
      cases j with
      | zero => exact hfinal
      | succ j => exact hbefore j (Nat.lt_of_succ_lt_succ hj)
termination_by s.reader.rest.length

/-- Each token before the end of the file takes a character at least. -/
theorem length_le_of_delivers {last : Scan} {ts : List Token} {log : List Event}
    (h : s.Delivers ts log last) :
    ts.length + last.reader.rest.length ≤ s.reader.rest.length := by
  induction h with
  | nil s => exact Nat.le_of_eq (Nat.zero_add _)
  | cons ht hmore _ ih =>
      have hless := length_rest_nextToken_lt ht hmore
      rw [List.length_cons]
      omega

/-- Reading all tokens makes `k + 1` calls of `nextToken`, of which the last is the first
that gives the end of the file or a fault. -/
structure ReadsIn (s : Scan) (ignore : Bool) (k : Nat) : Prop where
  more : ∀ j < k, isLast (s.resultAt j) = false
  last : isLast (s.resultAt k) = true
  scan : (s.tokens ignore).scan = s.after (k + 1)
  complete : ∀ t, s.resultAt k = .ok t →
    ∃ out, (s.tokens ignore).result = .ok out ∧ out.length ≤ k + 1
  stopped : ∀ e, s.resultAt k = .error e → (s.tokens ignore).result = .error e

theorem exists_readsIn (s : Scan) (ignore : Bool) :
    ∃ k ≤ s.reader.rest.length, s.ReadsIn ignore k := by
  obtain ⟨ts, log, hrun, hstop⟩ := s.exists_delivers_to_after
  have hlength := length_le_of_delivers hrun
  refine ⟨ts.length, by omega, ?_, hstop.isLast, ?_, ?_, ?_⟩
  · exact fun j hj => isLast_resultAt_of_delivers hrun hj
  · rw [scan_tokens_of_delivers hrun hstop, after_succ]
  · intro t ht
    rw [tokens_of_delivers_of_endOfFile hrun ht (hstop t ht)]
    refine ⟨_, rfl, ?_⟩
    rw [List.length_append, List.length_singleton]
    exact Nat.succ_le_succ (List.length_filter_le _ _)
  · intro e he
    rw [tokens_of_delivers_of_error hrun he]

end Scan

/-- Whatever is called on a scan of the text, the end is near. -/
structure ReachesEnd (source : String) (s : Scan) : Prop where
  /-- A call reads on, unless its result is final. -/
  progress : Scan.isFinal s.nextToken.result = false →
    s.position.offset < s.nextToken.scan.position.offset
  /-- Going on after all other faults leads to a final result. -/
  retry : ∃ k ≤ source.length,
    (∀ j < k, Scan.isFinal (s.resultAt j) = false) ∧ Scan.isFinal (s.resultAt k) = true
  tokens : ∀ ignore, ∃ k ≤ source.length, s.ReadsIn ignore k

theorem Scan.StandsIn.length_rest_le {source : List Char} {s : Scan} (hs : s.StandsIn source) :
    s.reader.rest.length ≤ source.length := by
  obtain ⟨front, hsource, -, -⟩ := hs
  rw [hsource, List.length_append]
  exact Nat.le_add_left _ _

theorem exists_reachesEnd_calls {settings : Settings} (source : String)
    (hstorable : settings.Storable) :
    ∃ scan, Scan.start? source settings = some scan ∧
      ∀ history : List Call, ReachesEnd source (scan.calls history).scan := by
  refine ⟨_, hstorable.start?_eq source, ?_⟩
  intro history
  have hstands := (Scan.standsIn_startWith settings.buffer source settings).calls history
  have hleft := Nat.le_trans hstands.length_rest_le (Reader.readable_prefix source).length_le
  rw [String.length_toList] at hleft
  refine ⟨Scan.offset_nextToken_lt, ?_, ?_⟩
  · obtain ⟨k, hk, hretry⟩ := Scan.exists_isFinal_resultAt (Scan.calls _ history).scan
    exact ⟨k, Nat.le_trans hk hleft, hretry⟩
  · intro ignore
    obtain ⟨k, hk, hreads⟩ := Scan.exists_readsIn (Scan.calls _ history).scan ignore
    exact ⟨k, Nat.le_trans hk hleft, hreads⟩

/-- A fixed buffer for no character refuses the letters one by one, then the string,
and the text still comes to its end. -/
theorem exists_reachesEnd_calls_empty :
    ({ capacity := 0, growable := false } : Settings).Storable ∧
    ∃ scan, Scan.start? "ab \"c" { capacity := 0, growable := false } = some scan ∧
      ReachesEnd "ab \"c" (scan.calls [.next]).scan ∧
      (List.range 4).map scan.resultAt =
        [.error (.bufferExhausted 0), .error (.bufferExhausted 0), .error (.bufferExhausted 0),
          .ok ⟨.endOfFile, "", ⟨5, 1, 2⟩⟩] := by
  obtain ⟨scan, hstart, hreaches⟩ :=
    @exists_reachesEnd_calls { capacity := 0, growable := false } "ab \"c" (by decide)
  cases hstart
  exact ⟨by decide, _, rfl, hreaches [.next], rfl⟩

end Lexing
