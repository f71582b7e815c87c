import Lexing.Proofs.Calls

/-!
# All ways to scan to the end agree

A scan can be read to its end token by token, in one call or by iteration. From
whatever scan one starts, each of them makes the calls of `nextToken` up to the
first that gives the end of the file or a fault. They differ in what they make
of the results: the iteration passes on all of them, while a list of tokens is
given only where there is no fault, and it may leave out line breaks.
-/

namespace Lexing

namespace Scan

/-! ## One step of the iteration -/

section Next

variable {s : Scan}

theorem next?_of_finished (h : s.finished = true) : s.next? = none := if_pos h

theorem next?_of_token {t : Token} (hfinished : s.finished = false)
    (ht : s.nextToken.result = .ok t) (hmore : t.isEndOfFile = false) :
    s.next? = some s.nextToken := by
  have hflag : s.nextToken.scan.finished = false := s.flags_nextToken.1.trans hfinished
  have hsame : { s.nextToken.scan with finished := false } = s.nextToken.scan := by
    rw [← hflag]
  have hlast : isLast s.nextToken.result = false := by
    rw [ht]
    exact hmore
  rw [next?, if_neg (by simp [hfinished])]
  simp only [hlast, hsame]

theorem next?_of_isLast (hfinished : s.finished = false)
    (hlast : isLast s.nextToken.result = true) :
    s.next? = some { s.nextToken with scan := { s.nextToken.scan with finished := true } } := by
  rw [next?, if_neg (by simp [hfinished])]
  simp only [hlast]

end Next

/-! ## The iteration -/

section Results

variable {s last : Scan} {ts : List Token} {log : List Event}

theorem results_go_of_none (h : s.next? = none) (past : List (Except Fault Token))
    (before : List Event) :
    results.go s past before = { result := past.reverse, scan := s, events := before.reverse } := by
  rw [results.go]
  split
  · rfl
  · next step hstep =>
      rw [h] at hstep
      cases hstep

theorem results_go_of_some {step : Step (Except Fault Token)} (h : s.next? = some step)
    (past : List (Except Fault Token)) (before : List Event) :
    results.go s past before =
      results.go step.scan (step.result :: past) (step.events.reverse ++ before) := by
  rw [results.go]
  split
  · next hstep =>
      rw [h] at hstep
      cases hstep
  · next step' hstep =>
      rw [h] at hstep
      cases hstep
      rfl

theorem results_go_of_delivers (h : s.Delivers ts log last) (hfinished : s.finished = false)
    (past : List (Except Fault Token)) (before : List Event) :
    last.finished = false ∧
      results.go s past before =
        results.go last ((ts.map .ok).reverse ++ past) (log.reverse ++ before) := by
  induction h generalizing past before with
  | nil s => exact ⟨hfinished, rfl⟩
  | @cons s last t ts log ht hmore _ ih =>
      have hflag : s.nextToken.scan.finished = false := s.flags_nextToken.1.trans hfinished
      obtain ⟨hlast, hothers⟩ :=
        ih hflag (s.nextToken.result :: past) (s.nextToken.events.reverse ++ before)
      refine ⟨hlast, ?_⟩
      rw [results_go_of_some (next?_of_token hfinished ht hmore), hothers, ht]
      simp

/-- The iteration ends behind the first result that is no token to go on after. -/
theorem results_of_delivers (h : s.Delivers ts log last) (hstop : last.Stops)
    (hfinished : s.finished = false) :
    s.results =
      { result := ts.map .ok ++ [last.nextToken.result]
        scan := { last.nextToken.scan with finished := true }
        events := log ++ last.nextToken.events } := by
  obtain ⟨hlast, hrun⟩ := results_go_of_delivers h hfinished [] []
  rw [results, hrun, results_go_of_some (next?_of_isLast hlast hstop.isLast),
    results_go_of_none (next?_of_finished rfl)]
  simp

end Results

theorem ignoreLineBreaks_calls (s : Scan) (cs : List Call) :
    (s.calls cs).scan.ignoreLineBreaks = s.ignoreLineBreaks := by
  refine keep_calls (P := fun u => u.ignoreLineBreaks = s.ignoreLineBreaks) ?_
    (fun _ _ hu => hu) rfl cs
  intro u hu
  exact u.flags_nextToken.2.trans hu

end Scan

/-- How the ways to read a scan to its end compare, where `k` calls of `nextToken`
come before the first that gives the end of the file or a fault, and `ignore`
says whether line breaks are unwanted. -/
structure DrainsAgree (ignore : Bool) (s : Scan) (k : Nat) : Prop where
  more : ∀ j < k, Scan.isLast (s.resultAt j) = false
  last : Scan.isLast (s.resultAt k) = true
  /-- Without a fault, a list of all results or of all but the line breaks. -/
  complete : ∀ t, s.resultAt k = .ok t → ∃ ts,
    (List.range (k + 1)).map s.resultAt = (ts ++ [t]).map .ok ∧
      (s.tokens false).result = .ok (ts ++ [t]) ∧
      (s.tokens true).result = .ok (ts.filter (·.kind ≠ .lineBreak) ++ [t])
  /-- Otherwise the fault and nothing else. -/
  stopped : ∀ e, s.resultAt k = .error e →
    (s.tokens false).result = .error e ∧ (s.tokens true).result = .error e
  wanted : s.wantedTokens = s.tokens ignore
  iterated : s.results.result = (List.range (k + 1)).map s.resultAt
  ended : s.results.scan.next? = none
  /-- They all end where the calls do, with what these leave in the buffer. -/
  place : ∀ u ∈ [(s.tokens false).scan, (s.tokens true).scan, s.wantedTokens.scan, s.results.scan],
    u.reader = (s.after (k + 1)).reader ∧ u.buffer = (s.after (k + 1)).buffer

theorem Scan.exists_drainsAgree {s : Scan} (hfinished : s.finished = false) :
    ∃ k, DrainsAgree s.ignoreLineBreaks s k := by
  obtain ⟨ts, log, hrun, hstop⟩ := s.exists_delivers_to_after
  have hscan : (s.after ts.length).nextToken.scan = s.after (ts.length + 1) :=
    (after_succ s ts.length).symm
  have hall : (List.range (ts.length + 1)).map s.resultAt =
      ts.map .ok ++ [s.resultAt ts.length] := by
    rw [List.range_succ, List.map_append, map_resultAt_of_delivers hrun]
    rfl
  have hresults := results_of_delivers hrun hstop hfinished
  refine ⟨ts.length, ?_, hstop.isLast, ?_, ?_, rfl, ?_, ?_, ?_⟩
  · exact fun j hj => isLast_resultAt_of_delivers hrun hj
  · intro t ht
    have hend := hstop t ht
    refine ⟨ts, ?_, ?_, ?_⟩
    · rw [hall, ht, List.map_append]
      rfl
    · rw [tokens_of_delivers_of_endOfFile hrun ht hend, filter_keeps_false]
    · rw [tokens_of_delivers_of_endOfFile hrun ht hend, filter_keeps_true]
  · intro e he
    rw [tokens_of_delivers_of_error hrun he, tokens_of_delivers_of_error hrun he]
    exact ⟨rfl, rfl⟩
  · rw [hresults, hall]
    rfl
  · rw [hresults]
    exact next?_of_finished rfl
  · intro u hu
    have hcases : u = s.after (ts.length + 1) ∨
        u = { s.after (ts.length + 1) with finished := true } := by
      simpa [wantedTokens, hresults, scan_tokens_of_delivers hrun hstop, hscan] using hu
    rcases hcases with rfl | rfl
    · exact ⟨rfl, rfl⟩
    · exact ⟨rfl, rfl⟩

theorem exists_drainsAgree_calls {settings : Settings} (source : String)
    (hstorable : settings.Storable) :
    ∃ scan, Scan.start? source settings = some scan ∧
      ∀ history : List Call, (scan.calls history).scan.finished = false →
        ∃ k, DrainsAgree settings.ignoreLineBreaks (scan.calls history).scan k := by
  refine ⟨_, hstorable.start?_eq source, ?_⟩
  intro history hfinished
  have hflag := Scan.ignoreLineBreaks_calls (.startWith settings.buffer source settings) history
  have hagree := Scan.exists_drainsAgree hfinished
  rw [hflag] at hagree
  exact hagree

/-- Behind the word there are a number, a line break, a string and the end of the file. -/
theorem exists_drainsAgree_calls_string :
    ({ ignoreLineBreaks := true, capacity := 0 } : Settings).Storable ∧
    ∃ scan, Scan.start? "x 1\n\"s\"" { ignoreLineBreaks := true, capacity := 0 } = some scan ∧
      (scan.calls [.next]).scan.finished = false ∧
      DrainsAgree true (scan.calls [.next]).scan 3 ∧
      (scan.calls [.next]).scan.wantedTokens.result =
        .ok [⟨.integer, "1", ⟨2, 1, 0⟩⟩, ⟨.string, "s", ⟨4, 2, 0⟩⟩, ⟨.endOfFile, "", ⟨7, 2, 3⟩⟩] := by
  obtain ⟨scan, hstart, hdrains⟩ := @exists_drainsAgree_calls
    { ignoreLineBreaks := true, capacity := 0 } "x 1\n\"s\"" (by decide)
  cases hstart
  obtain ⟨k, hagree⟩ := hdrains [.next] rfl
  obtain rfl : k = 3 := by
    rcases Nat.lt_trichotomy k 3 with hlt | heq | hgt
    · have hlast := hagree.last
      match k, hlt with
      | 0, _ => cases hlast
      | 1, _ => cases hlast
      | 2, _ => cases hlast
    · exact heq
    · cases hagree.more 3 hgt
  refine ⟨by decide, _, rfl, rfl, hagree, ?_⟩
  obtain ⟨ts, hresults, -, hwanted⟩ := hagree.complete ⟨.endOfFile, "", ⟨7, 2, 3⟩⟩ rfl
  have hall : ts ++ [⟨.endOfFile, "", ⟨7, 2, 3⟩⟩] =
      [⟨.integer, "1", ⟨2, 1, 0⟩⟩, ⟨.lineBreak, "\n", ⟨3, 1, 1⟩⟩, ⟨.string, "s", ⟨4, 2, 0⟩⟩] ++
        [⟨.endOfFile, "", ⟨7, 2, 3⟩⟩] :=
    (List.map_inj_right fun _ _ h => Except.ok.inj h).mp hresults.symm
  obtain rfl := List.append_cancel_right hall
  rw [hagree.wanted, hwanted]
  rfl

end Lexing
