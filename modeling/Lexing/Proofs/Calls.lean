import Lexing.Proofs.Delivery

/-!
# Calls on a scan

A scan can be called in four ways, in any order and as often as one likes,
also after a fault or after the end of the file. `Scan.calls` runs a list of
calls and keeps what each of them answers and all events; the scans that some
list of calls leads to are the reachable ones. `delivered` are the tokens
that events report, in order, whether or not they are part of an answer.
-/

namespace Lexing

inductive Call where
  | nextToken
  /-- A step of the iteration. -/
  | next
  | tokens (ignoreLineBreaks : Bool)
  /-- All tokens, with line breaks as the settings say. -/
  | wantedTokens
  deriving DecidableEq, Repr

inductive Answer where
  | token (result : Except Fault Token)
  /-- There is no result if the iteration has ended before. -/
  | item (result : Option (Except Fault Token))
  | tokens (result : Except Fault (List Token))

/-- The tokens and the faults that an answer holds, in order. -/
def Answer.results : Answer → List (Except Fault Token)
  | .token result => [result]
  | .item result => result.toList
  | .tokens (.ok ts) => ts.map .ok
  | .tokens (.error e) => [.error e]

/-- Where a token or a fault stands, if it has a place. -/
def resultPosition? : Except Fault Token → Option Position
  | .ok t => some t.position
  | .error e => e.position?

/-- The places of all tokens and faults that an answer holds. -/
def Answer.positions (a : Answer) : List Position := a.results.filterMap resultPosition?

/-- The token that an event reports. -/
def Event.token? : Event → Option Token
  | .tokenScanned t => some t
  | _ => none

/-- The tokens that events report. -/
def delivered (log : List Event) : List Token := log.filterMap Event.token?

@[simp] theorem delivered_append (log log' : List Event) :
    delivered (log ++ log') = delivered log ++ delivered log' :=
  List.filterMap_append

@[simp] theorem delivered_map_bufferGrown (growths : List Growth) :
    delivered (growths.map .bufferGrown) = [] := by
  rw [delivered, List.filterMap_map, List.filterMap_eq_nil_iff]
  intro growth _
  rfl

namespace Scan

/-- Runs a call. -/
def call (s : Scan) : Call → Step Answer
  | .nextToken => { s.nextToken with result := .token s.nextToken.result }
  | .next =>
      match s.next? with
      | none => { result := .item none, scan := s, events := [] }
      | some step => { step with result := .item (some step.result) }
  | .tokens ignore => { s.tokens ignore with result := .tokens (s.tokens ignore).result }
  | .wantedTokens => { s.wantedTokens with result := .tokens s.wantedTokens.result }

/-- A step of the iteration is a call of `nextToken` that takes note of the end,
unless the iteration has ended before. -/
theorem call_next_cases (s : Scan) :
    (s.finished = true ∧ s.call .next = { result := .item none, scan := s, events := [] }) ∨
      (s.finished = false ∧
        s.call .next =
          { result := .item (some s.nextToken.result)
            scan := { s.nextToken.scan with finished := isLast s.nextToken.result }
            events := s.nextToken.events }) := by
  rw [call, next?]
  cases hfinished : s.finished with
  | true => exact .inl ⟨rfl, rfl⟩
  | false => exact .inr ⟨rfl, rfl⟩

/-- Runs one call after the other. -/
def calls (s : Scan) : List Call → Step (List Answer)
  | [] => { result := [], scan := s, events := [] }
  | c :: cs =>
      let first := s.call c
      let others := first.scan.calls cs
      { result := first.result :: others.result
        scan := others.scan
        events := first.events ++ others.events }

/-! ## One token after the other -/

/-- The scan after `k` calls of `nextToken`. -/
def after (s : Scan) : Nat → Scan
  | 0 => s
  | k + 1 => s.nextToken.scan.after k

/-- The result of the call of `nextToken` that `k` others come before. -/
def resultAt (s : Scan) (k : Nat) : Except Fault Token := (s.after k).nextToken.result

theorem after_add (s : Scan) (j k : Nat) : s.after (j + k) = (s.after j).after k := by
  induction j generalizing s with
  | zero => rw [Nat.zero_add, after]
  | succ j ih => rw [Nat.succ_add, after, ih, after]

theorem after_succ (s : Scan) (k : Nat) : s.after (k + 1) = (s.after k).nextToken.scan :=
  s.after_add k 1

theorem exists_delivers_after {s : Scan} {k : Nat}
    (h : ∀ j < k, ∃ t, s.resultAt j = .ok t ∧ t.isEndOfFile = false) :
    ∃ ts log, s.Delivers ts log (s.after k) := by
  induction k generalizing s with
  | zero => exact ⟨[], [], .nil s⟩
  | succ k ih =>
      obtain ⟨t, ht, hmore⟩ := h 0 (Nat.succ_pos k)
      obtain ⟨ts, log, hrun⟩ := ih fun j hj => h (j + 1) (Nat.succ_lt_succ hj)
      exact ⟨t :: ts, _, .cons ht hmore hrun⟩

theorem eq_after_of_delivers {s last : Scan} {ts : List Token} {log : List Event}
    (h : s.Delivers ts log last) : last = s.after ts.length := by
  induction h with
  | nil s => rfl
  | cons _ _ _ ih => exact ih

/-- Some number of calls deliver, and the next one does not. -/
theorem exists_delivers_to_after (s : Scan) :
    ∃ ts log, s.Delivers ts log (s.after ts.length) ∧ (s.after ts.length).Stops := by
  obtain ⟨ts, log, last, hrun, hstop⟩ := s.exists_delivers
  obtain rfl := eq_after_of_delivers hrun
  exact ⟨ts, log, hrun, hstop⟩

/-- The results of calls that deliver are what they deliver. -/
theorem map_resultAt_of_delivers {s last : Scan} {ts : List Token} {log : List Event}
    (h : s.Delivers ts log last) : (List.range ts.length).map s.resultAt = ts.map .ok := by
  induction h with
  | nil s => rfl
  | @cons s last t ts log ht _ _ ih =>
      have hfirst : s.resultAt 0 = .ok t := ht
      have hothers : s.resultAt ∘ Nat.succ = s.nextToken.scan.resultAt := rfl
      rw [List.length_cons, List.range_succ_eq_map, List.map_cons, List.map_map, hfirst, hothers, ih]
      rfl

theorem isEndOfFile_of_mem_of_delivers {s last : Scan} {ts : List Token} {log : List Event}
    (h : s.Delivers ts log last) {t : Token} (ht : t ∈ ts) : t.isEndOfFile = false := by
  induction h with
  | nil s => cases ht
  | cons _ hmore _ ih =>
      rcases List.mem_cons.mp ht with rfl | ht
      · exact hmore
      · exact ih ht

/-- None of the calls that deliver ends an iteration. -/
theorem isLast_resultAt_of_delivers {s last : Scan} {ts : List Token} {log : List Event}
    (h : s.Delivers ts log last) {j : Nat} (hj : j < ts.length) : isLast (s.resultAt j) = false := by
  have hmem : s.resultAt j ∈ ts.map .ok := by
    rw [← map_resultAt_of_delivers h]
    exact List.mem_map_of_mem (List.mem_range.mpr hj)
  obtain ⟨t, ht, hresult⟩ := List.mem_map.mp hmem
  rw [← hresult]
  exact isEndOfFile_of_mem_of_delivers h ht

theorem Stops.isLast {s : Scan} (h : s.Stops) : isLast s.nextToken.result = true := by
  cases hresult : s.nextToken.result with
  | error e => rfl
  | ok t => exact h t hresult

/-- A call leaves the scan where a number of `nextToken` calls leave it. Only
the iteration takes note of its end. -/
theorem exists_after_call (s : Scan) (c : Call) :
    ∃ k finished, (s.call c).scan = { s.after k with finished } := by
  have htokens : ∀ ignore, ∃ k finished, (s.tokens ignore).scan = { s.after k with finished } := by
    intro ignore
    obtain ⟨ts, log, hrun, hstop⟩ := s.exists_delivers_to_after
    rw [scan_tokens_of_delivers hrun hstop, ← after_succ]
    exact ⟨ts.length + 1, _, rfl⟩
  cases c with
  | nextToken => exact ⟨1, _, rfl⟩
  | next =>
      rcases s.call_next_cases with ⟨-, hcall⟩ | ⟨-, hcall⟩
      · rw [hcall]
        exact ⟨0, _, rfl⟩
      · rw [hcall]
        exact ⟨1, _, rfl⟩
  | tokens ignore => exact htokens ignore
  | wantedTokens => exact htokens s.ignoreLineBreaks

theorem exists_resultAt_of_mem_tokens {s : Scan} {ignore : Bool} {r : Except Fault Token}
    (h : r ∈ (Answer.tokens (s.tokens ignore).result).results) :
    ∃ k finished, r = s.resultAt k ∧
      (isLast r = true → (s.tokens ignore).scan = { s.after (k + 1) with finished }) := by
  obtain ⟨ts, log, hrun, hstop⟩ := s.exists_delivers_to_after
  have hcases : r = s.resultAt ts.length ∨ ∃ t ∈ ts, r = .ok t := by
    cases hresult : (s.after ts.length).nextToken.result with
    | error e =>
        rw [tokens_of_delivers_of_error hrun hresult] at h
        left
        rw [List.mem_singleton.mp h]
        exact hresult.symm
    | ok t =>
        rw [tokens_of_delivers_of_endOfFile hrun hresult (hstop t hresult)] at h
        obtain ⟨u, hu, rfl⟩ := List.mem_map.mp h
        rcases List.mem_append.mp hu with hu | hu
        · right
          exact ⟨u, (List.mem_filter.mp hu).1, rfl⟩
        · left
          rw [List.mem_singleton.mp hu]
          exact hresult.symm
  rcases hcases with rfl | ⟨t, ht, rfl⟩
  · have hscan : (s.tokens ignore).scan = s.after (ts.length + 1) := by
      rw [scan_tokens_of_delivers hrun hstop, after_succ]
    exact ⟨ts.length, _, rfl, fun _ => hscan⟩
  · have hmem : .ok t ∈ (List.range ts.length).map s.resultAt := by
      rw [map_resultAt_of_delivers hrun]
      exact List.mem_map_of_mem ht
    obtain ⟨k, -, hk⟩ := List.mem_map.mp hmem
    refine ⟨k, s.finished, hk.symm, ?_⟩
    intro hend
    rw [isLast, isEndOfFile_of_mem_of_delivers hrun ht] at hend
    cases hend

/-- Every result of an answer is that of a call of `nextToken`. One that ends an
iteration is the last of its answer. -/
theorem exists_resultAt_of_mem_call {s : Scan} {c : Call} {r : Except Fault Token}
    (h : r ∈ (s.call c).result.results) :
    ∃ k finished, r = s.resultAt k ∧
      (isLast r = true → (s.call c).scan = { s.after (k + 1) with finished }) := by
  cases c with
  | nextToken => exact ⟨0, _, List.mem_singleton.mp h, fun _ => rfl⟩
  | next =>
      rcases s.call_next_cases with ⟨-, hcall⟩ | ⟨-, hcall⟩
      · rw [hcall] at h
        cases h
      · rw [hcall] at h ⊢
        exact ⟨0, _, List.mem_singleton.mp h, fun _ => rfl⟩
  | tokens ignore => exact exists_resultAt_of_mem_tokens h
  | wantedTokens => exact exists_resultAt_of_mem_tokens h

/-! ## What all calls keep -/

section Keep

variable {P : Scan → Prop} (hstep : ∀ s, P s → P s.nextToken.scan)
include hstep

theorem keep_after {s : Scan} (hs : P s) (k : Nat) : P (s.after k) := by
  induction k generalizing s with
  | zero => exact hs
  | succ k ih => exact ih (hstep s hs)

theorem keep_delivers {s last : Scan} {ts : List Token} {log : List Event}
    (h : s.Delivers ts log last) (hs : P s) : P last := by
  induction h with
  | nil s => exact hs
  | cons _ _ _ ih => exact ih (hstep _ hs)

theorem keep_tokens {s : Scan} (hs : P s) (ignore : Bool) : P (s.tokens ignore).scan := by
  obtain ⟨ts, log, last, hrun, hstop⟩ := s.exists_delivers
  rw [scan_tokens_of_delivers hrun hstop]
  exact hstep _ (keep_delivers hstep hrun hs)

variable (hfinished : ∀ (s : Scan) (finished : Bool), P s → P { s with finished })
include hfinished

/-- What every `nextToken` keeps, whether or not the iteration has ended, every call keeps. -/
theorem keep_call {s : Scan} (hs : P s) (c : Call) : P (s.call c).scan := by
  cases c with
  | nextToken => exact hstep s hs
  | next =>
      rcases s.call_next_cases with ⟨-, hcall⟩ | ⟨-, hcall⟩
      · rw [hcall]
        exact hs
      · rw [hcall]
        exact hfinished _ _ (hstep s hs)
  | tokens ignore => exact keep_tokens hstep hs ignore
  | wantedTokens => exact keep_tokens hstep hs s.ignoreLineBreaks

theorem keep_calls {s : Scan} (hs : P s) (cs : List Call) : P (s.calls cs).scan := by
  induction cs generalizing s with
  | nil => exact hs
  | cons c cs ih => exact ih (keep_call hstep hfinished hs c)

/-- What holds at the start and is kept holds wherever a result of some call comes from. -/
theorem keep_mem_calls {s : Scan} (hs : P s) {cs : List Call} {a : Answer} {r : Except Fault Token}
    (ha : a ∈ (s.calls cs).result) (hr : r ∈ a.results) : ∃ u, P u ∧ u.nextToken.result = r := by
  induction cs generalizing s with
  | nil => cases ha
  | cons c cs ih =>
      rcases List.mem_cons.mp ha with rfl | ha
      · obtain ⟨k, -, hresult, -⟩ := exists_resultAt_of_mem_call hr
        exact ⟨s.after k, keep_after hstep hs k, hresult.symm⟩
      · exact ih (keep_call hstep hfinished hs c) ha

end Keep

/-! ### The flags -/

structure SameFlags (s t : Scan) : Prop where
  finished : t.finished = s.finished
  ignoreLineBreaks : t.ignoreLineBreaks = s.ignoreLineBreaks

namespace SameFlags

variable {s t s' t' : Scan}

theorem nextToken (h : SameFlags s t) : SameFlags s.nextToken.scan t.nextToken.scan := by
  obtain ⟨hs, hs'⟩ := s.flags_nextToken
  obtain ⟨ht, ht'⟩ := t.flags_nextToken
  exact ⟨by rw [hs, ht, h.finished], by rw [hs', ht', h.ignoreLineBreaks]⟩

theorem self_tokens (s : Scan) (ignore : Bool) : SameFlags s (s.tokens ignore).scan := by
  refine keep_tokens (P := SameFlags s) ?_ ⟨rfl, rfl⟩ ignore
  intro u hu
  obtain ⟨hfinished, hignore⟩ := u.flags_nextToken
  exact ⟨hfinished.trans hu.finished, hignore.trans hu.ignoreLineBreaks⟩

theorem tokens (h : SameFlags s t) (ignore : Bool) :
    SameFlags (s.tokens ignore).scan (t.tokens ignore).scan := by
  have hs := self_tokens s ignore
  have ht := self_tokens t ignore
  exact ⟨by rw [ht.finished, hs.finished, h.finished],
    by rw [ht.ignoreLineBreaks, hs.ignoreLineBreaks, h.ignoreLineBreaks]⟩

end SameFlags

/-! ## What the events report -/

theorem delivered_nextToken {s : Scan} {t : Token} (h : s.nextToken.result = .ok t)
    (hmore : t.isEndOfFile = false) : delivered s.nextToken.events = [t] := by
  obtain ⟨gap, l, rest, -, -, -, -, -, hstep⟩ := exists_lexeme_of_nextToken h hmore
  rw [hstep] at h ⊢
  cases h
  rw [delivery, delivered_append, delivered_map_bufferGrown]
  rfl

theorem delivered_of_delivers {s last : Scan} {ts : List Token} {log : List Event}
    (h : s.Delivers ts log last) : delivered log = ts := by
  induction h with
  | nil s => rfl
  | cons ht hmore _ ih =>
      rw [delivered_append, delivered_nextToken ht hmore, ih]
      rfl

/-- The tokens of an answer are reported, but for the end of the file. -/
theorem mem_delivered_call {s : Scan} {c : Call} {t : Token}
    (h : .ok t ∈ (s.call c).result.results) (hmore : t.isEndOfFile = false) :
    t ∈ delivered (s.call c).events := by
  have hone : s.nextToken.result = .ok t → t ∈ delivered s.nextToken.events := by
    intro ht
    rw [delivered_nextToken ht hmore]
    exact List.mem_singleton_self t
  have hall : ∀ ignore, .ok t ∈ (Answer.tokens (s.tokens ignore).result).results →
      t ∈ delivered (s.tokens ignore).events := by
    intro ignore hmem
    cases hresult : (s.tokens ignore).result with
    | error e =>
        rw [hresult] at hmem
        simp [Answer.results] at hmem
    | ok out =>
        rw [hresult] at hmem
        obtain ⟨ts, log, last, u, hrun, hu, hend, rfl⟩ := tokens_eq_ok_iff.mp hresult
        rw [tokens_of_delivers_of_endOfFile hrun hu hend, delivered_append, delivered_append,
          delivered_of_delivers hrun]
        obtain ⟨t', ht', hsame⟩ := List.mem_map.mp hmem
        cases hsame
        rcases List.mem_append.mp ht' with ht | ht
        · simp [(List.mem_filter.mp ht).1]
        · rw [List.mem_singleton.mp ht, hend] at hmore
          cases hmore
  cases c with
  | nextToken => exact hone (List.mem_singleton.mp h).symm
  | next =>
      rcases s.call_next_cases with ⟨-, hcall⟩ | ⟨-, hcall⟩
      · rw [hcall] at h
        cases h
      · rw [hcall] at h ⊢
        exact hone (List.mem_singleton.mp h).symm
  | tokens ignore => exact hall ignore h
  | wantedTokens => exact hall s.ignoreLineBreaks h

theorem mem_delivered_calls {s : Scan} {cs : List Call} {a : Answer} {t : Token}
    (ha : a ∈ (s.calls cs).result) (h : .ok t ∈ a.results) (hmore : t.isEndOfFile = false) :
    t ∈ delivered (s.calls cs).events := by
  induction cs generalizing s with
  | nil => cases ha
  | cons c cs ih =>
      rw [calls, delivered_append]
      rcases List.mem_cons.mp ha with rfl | ha
      · exact List.mem_append_left _ (mem_delivered_call h hmore)
      · exact List.mem_append_right _ (ih ha)

end Scan

end Lexing
