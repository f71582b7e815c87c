import Lexing.Proofs.Checked

/-!
# Bounds that every run keeps

Whatever the calls on a scan are, and whether or not they fail, the scan stands
between two characters of the text, its numbers fit, and its buffer has asked
for storage for no more than twice the characters of the text. Therefore no
check of any operation fails, and what is sliced or gathered on the way are the
texts of the tokens.
-/

namespace Lexing

namespace Scan

/-! ## The storage of the buffer -/

/-- What a call gathers stands in the rest of the text. -/
theorem capacity_nextToken_le (s : Scan) :
    s.nextToken.scan.buffer.capacity ≤ max s.buffer.capacity (2 * s.reader.rest.length) := by
  rcases s.buffer_nextToken with hsame | ⟨lead, run, hcollects, hfill⟩
  · rw [hsame]
    exact Nat.le_max_left _ _
  · obtain ⟨rest, hrest⟩ := hcollects.exists_rest
    have hlength : run.length ≤ s.reader.rest.length := by
      rw [hrest, List.length_append, List.length_append]
      omega
    have hcapacity := TextBuffer.capacity_fill_le s.buffer.reset run
    have hcount : s.buffer.reset.count = 0 := rfl
    rw [← hfill, TextBuffer.capacity_reset, hcount, Nat.zero_add] at hcapacity
    omega

theorem capacity_calls_le {source : List Char} {s : Scan} (hs : s.StandsIn source)
    (cs : List Call) :
    (s.calls cs).scan.buffer.capacity ≤ max s.buffer.capacity (2 * source.length) := by
  refine (keep_calls
    (P := fun u => u.StandsIn source ∧
      u.buffer.capacity ≤ max s.buffer.capacity (2 * source.length))
    ?_ (fun _ _ hu => hu) ⟨hs, Nat.le_max_left _ _⟩ cs).2
  rintro u ⟨hu, hcapacity⟩
  refine ⟨hu.moves u.moves_nextToken, ?_⟩
  have hnext := u.capacity_nextToken_le
  -- What is left of the text is no longer than the text.
  obtain ⟨front, hsource, -, -⟩ := hu
  have hlength := congrArg List.length hsource
  rw [List.length_append] at hlength
  omega

/-! ## Scans that calls lead to -/

/-- What holds of a scan of the text that began with storage for `capacity`
characters. -/
structure InBounds (source : String) (capacity : Nat) (s : Scan) : Prop where
  /-- The offset is the length of what has been read, and lines and columns
  together count no more than its characters. -/
  standsIn : s.StandsIn source.toList
  line_add_column_le : s.position.line + s.position.column ≤ s.position.offset
  offset_lt : s.position.offset < Position.bound
  /-- Later calls do not lead back. -/
  offset_le_calls : ∀ later : List Call,
    s.position.offset ≤ (s.calls later).scan.position.offset
  count_le : s.buffer.count ≤ s.buffer.capacity
  capacity_le : s.buffer.capacity ≤ max capacity (2 * source.length)
  /-- No check fails in the next call of `nextToken`, and the text of the token
  that it delivers has been sliced or gathered. -/
  nextToken : Underway.performAll? source.toList ⟨s, []⟩ s.operations =
    some ⟨s.nextToken.scan, textsOf s.nextToken.result⟩
  /-- No check fails in any call, which does what some calls of `nextToken` do. -/
  call : ∀ c : Call, ∃ k finished,
    Underway.performAll? source.toList ⟨s, []⟩ (s.operationsOver k) =
        some ⟨s.after k, s.textsOver k⟩ ∧
      (s.call c).scan = { s.after k with finished }

theorem StandsIn.inBounds {source : String} {capacity : Nat} {s : Scan}
    (hsource : Text.utf8Length source.toList < Position.bound) (hs : s.StandsIn source.toList)
    (hcapacity : s.buffer.capacity ≤ max capacity (2 * source.length)) :
    s.InBounds source capacity where
  standsIn := hs
  line_add_column_le := hs.line_add_column_le
  offset_lt := Nat.lt_of_le_of_lt (hs.offset_add_unread ▸ Nat.le_add_right _ _) hsource
  offset_le_calls later := (s.moves_calls later).offset_le
  count_le := s.buffer.count_le_capacity
  capacity_le := hcapacity
  nextToken := performAll?_operations hsource hs
  call c := by
    obtain ⟨k, finished, hcall⟩ := s.exists_after_call c
    exact ⟨k, finished, performAll?_operationsOver hsource hs k, hcall⟩

end Scan

theorem exists_inBounds_calls {settings : Settings} (source : String)
    (hsource : Text.utf8Length source.toList < Position.bound)
    (hstorable : settings.Storable) :
    ∃ scan, Scan.start? source settings = some scan ∧
      ∀ history : List Call, (scan.calls history).scan.InBounds source settings.capacity := by
  refine ⟨.startWith settings.buffer source settings,
    hstorable.start?_eq source, fun history => ?_⟩
  have hstart := Scan.standsIn_startWith settings.buffer source settings
  rw [Reader.readable_of_utf8Length_lt hsource] at hstart
  have hcapacity := Scan.capacity_calls_le hstart history
  have hfirst : (Scan.startWith settings.buffer source settings).buffer.capacity =
      settings.capacity := TextBuffer.capacity_withCapacity _ _
  rw [hfirst, String.length_toList] at hcapacity
  exact (hstart.calls history).inBounds hsource hcapacity

/-- The word takes all of the storage and of the columns that it may. -/
theorem exists_inBounds_calls_word :
    Text.utf8Length "abc".toList < Position.bound ∧ ({ capacity := 0 } : Settings).Storable ∧
    ∃ scan, Scan.start? "abc" { capacity := 0 } = some scan ∧
      (scan.calls [.next]).scan.InBounds "abc" 0 ∧
      scan.operations =
        [.peek, .peek, .reset, .peek, .consume, .push 'a', .peek, .consume, .push 'b', .peek,
          .consume, .push 'c', .peek, .materialize] ∧
      (scan.calls [.next]).scan.position = ⟨3, 0, 3⟩ ∧
      (scan.calls [.next]).scan.buffer.capacity = 6 := by
  obtain ⟨scan, hstart, hbounds⟩ :=
    @exists_inBounds_calls { capacity := 0 } "abc" (by decide) (by decide)
  cases hstart
  exact ⟨by decide, by decide, _, rfl, hbounds [.next], rfl, rfl, rfl⟩

end Lexing
