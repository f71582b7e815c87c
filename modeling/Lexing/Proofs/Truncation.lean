import Lexing.Proofs.Delivery

/-!
# Sources that are too long

A scan reads the longest part from the start of its source whose bytes offsets
can count. It warns of the rest, and behaves as if there were none: a string
whose closing quotation mark is not read has no end.
-/

namespace Lexing

/-- The part of a source that is read: the longest from its start that has
fewer than `2 ^ 32` bytes. -/
structure ReadablePart (source part : String) : Prop where
  starts : ∃ rest, source = part ++ rest
  size_lt : part.utf8ByteSize < 0x100000000
  longest : ∀ other rest, source = other ++ rest → other.utf8ByteSize < 0x100000000 →
    other.utf8ByteSize ≤ part.utf8ByteSize

theorem readablePart_readable (source : String) :
    ReadablePart source (Reader.readable source) := by
  refine ⟨?_, Reader.utf8ByteSize_readable_lt source, ?_⟩
  · obtain ⟨rest, hrest⟩ := Reader.readable_prefix source
    refine ⟨String.ofList rest, String.toList_inj.mp ?_⟩
    rw [String.toList_append, String.toList_ofList, hrest]
  · rintro other rest rfl hlt
    rw [← Text.utf8Length_toList] at hlt
    rw [← Text.utf8Length_toList other, ← Text.utf8Length_toList (Reader.readable _),
      Reader.toList_readable]
    apply Text.utf8Length_le_takeBytes
    · rw [String.toList_append]
      exact List.prefix_append _ _
    · exact Nat.le_sub_one_of_lt hlt

/-- A source whose bytes can be counted is read as a whole. -/
theorem ReadablePart.eq_of_lt {source part : String} (h : ReadablePart source part)
    (hlt : source.utf8ByteSize < 0x100000000) : part = source := by
  obtain ⟨rest, rfl⟩ := h.starts
  have hle := h.longest (part ++ rest) "" String.append_empty.symm hlt
  rw [String.utf8ByteSize_append] at hle
  have hnone : rest.utf8ByteSize = 0 := by omega
  rw [String.utf8ByteSize_eq_zero_iff.mp hnone, String.append_empty]

/-- A scan warns exactly of a source that it does not read as a whole. -/
theorem Scan.startEvents_eq_nil_iff {source : String} :
    startEvents source = [] ↔ Reader.readable source = source := by
  constructor
  · intro h
    unfold startEvents at h
    split at h
    · next hlt => exact Reader.readable_of_lt hlt
    · cases h
  · intro h
    rw [startEvents, if_pos (h ▸ Reader.utf8ByteSize_readable_lt source)]

theorem Scan.eq_sourceCut_of_mem_startEvents {source : String} {event : Event}
    (h : event ∈ startEvents source) : event = .sourceCut source.utf8ByteSize := by
  unfold startEvents at h
  split at h
  · cases h
  · exact List.mem_singleton.mp h

/-! ## A string that is cut off -/

/-- A string of one letter behind blanks. -/
def blanksAndString (blanks : Nat) : String :=
  String.ofList (List.replicate blanks ' ' ++ ['"', 'a', '"'])

theorem isGap_replicate (n : Nat) : IsGap (List.replicate n ' ') := by
  intro c hc
  rw [List.eq_of_mem_replicate hc]
  decide

theorem utf8Length_blanks (n : Nat) : Text.utf8Length (List.replicate n ' ') = n :=
  (Text.utf8Length_replicate n ' ').trans (Nat.mul_one n)

section BlanksAndString

variable {blanks : Nat}

theorem utf8Length_blanksAndString :
    Text.utf8Length (blanksAndString blanks).toList = blanks + 3 := by
  rw [blanksAndString, String.toList_ofList, Text.utf8Length_append, utf8Length_blanks]
  rfl

/-- The last character that is read opens the string. -/
theorem toList_readable_blanksAndString (h : blanks + 2 = Position.bound) :
    (Reader.readable (blanksAndString blanks)).toList = List.replicate blanks ' ' ++ ['"'] := by
  have hlength : Text.utf8Length (List.replicate blanks ' ' ++ ['"']) = Position.bound - 1 := by
    rw [Text.utf8Length_append, utf8Length_blanks]
    exact Nat.eq_sub_of_add_eq h
  have hsplit : List.replicate blanks ' ' ++ ['"', 'a', '"'] =
      (List.replicate blanks ' ' ++ ['"']) ++ ['a', '"'] := by
    rw [List.append_assoc]
    rfl
  rw [Reader.toList_readable, blanksAndString, String.toList_ofList, hsplit,
    Text.takeBytes_append (Nat.le_of_eq hlength), hlength, Nat.sub_self]
  exact List.append_nil _

/-- The first call on a scan of it misses the end of the string and reads no further. -/
theorem Scan.nextToken_blanksAndString (h : blanks + 2 = Position.bound) {settings : Settings}
    {s : Scan} (hstart : start? (blanksAndString blanks) settings = some s) :
    ∃ p, p.offset = blanks ∧ s.nextToken.result = .error (.unterminatedString p) ∧
      s.nextToken.scan.reader.rest = [] ∧ s.nextToken.scan.position.offset = blanks + 1 := by
  have hposition : s.position = {} := by
    obtain ⟨-, rfl⟩ := start?_eq_some_iff.mp hstart
    rfl
  have hrest : s.reader.rest = List.replicate blanks ' ' ++ ['"'] := by
    obtain ⟨-, rfl⟩ := start?_eq_some_iff.mp hstart
    exact toList_readable_blanksAndString h
  have hstep := nextToken_of_openString (isGap_replicate blanks) List.not_mem_nil
    ((TextBuffer.fits_reset_iff s.buffer []).mpr (.inr (Nat.zero_le _))) hrest
  have hquote : (s.past (List.replicate blanks ' ') ['"']).position.offset = blanks := by
    rw [position_past, Position.offset_advanceOver, hposition, utf8Length_blanks]
    exact Nat.zero_add blanks
  rw [hstep]
  refine ⟨_, hquote, rfl, rfl, ?_⟩
  show ((s.past (List.replicate blanks ' ') ['"']).position.advanceOver _ ['"']).offset = _
  rw [Position.offset_advanceOver, hquote]
  rfl

end BlanksAndString

end Lexing
