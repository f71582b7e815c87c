import Lexing.Proofs.Pieces
import Lexing.Proofs.Positions

/-!
# One character of lookahead

A call looks at no more than one character behind what it reads, and at none
behind a string or a symbol. So two texts that begin alike give the same tokens
and the same faults as long as what is read, with that character, lies in what
they have in common. A token is not changed by what comes later, whatever the
rest of the text comes to.
-/

namespace Lexing

/-- No character behind a token of this kind would belong to it. -/
def Kind.IsClosed (kind : Kind) : Prop := kind = .string ∨ kind.symbol?.isSome = true

theorem Kind.not_isClosed_endOfFile : ¬ Kind.endOfFile.IsClosed := by
  simp [Kind.IsClosed, Kind.symbol?]

theorem Kind.IsClosed.isEndOfFile_eq_false {t : Token} (h : t.kind.IsClosed) :
    t.isEndOfFile = false := by
  rw [Token.isEndOfFile, decide_eq_false_iff_not]
  intro hkind
  rw [hkind] at h
  exact Kind.not_isClosed_endOfFile h

/-- What is read for the token cannot be told apart from the text `p`, whatever
comes behind it: the token ends before `p` does, or it ends with `p` and is one
that no character extends. -/
def Token.SettledBy (t : Token) (p : String) : Prop :=
  t.endOffset < Text.utf8Length p.toList ∨
    t.endOffset = Text.utf8Length p.toList ∧ t.kind.IsClosed

/-! ## Runs that are cut off -/

/-- A run that is gathered begins with the same characters where the text goes
on otherwise behind them. -/
theorem Gathers.exists_of_take {text front run : List Char} {n : Nat}
    (h : Gathers text front run) (hn : 0 < n) (tail : List Char) :
    ∃ more, Gathers (front ++ (run.take n ++ tail)) front (run.take n ++ more) := by
  cases h with
  | @identifier c word rest hcs hc hword hend =>
      obtain ⟨m, rfl⟩ := Nat.exists_eq_succ_of_ne_zero (Nat.ne_of_gt hn)
      obtain ⟨more, rest', htail, hmore, hend'⟩ := exists_run isIdentifierPart tail
      refine ⟨more, .identifier ?_ hc ?_ hend'⟩
      · rw [htail]
        simp
      · intro d hd
        rcases List.mem_append.mp hd with hd | hd
        · exact hword d (List.mem_of_mem_take hd)
        · exact hmore d hd
  | @string body rest hcs hbody hend =>
      obtain ⟨more, rest', htail, hmore, hend'⟩ := exists_run (· != '"') tail
      refine ⟨more, .string ?_ ?_ hend'⟩
      · rw [htail]
        simp
      · intro hmem
        rcases List.mem_append.mp hmem with hmem | hmem
        · exact hbody (List.mem_of_mem_take hmem)
        · simpa using hmore _ hmem

namespace Lexeme

/-- No character extends a string or a symbol. -/
theorem extendedBy_eq_false {l : Lexeme} (h : l.kind.IsClosed) (c : Char) : l.extendedBy c = false := by
  obtain ⟨kind, text⟩ := l
  rcases h with hkind | hsymbol
  · obtain rfl : kind = .string := hkind
    exact extendedBy_string text c
  · obtain ⟨d, hd⟩ := Option.isSome_iff_exists.mp hsymbol
    exact extendedBy_symbol hd text c

end Lexeme

namespace Scan

/-- Scans at the same position, before texts that have `p` in common, whose
buffers refuse the same runs. -/
structure SharesPrefix (p q q' : List Char) (s t : Scan) : Prop where
  rest : s.reader.rest = p ++ q
  rest' : t.reader.rest = p ++ q'
  tracking : t.reader.tracking = s.reader.tracking
  position : t.position = s.position
  limit : s.buffer.SameLimit t.buffer

namespace SharesPrefix

variable {p p₂ q q' gap : List Char} {s t : Scan}

/-- What is read of the one text up to `p₂ ++ q` stands in the other up to `p₂ ++ q'`. -/
theorem rest_eq {cs : List Char} (h : SharesPrefix p q q' s t)
    (hrest : s.reader.rest = cs ++ (p₂ ++ q)) : t.reader.rest = cs ++ (p₂ ++ q') := by
  have hp : p ++ q = (cs ++ p₂) ++ q := by
    rw [← h.rest, hrest, List.append_assoc]
  rw [h.rest', List.append_cancel_right hp, List.append_assoc]

theorem position_past (h : SharesPrefix p q q' s t) (cs rest rest' : List Char) :
    (t.past cs rest').position = (s.past cs rest).position := by
  rw [Scan.position_past, Scan.position_past, h.tracking, h.position]

/-! ### One call -/

theorem nextToken_of_foreign {c : Char} {rest : List Char} (h : SharesPrefix p q q' s t)
    (hgap : IsGap gap) (hc : Foreign c) (hrest : s.reader.rest = gap ++ c :: rest) (hne : p₂ ≠ [])
    (hnext : c :: rest = p₂ ++ q) :
    t.nextToken =
      (t.past gap (p₂ ++ q')).abort (.unexpectedCharacter c (s.past gap (c :: rest)).position) := by
  rw [hnext] at hrest
  have hrest' := h.rest_eq hrest
  obtain ⟨d, p₃, rfl⟩ := List.exists_cons_of_ne_nil hne
  obtain ⟨rfl, -⟩ := List.cons.inj hnext
  rw [Scan.nextToken_of_foreign hgap hc hrest', ← h.position_past gap (c :: rest)]
  rfl

theorem nextToken_of_lexeme {l : Lexeme} {rest : List Char} (h : SharesPrefix p q q' s t)
    (hgap : IsGap gap) (hl : l.WellFormed) (hend : EndsRun l.extendedBy rest)
    (hfit : l.FitsIn s.buffer) (hrest : s.reader.rest = gap ++ (l.spelling ++ rest))
    (hsettled : p₂ ≠ [] ∨ l.kind.IsClosed)
    (hnext : rest = p₂ ++ q) :
    t.nextToken = (t.past gap (l.spelling ++ (p₂ ++ q'))).delivery l (p₂ ++ q') := by
  have hrest' : t.reader.rest = gap ++ (l.spelling ++ (p₂ ++ q')) := by
    rw [← List.append_assoc, hnext] at hrest
    rw [h.rest_eq hrest, List.append_assoc]
  have hend' : EndsRun l.extendedBy (p₂ ++ q') := by
    rw [hnext] at hend
    refine hend.of_append.append fun hempty => ?_
    exact .of_forall q' (Lexeme.extendedBy_eq_false (hsettled.resolve_left fun hne => hne hempty))
  have hfit' : l.FitsIn t.buffer := (Lexeme.fitsIn_iff_of_sameLimit h.limit l).mpr hfit
  exact Scan.nextToken_of_lexeme hgap hl hend' hfit' hrest'

/-- A buffer that has no room for a character of `p` refuses it in both texts. -/
theorem nextToken_of_refusal {front run rest : List Char} {e : TextBuffer.Exhausted}
    (h : SharesPrefix p q q' s t) (hgap : IsGap gap)
    (hrun : Gathers (front ++ (run ++ rest)) front run)
    (hfault : (s.buffer.reset.fill run).fault = some e)
    (hrest : s.reader.rest = gap ++ (front ++ (run ++ rest)))
    (hnext : run.drop (e.capacity + 1) ++ rest = p₂ ++ q) :
    t.nextToken.result = .error (.ofExhausted e) ∧
      t.nextToken.scan.reader = t.reader.past (gap ++ (front ++ run.take (e.capacity + 1)))
        (p₂ ++ q') := by
  obtain ⟨hfixed, hlong, rfl⟩ := TextBuffer.fault_fill_reset_eq_some_iff.mp hfault
  have hread : run ++ rest = run.take (s.buffer.capacity + 1) ++ (p₂ ++ q) := by
    rw [← hnext, ← List.append_assoc, List.take_append_drop]
  have hrest' : t.reader.rest =
      gap ++ (front ++ (run.take (s.buffer.capacity + 1) ++ (p₂ ++ q'))) := by
    rw [hread, ← List.append_assoc, ← List.append_assoc] at hrest
    rw [h.rest_eq hrest, List.append_assoc, List.append_assoc]
  -- In the other text the run may be longer or shorter, but it has these characters.
  obtain ⟨more, hrun'⟩ := hrun.exists_of_take (Nat.succ_pos s.buffer.capacity) (p₂ ++ q')
  have hlength : (run.take (s.buffer.capacity + 1)).length = s.buffer.capacity + 1 := by
    rw [List.length_take, Nat.min_eq_left hlong]
  have hcapacity := h.limit.capacity hfixed
  have hfault' : (t.buffer.reset.fill (run.take (s.buffer.capacity + 1) ++ more)).fault =
      some ⟨s.buffer.capacity⟩ := by
    rw [TextBuffer.fault_fill_reset_eq_some_iff, hcapacity, List.length_append, hlength]
    exact ⟨h.limit.growable.trans hfixed, by omega, rfl⟩
  obtain ⟨rest', hsplit⟩ := hrun'.exists_eq
  have hleft : p₂ ++ q' = more ++ rest' := by
    rw [List.append_assoc] at hsplit
    exact List.append_cancel_left (List.append_cancel_left hsplit)
  rw [Scan.nextToken_of_gathers hgap hrun' hfault' hrest']
  refine ⟨rfl, ?_⟩
  rw [hsplit, reader_refusal hfault', List.take_left' hlength, List.drop_left' hlength, hleft]

/-- A call that leaves some of the common text behind, or reads up to its end what no
character extends, is the same on both. -/
theorem nextToken (h : SharesPrefix p q q' s t) (hnext : s.nextToken.scan.reader.rest = p₂ ++ q)
    (hsettled : p₂ ≠ [] ∨
      ∃ u, s.nextToken.result = .ok u ∧ u.kind.IsClosed) :
    t.nextToken.result = s.nextToken.result ∧
      SharesPrefix p₂ q q' s.nextToken.scan t.nextToken.scan := by
  have hlimit := s.sameLimit_nextToken.symm.trans (h.limit.trans t.sameLimit_nextToken)
  have htracking : t.nextToken.scan.reader.tracking = s.nextToken.scan.reader.tracking := by
    rw [tracking_nextToken, tracking_nextToken, h.tracking]
  suffices hsame : t.nextToken.result = s.nextToken.result ∧
      t.nextToken.scan.reader.rest = p₂ ++ q' ∧
      t.nextToken.scan.position = s.nextToken.scan.position from
    ⟨hsame.1, hnext, hsame.2.1, htracking, hsame.2.2, hlimit⟩
  clear hlimit htracking
  have hout := s.nextToken_outcome
  generalize s.nextToken = step at hout hnext hsettled ⊢
  -- A call that gives neither a string nor a symbol leaves some of the common text.
  have hne : (∀ u, step.result = .ok u → ¬ u.kind.IsClosed) → p₂ ≠ [] := by
    intro hopen
    rcases hsettled with hne | ⟨u, hu, hclosed⟩
    · exact hne
    · exact absurd hclosed (hopen u hu)
  cases hout with
  | endOfFile hgap hrest =>
      obtain ⟨hempty, -⟩ := List.append_eq_nil_iff.mp hnext.symm
      exact absurd hempty (hne fun u hu => by cases hu; exact Kind.not_isClosed_endOfFile)
  | openString hgap hbody hfit hrest =>
      obtain ⟨hempty, -⟩ := List.append_eq_nil_iff.mp hnext.symm
      exact absurd hempty (hne fun u hu => by cases hu)
  | @foreign gap rest c hgap hc hrest =>
      have hsome := hne fun u hu => by cases hu
      rw [h.nextToken_of_foreign hgap hc hrest hsome hnext]
      exact ⟨rfl, rfl, h.position_past ..⟩
  | @refusal gap text front run e hgap hrun hfault hrest =>
      obtain ⟨rest, rfl⟩ := hrun.exists_eq
      have hreader := reader_refusal hfault gap front rest
      rw [hreader] at hnext
      obtain ⟨hresult, hreader'⟩ := h.nextToken_of_refusal hgap hrun hfault hrest hnext
      refine ⟨hresult, by rw [hreader']; rfl, ?_⟩
      rw [Scan.position, Scan.position, hreader', hreader]
      exact h.position_past ..
  | @lexeme gap rest l hgap hl hend hfit hrest =>
      have hsettled' : p₂ ≠ [] ∨ l.kind.IsClosed := by
        refine hsettled.imp_right ?_
        rintro ⟨u, hu, hkind⟩
        cases hu
        exact hkind
      have hposition := h.position_past gap (l.spelling ++ rest) (l.spelling ++ (p₂ ++ q'))
      rw [h.nextToken_of_lexeme hgap hl hend hfit hrest hsettled' hnext]
      refine ⟨?_, rfl, ?_⟩
      · simp only [delivery, hposition]
      · rw [scan_delivery, scan_delivery, position_behind, position_behind, hposition, reader_past,
          reader_past, Reader.tracking_past, Reader.tracking_past, h.tracking]

end SharesPrefix

/-! ### One call after the other -/

theorem exists_rest_after (s : Scan) (k : Nat) :
    ∃ cs, s.reader.rest = cs ++ (s.after k).reader.rest := by
  refine keep_after (P := fun u => ∃ cs, s.reader.rest = cs ++ u.reader.rest) ?_ ⟨[], rfl⟩ k
  rintro u ⟨cs, hcs⟩
  obtain ⟨-, ⟨ds, hds, -⟩, -⟩ := u.moves_nextToken
  exact ⟨cs ++ ds, by rw [hcs, hds, List.append_assoc]⟩

theorem SharesPrefix.resultAt {p p₂ q q' : List Char} {s t : Scan} {k : Nat}
    (h : SharesPrefix p q q' s t) (hnext : (s.after (k + 1)).reader.rest = p₂ ++ q)
    (hsettled : p₂ ≠ [] ∨ ∃ u, s.resultAt k = .ok u ∧ u.kind.IsClosed) :
    ∀ j ≤ k, t.resultAt j = s.resultAt j ∧
      (t.after (j + 1)).position = (s.after (j + 1)).position := by
  induction k generalizing p s t with
  | zero =>
      intro j hj
      obtain rfl := Nat.le_zero.mp hj
      obtain ⟨hresult, hscan⟩ := h.nextToken hnext hsettled
      exact ⟨hresult, hscan.position⟩
  | succ k ih =>
      obtain ⟨cs, hcs⟩ := s.nextToken.scan.exists_rest_after (k + 1)
      have hfirst : s.nextToken.scan.reader.rest = (cs ++ p₂) ++ q := by
        rw [hcs, List.append_assoc, ← hnext]
        rfl
      have hne : cs ++ p₂ ≠ [] := by
        intro hempty
        obtain ⟨rfl, rfl⟩ := List.append_eq_nil_iff.mp hempty
        obtain ⟨u, hu, hclosed⟩ := hsettled.resolve_left fun hne => hne rfl
        -- The last call has read a token, so the first has not come that far.
        have hless := length_rest_nextToken_lt hu hclosed.isEndOfFile_eq_false
        obtain ⟨ds, hds⟩ := s.nextToken.scan.exists_rest_after k
        rw [List.nil_append, after_succ] at hcs
        rw [after, ← hcs, hds, List.length_append] at hless
        omega
      obtain ⟨hresult, hscan⟩ := h.nextToken hfirst (.inl hne)
      intro j hj
      cases j with
      | zero => exact ⟨hresult, hscan.position⟩
      | succ j => exact ih hscan hnext hsettled j (Nat.le_of_succ_le_succ hj)

/-- A delivered token ends where the scan stands. -/
theorem offset_nextToken {s : Scan} {t : Token} (h : s.nextToken.result = .ok t) :
    s.nextToken.scan.position.offset = t.endOffset := by
  cases hend : t.isEndOfFile with
  | true =>
      obtain ⟨gap, -, -, rfl, hscan⟩ := exists_gap_of_nextToken h hend
      rw [hscan]
      rfl
  | false => rw [position_nextToken h hend, Lexeme.offset_endPosition, Token.endOffset]

/-- Where a token is settled by the beginning `p` of a text, so is all that was read for it. -/
theorem StandsIn.exists_rest_of_settledBy {p : String} {q : List Char} {s : Scan} {t : Token}
    (hs : s.nextToken.scan.StandsIn (p.toList ++ q)) (ht : s.nextToken.result = .ok t)
    (hsettled : t.SettledBy p) :
    ∃ p₂, s.nextToken.scan.reader.rest = p₂ ++ q ∧
      (p₂ ≠ [] ∨ ∃ u, s.nextToken.result = .ok u ∧ u.kind.IsClosed) := by
  obtain ⟨front, hsource, hoffset, -⟩ := hs
  rw [offset_nextToken ht] at hoffset
  obtain ⟨p₂, hp, hrest⟩ : ∃ p₂, p.toList = front ++ p₂ ∧
      s.nextToken.scan.reader.rest = p₂ ++ q := by
    rcases List.append_eq_append_iff.mp hsource with ⟨more, hfront, hq⟩ | ⟨p₂, hp, hrest⟩
    · -- What has been read is no longer than `p`, so there is no more than that.
      have hlength := congrArg Text.utf8Length hfront
      rw [Text.utf8Length_append, ← hoffset] at hlength
      have hle := Text.length_le_utf8Length more
      have hnone : more.length = 0 := by
        rcases hsettled with hless | ⟨heq, -⟩ <;> omega
      rw [List.length_eq_zero_iff.mp hnone] at hfront hq
      exact ⟨[], by rw [hfront, List.append_nil, List.append_nil], hq.symm⟩
    · exact ⟨p₂, hp, hrest⟩
  refine ⟨p₂, hrest, ?_⟩
  rcases hsettled with hless | ⟨-, hclosed⟩
  · left
    rintro rfl
    rw [hp, List.append_nil, hoffset] at hless
    exact Nat.lt_irrefl _ hless
  · exact .inr ⟨t, ht, hclosed⟩

end Scan

/-! ## Texts that begin alike -/

theorem exists_agree_of_settledBy {settings : Settings} (p q q' : String)
    (hstorable : settings.Storable) :
    ∃ s t, Scan.start? (p ++ q) settings = some s ∧ Scan.start? (p ++ q') settings = some t ∧
      ∀ k token, s.resultAt k = .ok token → token.SettledBy p → ∀ j ≤ k,
        t.resultAt j = s.resultAt j ∧ (t.after (j + 1)).position = (s.after (j + 1)).position := by
  refine ⟨_, _, hstorable.start?_eq _, hstorable.start?_eq _, ?_⟩
  intro k token htoken hsettled
  rcases Nat.lt_or_ge (Text.utf8Length p.toList) Position.bound with hlt | hle
  · obtain ⟨more, hread⟩ := Reader.toList_readable_append_of_lt hlt q
    obtain ⟨more', hread'⟩ := Reader.toList_readable_append_of_lt hlt q'
    have hshares : Scan.SharesPrefix p.toList more more'
        (.startWith settings.buffer (p ++ q) settings)
        (.startWith settings.buffer (p ++ q') settings) :=
      ⟨hread, hread', rfl, rfl, .refl _⟩
    have hstands : (Scan.startWith settings.buffer (p ++ q) settings).StandsIn
        (p.toList ++ more) := by
      rw [← hread]
      exact Scan.standsIn_startWith ..
    have hbehind := Scan.keep_after (fun u hu => hu.moves u.moves_nextToken) hstands (k + 1)
    rw [Scan.after_succ] at hbehind
    obtain ⟨p₂, hnext, hclosed⟩ := hbehind.exists_rest_of_settledBy htoken hsettled
    rw [← Scan.after_succ] at hnext
    exact hshares.resultAt hnext hclosed
  · -- Nothing behind `p` is read, and so both scans are the same.
    have hsame : Scan.startWith settings.buffer (p ++ q') settings =
        .startWith settings.buffer (p ++ q) settings := by
      rw [Scan.startWith, Scan.startWith, Reader.ofString, Reader.ofString,
        Reader.toList_readable_append_of_le hle, Reader.toList_readable_append_of_le hle]
    rw [hsame]
    exact fun j _ => ⟨rfl, rfl⟩

/-- The word does not fit the buffer in either text. Both go on alike behind the string,
up to its end, though what follows in the second is a string without an end. -/
theorem exists_agree_of_settledBy_string :
    ({ capacity := 2, growable := false } : Settings).Storable ∧
    ∃ s t, Scan.start? ("abcd \"e\"" ++ " 1") { capacity := 2, growable := false } = some s ∧
      Scan.start? ("abcd \"e\"" ++ "\"#") { capacity := 2, growable := false } = some t ∧
      s.resultAt 2 = .ok ⟨.string, "e", ⟨5, 1, 0⟩⟩ ∧
      Token.SettledBy ⟨.string, "e", ⟨5, 1, 0⟩⟩ "abcd \"e\"" ∧
      t.resultAt 0 = s.resultAt 0 ∧ t.resultAt 1 = s.resultAt 1 ∧
      t.resultAt 2 = .ok ⟨.string, "e", ⟨5, 1, 0⟩⟩ := by
  obtain ⟨s, t, hs, ht, hagree⟩ := @exists_agree_of_settledBy
    { capacity := 2, growable := false } "abcd \"e\"" " 1" "\"#" (by decide)
  cases hs
  cases ht
  have hsettled : Token.SettledBy ⟨.string, "e", ⟨5, 1, 0⟩⟩ "abcd \"e\"" :=
    .inr ⟨by decide, .inl rfl⟩
  have hstring := hagree 2 ⟨.string, "e", ⟨5, 1, 0⟩⟩ rfl hsettled
  refine ⟨by decide, _, _, rfl, rfl, rfl, hsettled, ?_, ?_, ?_⟩
  · exact (hstring 0 (by decide)).1
  · exact (hstring 1 (by decide)).1
  · exact (hstring 2 (by decide)).1

end Lexing
