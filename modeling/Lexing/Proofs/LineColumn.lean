import Lexing.Proofs.Lexeme

/-!
# Lines and columns by counting

A position follows the reading step by step: every character moves it, and a
line break token sets it to the start of a line. `Journey` is such a reading.
The same position can be counted from the text and the line break tokens
alone: a line starts behind every line break token and, where blanks count,
behind every blank outside of these tokens. `Journey.eq_countedPosition` says
that both agree.
-/

namespace Lexing

/-! ## Counting -/

/-- The characters with the offsets at which they stand, the first at `offset`. -/
def located (offset : Nat) : List Char → List (Nat × Char)
  | [] => []
  | c :: cs => (offset, c) :: located (offset + c.utf8Size) cs

theorem located_append (offset : Nat) (cs ds : List Char) :
    located offset (cs ++ ds) = located offset cs ++ located (offset + Text.utf8Length cs) ds := by
  induction cs generalizing offset with
  | nil => rfl
  | cons c cs ih =>
      rw [List.cons_append, located, ih, Nat.add_assoc]
      rfl

theorem bounds_of_mem_located {offset : Nat} {cs : List Char} {x : Nat × Char}
    (h : x ∈ located offset cs) :
    offset ≤ x.1 ∧ x.1 + x.2.utf8Size ≤ offset + Text.utf8Length cs := by
  induction cs generalizing offset with
  | nil => cases h
  | cons c cs ih =>
      rcases List.mem_cons.mp h with rfl | h
      · show offset ≤ offset ∧ offset + c.utf8Size ≤ offset + (c.utf8Size + Text.utf8Length cs)
        omega
      · have hbounds := ih h
        rw [Text.utf8Length_cons]
        omega

/-- The offset behind a token. -/
def Token.endOffset (t : Token) : Nat := t.position.offset + Text.utf8Length t.lexeme.spelling

/-- Whether a character at the offset belongs to the token. -/
def Token.covers (t : Token) (offset : Nat) : Bool :=
  t.position.offset ≤ offset && offset < t.endOffset

/-- The greatest of the offsets, or the start of the text. -/
def latest (offsets : List Nat) : Nat := offsets.foldr max 0

theorem latest_le {offsets : List Nat} {n : Nat} (h : ∀ m ∈ offsets, m ≤ n) : latest offsets ≤ n := by
  induction offsets with
  | nil => exact Nat.zero_le n
  | cons m offsets ih =>
      obtain ⟨hm, hothers⟩ := List.forall_mem_cons.mp h
      exact Nat.max_le.mpr ⟨hm, ih hothers⟩

theorem le_latest {offsets : List Nat} {n : Nat} (h : n ∈ offsets) : n ≤ latest offsets := by
  induction offsets with
  | nil => cases h
  | cons m offsets ih =>
      rcases List.mem_cons.mp h with rfl | h
      · exact Nat.le_max_left _ _
      · exact Nat.le_trans (ih h) (Nat.le_max_right _ _)

theorem latest_eq_of_mem {offsets : List Nat} {n : Nat} (hmem : n ∈ offsets)
    (hle : ∀ m ∈ offsets, m ≤ n) : latest offsets = n :=
  Nat.le_antisymm (latest_le hle) (le_latest hmem)

/-- The blanks among the characters that belong to no line break token and
start a line in this mode. -/
def lineBlanks (mode : LineTracking) (chars : List (Nat × Char)) (breaks : List Token) :
    List (Nat × Char) :=
  match mode with
  | .lineBreak => []
  | .whitespace => chars.filter fun x => isBlank x.2 && !breaks.any (·.covers x.1)

/-- Where the last line starts: at the start of the text, behind a line break
token or behind a blank. -/
def lineStart (mode : LineTracking) (chars : List (Nat × Char)) (breaks : List Token) : Nat :=
  latest (breaks.map Token.endOffset ++
    (lineBlanks mode chars breaks).map fun x => x.1 + x.2.utf8Size)

/-- The line behind the characters, where `breaks` are the line break tokens among them. -/
def countedLine (mode : LineTracking) (chars : List (Nat × Char)) (breaks : List Token) : Nat :=
  breaks.length + (lineBlanks mode chars breaks).length

/-- The column behind the characters: how many stand on the last line. -/
def countedColumn (mode : LineTracking) (chars : List (Nat × Char)) (breaks : List Token) : Nat :=
  (chars.filter fun x => lineStart mode chars breaks ≤ x.1).length

/-- The position at an offset of the text, counted from the characters and the
line break tokens before it. -/
def countedPosition (mode : LineTracking) (source : List Char) (tokens : List Token)
    (offset : Nat) : Position :=
  let chars := (located 0 source).filter fun x => x.1 < offset
  let breaks := tokens.filter fun t => t.kind = .lineBreak && t.position.offset < offset
  { offset, line := countedLine mode chars breaks, column := countedColumn mode chars breaks }

/-! ## Reading -/

theorem LineTracking.breaksAt_lineBreak (c : Char) : lineBreak.breaksAt c = false := rfl

theorem LineTracking.breaksAt_whitespace (c : Char) : whitespace.breaksAt c = isBlank c := rfl

theorem Position.line_advanceOver (mode : LineTracking) (p : Position) (cs : List Char) :
    (p.advanceOver mode cs).line = p.line + cs.countP mode.breaksAt := by
  induction cs generalizing p with
  | nil => rfl
  | cons c cs ih =>
      rw [advanceOver_cons, ih, advance, List.countP_cons]
      by_cases hbreak : mode.breaksAt c = true
      · rw [if_pos hbreak, if_pos hbreak]
        show p.line + 1 + cs.countP mode.breaksAt = p.line + (cs.countP mode.breaksAt + 1)
        omega
      · rw [if_neg hbreak, if_neg hbreak]
        rfl

/-- Reading from position `p` over the characters `cs`, among which stand the
line break tokens `ts`, leads to a position. -/
inductive Journey (mode : LineTracking) (p : Position) :
    List Char → List Token → Position → Prop
  | nil : Journey mode p [] [] p
  | char {cs : List Char} {ts : List Token} {q : Position} (c : Char)
      (h : Journey mode p cs ts q) : Journey mode p (cs ++ [c]) ts (q.advance mode c)
  | lineBreak {cs : List Char} {ts : List Token} {q : Position} {t : Token}
      (h : Journey mode p cs ts q) (hkind : t.kind = .lineBreak) (hposition : t.position = q)
      (hne : t.lexeme.spelling ≠ []) :
      Journey mode p (cs ++ t.lexeme.spelling) (ts ++ [t])
        ((q.advanceOver mode t.lexeme.spelling).startLineAfter q.line)

namespace Journey

variable {mode : LineTracking} {p q r : Position} {cs ds : List Char} {ts us : List Token}

theorem advanceOver (h : Journey mode p cs ts q) (ds : List Char) :
    Journey mode p (cs ++ ds) ts (q.advanceOver mode ds) := by
  induction ds generalizing cs q with
  | nil =>
      rw [List.append_nil]
      exact h
  | cons d ds ih =>
      rw [List.append_cons]
      exact ih (h.char d)

theorem trans (h : Journey mode p cs ts q) (h' : Journey mode q ds us r) :
    Journey mode p (cs ++ ds) (ts ++ us) r := by
  induction h' with
  | nil =>
      rw [List.append_nil, List.append_nil]
      exact h
  | char c _ ih =>
      rw [← List.append_assoc]
      exact ih.char c
  | lineBreak _ hkind hposition hne ih =>
      rw [← List.append_assoc, ← List.append_assoc]
      exact ih.lineBreak hkind hposition hne

theorem offset_eq (h : Journey mode p cs ts q) : q.offset = p.offset + Text.utf8Length cs := by
  induction h with
  | nil => rfl
  | char c _ ih =>
      rw [Position.offset_advance, ih, Text.utf8Length_append, Nat.add_assoc]
      rfl
  | lineBreak _ _ _ _ ih =>
      rw [Position.offset_startLineAfter, Position.offset_advanceOver, ih, Text.utf8Length_append,
        Nat.add_assoc]

/-- The line break tokens stand between both ends. -/
theorem bounds_of_mem (h : Journey mode p cs ts q) {t : Token} (ht : t ∈ ts) :
    t.kind = .lineBreak ∧ p.offset ≤ t.position.offset ∧ t.position.offset < t.endOffset ∧
      t.endOffset ≤ q.offset := by
  induction h with
  | nil => cases ht
  | char c _ ih =>
      obtain ⟨hkind, hle, hlt, hend⟩ := ih ht
      refine ⟨hkind, hle, hlt, ?_⟩
      rw [Position.offset_advance]
      omega
  | @lineBreak cs ts q u h hkind hposition hne ih =>
      rw [Position.offset_startLineAfter, Position.offset_advanceOver]
      rcases List.mem_append.mp ht with ht | ht
      · obtain ⟨hkind, hle, hlt, hend⟩ := ih ht
        exact ⟨hkind, hle, hlt, by omega⟩
      · rw [List.mem_singleton.mp ht]
        have hoffset := h.offset_eq
        have hlength := Text.length_le_utf8Length u.lexeme.spelling
        have hpos := List.length_pos_iff.mpr hne
        rw [Token.endOffset, hposition]
        exact ⟨hkind, by omega, by omega, Nat.le_refl _⟩

theorem eq_of_nil (h : Journey mode p cs ts q) (hcs : cs = []) : p = q := by
  cases h with
  | nil => rfl
  | char c _ => simp at hcs
  | lineBreak _ _ _ hne => exact absurd (List.append_eq_nil_iff.mp hcs).2 hne

/-- Reading goes on along the line or leads to a later one. -/
theorem line_lt_or_column_eq (h : Journey mode p cs ts q) :
    p.line < q.line ∨ p.line = q.line ∧ q.column = p.column + cs.length := by
  induction h with
  | nil => exact .inr ⟨rfl, rfl⟩
  | @char cs ts q c _ ih =>
      rw [Position.advance]
      by_cases hbreak : mode.breaksAt c = true
      · rw [if_pos hbreak]
        left
        show p.line < q.line + 1
        omega
      · rw [if_neg hbreak, List.length_append, List.length_singleton]
        rcases ih with hlt | ⟨hline, hcolumn⟩
        · exact .inl hlt
        · refine .inr ⟨hline, ?_⟩
          show q.column + 1 = p.column + (cs.length + 1)
          omega
  | @lineBreak cs ts q t _ _ _ _ ih =>
      left
      show p.line < q.line + 1
      omega

/-- A line or a column more takes a character at least. -/
theorem line_add_column_le (h : Journey mode p cs ts q) :
    q.line + q.column ≤ p.line + p.column + cs.length := by
  induction h with
  | nil => exact Nat.le_refl _
  | @char cs ts q c _ ih =>
      rw [Position.advance, List.length_append, List.length_singleton]
      by_cases hbreak : mode.breaksAt c = true
      · rw [if_pos hbreak]
        show q.line + 1 + 0 ≤ _
        omega
      · rw [if_neg hbreak]
        show q.line + (q.column + 1) ≤ _
        omega
  | @lineBreak cs ts q t _ _ _ hne ih =>
      have hpos := List.length_pos_iff.mpr hne
      rw [List.length_append]
      show q.line + 1 + 0 ≤ _
      omega

/-- Reading stands still or leads to a greater offset, and there to a later
column of the line or to a later line. -/
theorem eq_or_lt (h : Journey mode p cs ts q) :
    p = q ∨ p.offset < q.offset ∧ (p.line < q.line ∨ p.line = q.line ∧ p.column < q.column) := by
  have hoffset := h.offset_eq
  have hlength := Text.length_le_utf8Length cs
  rcases cs with _ | ⟨c, cs⟩
  · exact .inl (h.eq_of_nil rfl)
  · rw [List.length_cons] at hlength
    refine .inr ⟨by omega, ?_⟩
    rcases h.line_lt_or_column_eq with hline | ⟨hline, hcolumn⟩
    · exact .inl hline
    · rw [List.length_cons] at hcolumn
      exact .inr ⟨hline, by omega⟩

end Journey

/-! ## Counting what was read -/

theorem Token.covers_eq_false_of_endOffset_le {t : Token} {n : Nat} (h : t.endOffset ≤ n) :
    t.covers n = false := by
  rw [covers, Bool.and_eq_false_iff]
  exact .inr (decide_eq_false (Nat.not_lt.mpr h))

theorem Token.covers_eq_false_of_lt {t : Token} {n : Nat} (h : n < t.position.offset) :
    t.covers n = false := by
  rw [covers, Bool.and_eq_false_iff]
  exact .inl (decide_eq_false (Nat.not_le.mpr h))

theorem mem_of_mem_lineBlanks {mode : LineTracking} {chars : List (Nat × Char)}
    {breaks : List Token} {x : Nat × Char} (h : x ∈ lineBlanks mode chars breaks) : x ∈ chars := by
  cases mode with
  | lineBreak => cases h
  | whitespace => exact (List.mem_filter.mp h).1

/-- The characters and the line break tokens end before the offset. -/
structure EndBefore (n : Nat) (chars : List (Nat × Char)) (breaks : List Token) : Prop where
  chars : ∀ x ∈ chars, x.1 + x.2.utf8Size ≤ n
  breaks : ∀ t ∈ breaks, t.endOffset ≤ n

namespace EndBefore

variable {mode : LineTracking} {n : Nat} {chars : List (Nat × Char)} {breaks : List Token}

theorem of_journey {cs : List Char} {q : Position} (h : Journey mode {} cs breaks q) :
    EndBefore q.offset (located 0 cs) breaks := by
  constructor
  · intro x hx
    rw [h.offset_eq]
    exact (bounds_of_mem_located hx).2
  · intro t ht
    exact (h.bounds_of_mem ht).2.2.2

theorem lineStart_le (h : EndBefore n chars breaks) : lineStart mode chars breaks ≤ n := by
  apply latest_le
  intro m hm
  rcases List.mem_append.mp hm with hm | hm
  · obtain ⟨t, ht, rfl⟩ := List.mem_map.mp hm
    exact h.breaks t ht
  · obtain ⟨x, hx, rfl⟩ := List.mem_map.mp hm
    exact h.chars x (mem_of_mem_lineBlanks hx)

/-- If a line starts behind everything, its first column is reached. -/
theorem countedColumn_eq_zero (h : EndBefore n chars breaks)
    (hstart : lineStart mode chars breaks = n) : countedColumn mode chars breaks = 0 := by
  rw [countedColumn, hstart, List.length_eq_zero_iff, List.filter_eq_nil_iff]
  intro x hx
  have hle := h.chars x hx
  have hpos := x.2.utf8Size_pos
  simp only [decide_eq_true_eq]
  omega

/-! ### One more character -/

theorem lineBlanks_append_singleton (h : EndBefore n chars breaks) (c : Char) :
    lineBlanks mode (chars ++ [(n, c)]) breaks =
      lineBlanks mode chars breaks ++ if mode.breaksAt c then [(n, c)] else [] := by
  have hfree : breaks.any (·.covers n) = false := by
    rw [List.any_eq_false]
    intro t ht
    rw [Token.covers_eq_false_of_endOffset_le (h.breaks t ht)]
    decide
  cases mode with
  | lineBreak => rfl
  | whitespace =>
      simp only [lineBlanks, List.filter_append, LineTracking.breaksAt]
      by_cases hblank : isBlank c = true
      · simp [hblank, hfree]
      · simp [hblank]

theorem append_singleton (h : EndBefore n chars breaks) (c : Char) :
    EndBefore (n + c.utf8Size) (chars ++ [(n, c)]) breaks := by
  constructor
  · intro x hx
    rcases List.mem_append.mp hx with hx | hx
    · exact Nat.le_trans (h.chars x hx) (Nat.le_add_right _ _)
    · obtain rfl := List.mem_singleton.mp hx
      exact Nat.le_refl _
  · intro t ht
    exact Nat.le_trans (h.breaks t ht) (Nat.le_add_right _ _)

theorem countedLine_append_singleton (h : EndBefore n chars breaks) (c : Char) :
    countedLine mode (chars ++ [(n, c)]) breaks =
      countedLine mode chars breaks + if mode.breaksAt c then 1 else 0 := by
  rw [countedLine, countedLine, h.lineBlanks_append_singleton]
  by_cases hbreak : mode.breaksAt c = true
  · simp [hbreak, Nat.add_assoc]
  · simp [hbreak]

theorem countedColumn_append_singleton (h : EndBefore n chars breaks) (c : Char) :
    countedColumn mode (chars ++ [(n, c)]) breaks =
      if mode.breaksAt c then 0 else countedColumn mode chars breaks + 1 := by
  by_cases hbreak : mode.breaksAt c = true
  · rw [if_pos hbreak]
    apply (h.append_singleton c).countedColumn_eq_zero
    apply latest_eq_of_mem
    · rw [h.lineBlanks_append_singleton, if_pos hbreak]
      simp
    · intro m hm
      exact Nat.le_trans (le_latest hm) (h.append_singleton c).lineStart_le
  · rw [if_neg hbreak]
    have hsame : lineStart mode (chars ++ [(n, c)]) breaks = lineStart mode chars breaks := by
      rw [lineStart, h.lineBlanks_append_singleton, if_neg hbreak, List.append_nil]
      rfl
    have hle : lineStart mode chars breaks ≤ n := h.lineStart_le
    simp [countedColumn, hsame, hle]

/-! ### One more line break token -/

theorem lineBlanks_append_lineBreak (h : EndBefore n chars breaks) {t : Token}
    (ht : t.position.offset = n) :
    lineBlanks mode (chars ++ located n t.lexeme.spelling) (breaks ++ [t]) =
      lineBlanks mode chars breaks := by
  cases mode with
  | lineBreak => rfl
  | whitespace =>
      -- The token covers its own characters and none of those before it.
      have hbefore : ∀ x ∈ chars, t.covers x.1 = false := by
        intro x hx
        have hle := h.chars x hx
        have hpos := x.2.utf8Size_pos
        apply Token.covers_eq_false_of_lt
        omega
      have hinside : ∀ x ∈ located n t.lexeme.spelling, t.covers x.1 = true := by
        intro x hx
        have hbounds := bounds_of_mem_located hx
        have hpos := x.2.utf8Size_pos
        rw [Token.covers, Token.endOffset, ht, Bool.and_eq_true, decide_eq_true_eq,
          decide_eq_true_eq]
        omega
      have hnone : (located n t.lexeme.spelling).filter
          (fun x => isBlank x.2 && !(breaks ++ [t]).any (·.covers x.1)) = [] := by
        rw [List.filter_eq_nil_iff]
        intro x hx
        simp [hinside x hx]
      rw [lineBlanks, List.filter_append, hnone, List.append_nil]
      apply List.filter_congr
      intro x hx
      simp [hbefore x hx]

theorem append_lineBreak (h : EndBefore n chars breaks) {t : Token} (ht : t.position.offset = n) :
    EndBefore t.endOffset (chars ++ located n t.lexeme.spelling) (breaks ++ [t]) := by
  have hle : n ≤ t.endOffset := by
    rw [Token.endOffset, ht]
    exact Nat.le_add_right _ _
  constructor
  · intro x hx
    rcases List.mem_append.mp hx with hx | hx
    · exact Nat.le_trans (h.chars x hx) hle
    · rw [Token.endOffset, ht]
      exact (bounds_of_mem_located hx).2
  · intro u hu
    rcases List.mem_append.mp hu with hu | hu
    · exact Nat.le_trans (h.breaks u hu) hle
    · obtain rfl := List.mem_singleton.mp hu
      exact Nat.le_refl _

theorem countedLine_append_lineBreak (h : EndBefore n chars breaks) {t : Token}
    (ht : t.position.offset = n) :
    countedLine mode (chars ++ located n t.lexeme.spelling) (breaks ++ [t]) =
      countedLine mode chars breaks + 1 := by
  rw [countedLine, h.lineBlanks_append_lineBreak ht, countedLine, List.length_append,
    List.length_singleton, Nat.add_right_comm]

theorem countedColumn_append_lineBreak (h : EndBefore n chars breaks) {t : Token}
    (ht : t.position.offset = n) :
    countedColumn mode (chars ++ located n t.lexeme.spelling) (breaks ++ [t]) = 0 := by
  apply (h.append_lineBreak ht).countedColumn_eq_zero
  apply latest_eq_of_mem
  · simp
  · intro m hm
    exact Nat.le_trans (le_latest hm) (h.append_lineBreak ht).lineStart_le

end EndBefore

/-! ## Both agree -/

namespace Journey

variable {mode : LineTracking} {q : Position} {cs : List Char} {ts : List Token}

theorem line_eq_and_column_eq (h : Journey mode {} cs ts q) :
    q.line = countedLine mode (located 0 cs) ts ∧
      q.column = countedColumn mode (located 0 cs) ts := by
  induction h with
  | nil => cases mode <;> exact ⟨rfl, rfl⟩
  | @char cs ts q c h ih =>
      obtain ⟨hline, hcolumn⟩ := ih
      have hbefore := EndBefore.of_journey h
      have hlocated : located 0 (cs ++ [c]) = located 0 cs ++ [(q.offset, c)] := by
        rw [located_append, h.offset_eq]
        rfl
      -- The position and the count distinguish the same characters.
      rw [hlocated, hbefore.countedLine_append_singleton, hbefore.countedColumn_append_singleton,
        ← hline, ← hcolumn, Position.advance]
      by_cases hbreak : mode.breaksAt c = true
      · simp [hbreak]
      · simp [hbreak]
  | @lineBreak cs ts q t h hkind hposition hne ih =>
      obtain ⟨hline, hcolumn⟩ := ih
      have hbefore := EndBefore.of_journey h
      have hoffset : t.position.offset = q.offset := by rw [hposition]
      have hlocated : located 0 (cs ++ t.lexeme.spelling) =
          located 0 cs ++ located q.offset t.lexeme.spelling := by
        rw [located_append, h.offset_eq]
      rw [hlocated, hbefore.countedLine_append_lineBreak hoffset,
        hbefore.countedColumn_append_lineBreak hoffset, ← hline]
      exact ⟨rfl, rfl⟩

end Journey

/-- The characters before the end of the first part are its characters. -/
theorem filter_located_append (cs rest : List Char) :
    (located 0 (cs ++ rest)).filter (fun x => x.1 < Text.utf8Length cs) = located 0 cs := by
  have hfront : (located 0 cs).filter (fun x => x.1 < Text.utf8Length cs) = located 0 cs := by
    rw [List.filter_eq_self]
    intro x hx
    have hbounds := bounds_of_mem_located hx
    have hpos := x.2.utf8Size_pos
    exact decide_eq_true (by omega)
  have hback : (located (0 + Text.utf8Length cs) rest).filter
      (fun x => x.1 < Text.utf8Length cs) = [] := by
    rw [List.filter_eq_nil_iff]
    intro x hx
    have hbounds := bounds_of_mem_located hx
    rw [decide_eq_true_eq]
    omega
  rw [located_append, List.filter_append, hfront, hback, List.append_nil]

namespace Journey

variable {mode : LineTracking} {q : Position} {cs : List Char} {ts : List Token}

/-- The line break tokens before the end of a journey are those on the way. -/
theorem filter_lineBreaks (h : Journey mode {} cs ts q) {tokens us : List Token}
    (htokens : tokens.filter (·.kind = .lineBreak) = ts ++ us)
    (hus : ∀ u ∈ us, q.offset ≤ u.position.offset) :
    tokens.filter (fun t => t.kind = .lineBreak && t.position.offset < q.offset) = ts := by
  have hfront : ts.filter (fun t => t.position.offset < q.offset) = ts := by
    rw [List.filter_eq_self]
    intro t ht
    obtain ⟨-, -, hlt, hle⟩ := h.bounds_of_mem ht
    exact decide_eq_true (Nat.lt_of_lt_of_le hlt hle)
  have hback : us.filter (fun t => t.position.offset < q.offset) = [] := by
    rw [List.filter_eq_nil_iff]
    intro u hu
    rw [decide_eq_true_eq]
    exact Nat.not_lt.mpr (hus u hu)
  calc tokens.filter (fun t => t.kind = .lineBreak && t.position.offset < q.offset)
      = (tokens.filter (·.kind = .lineBreak)).filter (fun t => t.position.offset < q.offset) := by
        rw [List.filter_filter]
        apply List.filter_congr
        intro t _
        exact Bool.and_comm _ _
    _ = ts := by rw [htokens, List.filter_append, hfront, hback, List.append_nil]

/-- What is read later, and what is delivered later, does not count. -/
theorem eq_countedPosition (h : Journey mode {} cs ts q) {rest : List Char}
    {tokens us : List Token} (htokens : tokens.filter (·.kind = .lineBreak) = ts ++ us)
    (hus : ∀ u ∈ us, q.offset ≤ u.position.offset) :
    q = countedPosition mode (cs ++ rest) tokens q.offset := by
  have hoffset : q.offset = Text.utf8Length cs := h.offset_eq.trans (Nat.zero_add _)
  have hbreaks := h.filter_lineBreaks htokens hus
  have hchars := filter_located_append cs rest
  rw [← hoffset] at hchars
  obtain ⟨hline, hcolumn⟩ := h.line_eq_and_column_eq
  simp only [countedPosition, hchars, hbreaks, ← hline, ← hcolumn]

end Journey

end Lexing
