import Lexing.Proofs.Checked

/-!
# Readers on their way through a text

Readers of one text look ahead, read, start lines, are kept and come back to.
Whatever they do, each stands between two characters of the text: what it has
left to read is the text from its offset on. So looking ahead shows what reading
would give, and the text between the offsets of two readers is what was read
from the one to the other.
-/

namespace Lexing

namespace Text

/-! ## Slices -/

/-- The offset lies behind the first byte of a character and before the next character. -/
def InsideChar (cs : List Char) (n : Nat) : Prop :=
  ∃ front c back, cs = front ++ c :: back ∧ utf8Length front < n ∧ n < utf8Length front + c.utf8Size

theorem insideChar_cons_iff {c : Char} {cs : List Char} {n : Nat} (h : c.utf8Size ≤ n) :
    InsideChar (c :: cs) n ↔ InsideChar cs (n - c.utf8Size) := by
  constructor
  · rintro ⟨front, d, back, hsplit, hlt, hend⟩
    cases front with
    | nil =>
        obtain ⟨rfl, -⟩ := List.cons.inj hsplit
        rw [utf8Length_nil] at hend
        omega
    | cons e front =>
        obtain ⟨rfl, hrest⟩ := List.cons.inj hsplit
        rw [utf8Length_cons] at hlt hend
        exact ⟨front, d, back, hrest, by omega, by omega⟩
  · rintro ⟨front, d, back, rfl, hlt, hend⟩
    refine ⟨c :: front, d, back, rfl, ?_, ?_⟩ <;> rw [utf8Length_cons] <;> omega

theorem splitAtByte?_eq_none_iff {cs : List Char} {n : Nat} :
    splitAtByte? cs n = none ↔ utf8Length cs < n ∨ InsideChar cs n := by
  fun_induction splitAtByte? cs n with
  | case1 cs => simp [InsideChar]
  | case2 n => simp
  | case3 c cs n hfit ih =>
      have hlong : utf8Length cs < n + 1 - c.utf8Size ↔ c.utf8Size + utf8Length cs < n + 1 := by
        omega
      rw [Option.map_eq_none_iff, ih, insideChar_cons_iff hfit, utf8Length_cons, hlong]
  | case4 c cs n hfit =>
      simp only [true_iff]
      exact .inr ⟨[], c, cs, rfl, by simp, by simpa using hfit⟩

/-- Dividing a text later is dividing what stands behind its front. -/
theorem splitAtByte?_append_add (front later : List Char) (k : Nat) :
    splitAtByte? (front ++ later) (utf8Length front + k) =
      (splitAtByte? later k).map fun (middle, back) => (front ++ middle, back) := by
  cases hlater : splitAtByte? later k with
  | some split =>
      obtain ⟨middle, back⟩ := split
      obtain ⟨rfl, rfl⟩ := eq_append_of_splitAtByte? hlater
      rw [← utf8Length_append, ← List.append_assoc, splitAtByte?_append]
      rfl
  | none =>
      rw [Option.map_none, splitAtByte?_eq_none_iff, utf8Length_append]
      rcases splitAtByte?_eq_none_iff.mp hlater with hlong | ⟨inner, c, back, rfl, hlt, hend⟩
      · exact .inl (by omega)
      · refine .inr ⟨front ++ inner, c, back, (List.append_assoc ..).symm, ?_, ?_⟩ <;>
          rw [utf8Length_append] <;> omega

/-- A slice is what stands between its two ends. -/
theorem slice?_eq_some_iff {cs middle : List Char} {start stop : Nat} :
    slice? cs start stop = some middle ↔
      ∃ front back, cs = front ++ (middle ++ back) ∧ utf8Length front = start ∧
        stop = start + utf8Length middle := by
  constructor
  · intro h
    rw [slice?] at h
    split at h
    · next hle =>
        simp only [Option.bind_eq_bind, Option.bind_eq_some_iff, Prod.exists, Option.pure_def,
          Option.some.injEq] at h
        obtain ⟨front, later, hfront, middle', back, hmiddle, rfl⟩ := h
        obtain ⟨rfl, rfl⟩ := eq_append_of_splitAtByte? hfront
        obtain ⟨rfl, hlength⟩ := eq_append_of_splitAtByte? hmiddle
        exact ⟨front, back, rfl, rfl, by omega⟩
    · cases h
  · rintro ⟨front, back, rfl, rfl, rfl⟩
    exact slice?_append front middle back

/-- A slice fails where the text cannot be divided at one of its ends. -/
theorem slice?_eq_none_iff_splitAtByte? {cs : List Char} {start stop : Nat} :
    slice? cs start stop = none ↔
      stop < start ∨ splitAtByte? cs start = none ∨ splitAtByte? cs stop = none := by
  by_cases hle : start ≤ stop
  · obtain ⟨k, rfl⟩ := Nat.exists_eq_add_of_le hle
    rw [slice?, if_pos hle, Nat.add_sub_cancel_left]
    cases hsplit : splitAtByte? cs start with
    | none => simp
    | some split =>
        obtain ⟨front, later⟩ := split
        obtain ⟨rfl, rfl⟩ := eq_append_of_splitAtByte? hsplit
        rw [splitAtByte?_append_add]
        cases hlater : splitAtByte? later k <;> simp [hlater]
  · rw [slice?, if_neg hle]
    exact iff_of_true rfl (.inl (Nat.not_le.mp hle))

theorem slice?_eq_none_iff {cs : List Char} {start stop : Nat} :
    slice? cs start stop = none ↔
      stop < start ∨ utf8Length cs < stop ∨ InsideChar cs start ∨ InsideChar cs stop := by
  rw [slice?_eq_none_iff_splitAtByte?, splitAtByte?_eq_none_iff, splitAtByte?_eq_none_iff]
  -- A start past the end of the text is behind the stop, or the stop is past the end too.
  have hpast : utf8Length cs < start → stop < start ∨ utf8Length cs < stop := by omega
  grind

/-- Slices that meet make one slice. -/
theorem slice?_trans {cs ds es : List Char} {a b c : Nat} (h : slice? cs a b = some ds)
    (h' : slice? cs b c = some es) : slice? cs a c = some (ds ++ es) := by
  obtain ⟨front, back, hcs, rfl, rfl⟩ := slice?_eq_some_iff.mp h
  obtain ⟨front', back', hcs', hfront', rfl⟩ := slice?_eq_some_iff.mp h'
  rw [← utf8Length_append] at hfront'
  rw [hcs, ← List.append_assoc] at hcs'
  obtain ⟨rfl, rfl⟩ := append_inj_of_utf8Length_eq hcs' hfront'.symm
  refine slice?_eq_some_iff.mpr ⟨front, back', ?_, rfl, ?_⟩
  · rw [hcs, List.append_assoc]
  · rw [utf8Length_append, Nat.add_assoc]

/-- Of two ways to divide a text, the later one has the earlier front before it. -/
theorem exists_append_of_utf8Length_le {front front' back back' : List Char}
    (h : front ++ back = front' ++ back') (hle : utf8Length front ≤ utf8Length front') :
    ∃ middle, front' = front ++ middle ∧ back = middle ++ back' := by
  rcases List.append_eq_append_iff.mp h with hlater | ⟨middle, rfl, rfl⟩
  · exact hlater
  · rw [utf8Length_append] at hle
    have hempty : middle = [] := by
      have := length_le_utf8Length middle
      exact List.eq_nil_of_length_eq_zero (by omega)
    subst hempty
    exact ⟨[], by simp, by simp⟩

end Text

/-! ## Runs -/

/-- The longest front of the text whose characters all satisfy `p`. -/
structure IsLongestRun (p : Char → Bool) (cs run : List Char) : Prop where
  isFront : run <+: cs
  satisfied : ∀ c ∈ run, p c = true
  longest : ∀ front, front <+: cs → (∀ c ∈ front, p c = true) → front.length ≤ run.length

theorem isLongestRun_takeWhile (p : Char → Bool) (cs : List Char) :
    IsLongestRun p cs (cs.takeWhile p) where
  isFront := List.takeWhile_prefix p
  satisfied _ hc := List.all_eq_true.mp List.all_takeWhile _ hc
  longest := by
    rintro front ⟨back, rfl⟩ hfront
    rw [List.takeWhile_append_of_pos hfront, List.length_append]
    exact Nat.le_add_right ..

namespace Reader

/-! ## Reading on -/

/-- The reader after its next character; at the end of the text it stays. -/
def afterNext (r : Reader) : Reader :=
  match r.next? with
  | none => r
  | some (_, r') => r'

/-- The reader after so many more characters, each read by itself. -/
def afterNexts (r : Reader) : Nat → Reader
  | 0 => r
  | n + 1 => r.afterNext.afterNexts n

theorem afterNext_eq_skip (r : Reader) : r.afterNext = r.skip 1 := by
  obtain ⟨rest, position, tracking⟩ := r
  cases rest <;> rfl

theorem afterNexts_eq_skip (r : Reader) (n : Nat) : r.afterNexts n = r.skip n := by
  induction n generalizing r with
  | zero => rw [afterNexts, skip_zero]
  | succ n ih => rw [afterNexts, ih, afterNext_eq_skip, ← skip_add, Nat.add_comm]

/-- Looking ahead shows what a later call reads. -/
theorem peekNth?_eq_next? (r : Reader) (n : Nat) :
    r.peekNth? n = (r.afterNexts n).next?.map Prod.fst := by
  rw [afterNexts_eq_skip, next?_eq, peekNth?, peek?, rest_skip, List.head?_drop]
  cases r.rest[n]? <;> rfl

theorem takeWhile_eq_afterNexts (r : Reader) (p : Char → Bool) :
    (r.takeWhile p).2 = r.afterNexts (r.takeWhile p).1.length :=
  (afterNexts_eq_skip ..).symm

/-! ## Moves -/

/-- What a reader does with the text before it, or with the line it counts. -/
inductive Move where
  | peek
  | peekNth (n : Nat)
  | next
  | takeWhile (p : Char → Bool)
  | startLineAfter (line : Nat)

/-- The characters that a move reads, and the reader after it. -/
def move (r : Reader) : Move → List Char × Reader
  | .peek | .peekNth _ => ([], r)
  | .next =>
      match r.next? with
      | none => ([], r)
      | some (c, r') => ([c], r')
  | .takeWhile p => r.takeWhile p
  | .startLineAfter line => ([], r.startLineAfter line)

/-- The characters that the moves read, and the reader after them. -/
def moves (r : Reader) : List Move → List Char × Reader
  | [] => ([], r)
  | m :: ms =>
      let others := (r.move m).2.moves ms
      ((r.move m).1 ++ others.1, others.2)

/-- The second reader stands where the characters have been read from the
first. Its line may be any, for a line can be started with any number. -/
structure Reads (r : Reader) (cs : List Char) (r' : Reader) : Prop where
  rest_eq : r.rest = cs ++ r'.rest
  offset_eq : r'.position.offset = r.position.offset + Text.utf8Length cs
  column_le : r'.position.column ≤ r.position.column + cs.length

theorem Reads.refl (r : Reader) : r.Reads [] r := ⟨rfl, rfl, Nat.le_refl _⟩

theorem Reads.trans {r r' r'' : Reader} {cs ds : List Char} (h : r.Reads cs r')
    (h' : r'.Reads ds r'') : r.Reads (cs ++ ds) r'' where
  rest_eq := by rw [h.rest_eq, h'.rest_eq, List.append_assoc]
  offset_eq := by rw [h'.offset_eq, h.offset_eq, Text.utf8Length_append, Nat.add_assoc]
  column_le := by
    have := h.column_le
    have := h'.column_le
    rw [List.length_append]
    omega

theorem column_advanceOver_le (mode : LineTracking) (p : Position) (cs : List Char) :
    (p.advanceOver mode cs).column ≤ p.column + cs.length := by
  induction cs generalizing p with
  | nil => exact Nat.le_refl _
  | cons c cs ih =>
      have hstep : (p.advance mode c).column ≤ p.column + 1 := by
        rw [Position.advance]
        split
        · exact Nat.zero_le _
        · exact Nat.le_refl _
      have hothers := ih (p.advance mode c)
      rw [Position.advanceOver_cons, List.length_cons]
      omega

theorem reads_past {r : Reader} {cs rest : List Char} (h : r.rest = cs ++ rest) :
    r.Reads cs (r.past cs rest) where
  rest_eq := h
  offset_eq := Position.offset_advanceOver ..
  column_le := column_advanceOver_le ..

theorem reads_startLineAfter (r : Reader) (line : Nat) : r.Reads [] (r.startLineAfter line) :=
  ⟨rfl, rfl, Nat.zero_le _⟩

theorem reads_move (r : Reader) (m : Move) : r.Reads (r.move m).1 (r.move m).2 := by
  cases m with
  | peek => exact Reads.refl r
  | peekNth n => exact Reads.refl r
  | next =>
      rw [move, next?_eq]
      cases hrest : r.rest with
      | nil =>
          rw [peek?, hrest]
          exact Reads.refl r
      | cons c rest =>
          rw [peek?, hrest, skip_one_eq_past hrest]
          exact reads_past hrest
  | takeWhile p =>
      rw [move, takeWhile_eq]
      exact reads_past List.takeWhile_append_dropWhile.symm
  | startLineAfter line => exact reads_startLineAfter r line

theorem reads_moves (r : Reader) (ms : List Move) : r.Reads (r.moves ms).1 (r.moves ms).2 := by
  induction ms generalizing r with
  | nil => exact Reads.refl r
  | cons m ms ih => exact (reads_move r m).trans (ih _)

/-! ## Standing in a text -/

/-- The reader has the text from its offset on before it. -/
def StandsIn (source : List Char) (r : Reader) : Prop :=
  ∃ front, source = front ++ r.rest ∧ r.position.offset = Text.utf8Length front ∧
    r.position.column ≤ front.length

namespace StandsIn

variable {source : List Char} {r r' : Reader}

theorem of_reads {cs : List Char} (hr : r.StandsIn source) (h : r.Reads cs r') :
    r'.StandsIn source := by
  obtain ⟨front, hsource, hoffset, hcolumn⟩ := hr
  refine ⟨front ++ cs, ?_, ?_, ?_⟩
  · rw [hsource, h.rest_eq, List.append_assoc]
  · rw [h.offset_eq, hoffset, Text.utf8Length_append]
  · have := h.column_le
    rw [List.length_append]
    omega

/-- The text between two offsets is what is read from the one to the other. -/
theorem slice?_of_reads {cs : List Char} (hr : r.StandsIn source) (h : r.Reads cs r') :
    Text.slice? source r.position.offset r'.position.offset = some cs := by
  obtain ⟨front, hsource, hoffset, -⟩ := hr
  rw [Text.slice?_eq_some_iff]
  exact ⟨front, r'.rest, by rw [hsource, h.rest_eq], hoffset.symm, h.offset_eq⟩

theorem exists_slice? (hr : r.StandsIn source) (hr' : r'.StandsIn source)
    (hle : r.position.offset ≤ r'.position.offset) :
    ∃ cs, Text.slice? source r.position.offset r'.position.offset = some cs := by
  obtain ⟨front, hsource, hoffset, -⟩ := hr
  obtain ⟨front', hsource', hoffset', -⟩ := hr'
  rw [hoffset, hoffset'] at hle ⊢
  obtain ⟨middle, rfl, hrest⟩ :=
    Text.exists_append_of_utf8Length_le (hsource.symm.trans hsource') hle
  refine ⟨middle, Text.slice?_eq_some_iff.mpr ⟨front, r'.rest, ?_, rfl, ?_⟩⟩
  · rw [hsource, hrest]
  · rw [Text.utf8Length_append]

theorem offset_add_utf8Length_rest (hr : r.StandsIn source) :
    r.position.offset + Text.utf8Length r.rest = Text.utf8Length source := by
  obtain ⟨front, hsource, hoffset, -⟩ := hr
  rw [hsource, hoffset, Text.utf8Length_append]

theorem column_le_offset (hr : r.StandsIn source) : r.position.column ≤ r.position.offset := by
  obtain ⟨front, -, hoffset, hcolumn⟩ := hr
  have := Text.length_le_utf8Length front
  omega

end StandsIn

/-! ## Coherence -/

/-- Looking ahead, reading on and slicing agree at the reader. -/
structure Coherent (source : List Char) (r : Reader) : Prop where
  rest : Text.slice? source r.position.offset (Text.utf8Length source) = some r.rest
  peek : r.peek? = r.peekNth? 0
  peekNth : ∀ n, r.peekNth? n = (r.afterNexts n).next?.map Prod.fst
  takeWhile : ∀ p, IsLongestRun p r.rest (r.takeWhile p).1 ∧
    (r.takeWhile p).2 = r.afterNexts (r.takeWhile p).1.length
  /-- Only at the end of the text does reading on change nothing. -/
  atEnd : r.move .next = ([], r) ↔ r.position.offset = Text.utf8Length source
  /-- Slicing gives what any moves from here have read. -/
  slice : ∀ ms, Text.slice? source r.position.offset (r.moves ms).2.position.offset =
    some (r.moves ms).1
  /-- Of the numbers of a position only the line can grow too large. -/
  advance : ∀ c rest, r.rest = c :: rest →
    (r.tracking.breaksAt c = true → r.position.line + 1 < Position.bound) →
      r.position.advance? r.tracking c = some r.afterNext.position

theorem move_next_eq_iff (r : Reader) : r.move .next = ([], r) ↔ r.rest = [] := by
  rw [move, next?_eq, peek?]
  cases r.rest <;> simp

theorem StandsIn.rest_eq_nil_iff {source : List Char} {r : Reader} (hr : r.StandsIn source) :
    r.rest = [] ↔ r.position.offset = Text.utf8Length source := by
  have hunread := hr.offset_add_utf8Length_rest
  have hlength := Text.length_le_utf8Length r.rest
  constructor
  · intro hrest
    rw [hrest, Text.utf8Length_nil] at hunread
    omega
  · intro hoffset
    exact List.eq_nil_of_length_eq_zero (by omega)

theorem StandsIn.advance? {source : List Char} {r : Reader} {c : Char} {rest : List Char}
    (hr : r.StandsIn source) (hsource : Text.utf8Length source < Position.bound)
    (hrest : r.rest = c :: rest)
    (hline : r.tracking.breaksAt c = true → r.position.line + 1 < Position.bound) :
    r.position.advance? r.tracking c = some r.afterNext.position := by
  have hunread := hr.offset_add_utf8Length_rest
  have hcolumn := hr.column_le_offset
  have hsize := c.utf8Size_pos
  rw [hrest, Text.utf8Length_cons] at hunread
  rw [Position.advance?, if_pos ⟨by omega, by omega, hline⟩, afterNext_eq_skip,
    skip_one_eq_past hrest]
  rfl

theorem StandsIn.coherent {source : List Char} {r : Reader} (hr : r.StandsIn source)
    (hsource : Text.utf8Length source < Position.bound) : r.Coherent source where
  rest := by
    have hall := hr.slice?_of_reads (reads_past (List.append_nil r.rest).symm)
    rwa [position_past, Position.offset_advanceOver, hr.offset_add_utf8Length_rest] at hall
  peek := List.head?_eq_getElem?
  peekNth := r.peekNth?_eq_next?
  takeWhile p := ⟨isLongestRun_takeWhile p r.rest, r.takeWhile_eq_afterNexts p⟩
  atEnd := (move_next_eq_iff r).trans hr.rest_eq_nil_iff
  slice ms := hr.slice?_of_reads (reads_moves r ms)
  advance _ _ := hr.advance? hsource

end Reader

/-! ## Walks -/

/-- A reader under way, with the readers that were kept to come back to, the
last one first. -/
structure Walk where
  reader : Reader
  kept : List Reader := []

namespace Walk

def ofString (source : String) (tracking : LineTracking) : Walk :=
  { reader := Reader.ofString source tracking }

inductive Action where
  | move (m : Reader.Move)
  | keep
  /-- Comes back to a kept reader, if there are that many. -/
  | comeBack (k : Nat)

def act (w : Walk) : Action → Walk
  | .move m => { w with reader := (w.reader.move m).2 }
  | .keep => { w with kept := w.reader :: w.kept }
  | .comeBack k => { w with reader := w.kept[k]?.getD w.reader }

/-- The readers that the walk comes by, from the first one on. -/
def readers (w : Walk) : List Action → List Reader
  | [] => [w.reader]
  | a :: others => w.reader :: (w.act a).readers others

/-- The reader of the walk and those that it kept stand in the text. -/
structure StandsIn (source : List Char) (w : Walk) : Prop where
  reader : w.reader.StandsIn source
  kept : ∀ r ∈ w.kept, r.StandsIn source

variable {source : List Char} {w : Walk}

theorem StandsIn.act (hw : w.StandsIn source) (a : Action) : (w.act a).StandsIn source := by
  cases a with
  | move m => exact ⟨hw.reader.of_reads (w.reader.reads_move m), hw.kept⟩
  | keep =>
      refine ⟨hw.reader, ?_⟩
      intro r hr
      rcases List.mem_cons.mp hr with rfl | hr
      · exact hw.reader
      · exact hw.kept r hr
  | comeBack k =>
      refine ⟨?_, hw.kept⟩
      rw [Walk.act]
      cases hk : w.kept[k]? with
      | none => exact hw.reader
      | some r => exact hw.kept r (List.mem_of_getElem? hk)

theorem StandsIn.of_mem_readers (hw : w.StandsIn source) {actions : List Action} {r : Reader}
    (hr : r ∈ w.readers actions) : r.StandsIn source := by
  induction actions generalizing w with
  | nil =>
      rw [List.mem_singleton.mp hr]
      exact hw.reader
  | cons a others ih =>
      rcases List.mem_cons.mp hr with rfl | hr
      · exact hw.reader
      · exact ih (hw.act a) hr

theorem standsIn_ofString (source : String) (tracking : LineTracking) :
    (ofString source tracking).StandsIn (Reader.readable source).toList :=
  ⟨⟨[], rfl, rfl, Nat.le_refl 0⟩, fun _ hr => nomatch hr⟩

/-- What the readers of a walk through the text see. -/
structure Coherent (source : List Char) (readers : List Reader) : Prop where
  reader : ∀ r ∈ readers, r.Coherent source
  /-- Slices between readers, in the order of their offsets, make one slice. -/
  slices : ∀ r ∈ readers, ∀ s ∈ readers, ∀ t ∈ readers,
    r.position.offset ≤ s.position.offset → s.position.offset ≤ t.position.offset →
      ∃ cs ds, Text.slice? source r.position.offset s.position.offset = some cs ∧
        Text.slice? source s.position.offset t.position.offset = some ds ∧
        Text.slice? source r.position.offset t.position.offset = some (cs ++ ds)
  noSlice : ∀ x y, Text.slice? source x y = none ↔
    y < x ∨ Text.utf8Length source < y ∨ Text.InsideChar source x ∨ Text.InsideChar source y

theorem coherent_readers (source : String) (tracking : LineTracking) (actions : List Action)
    (hsource : Text.utf8Length source.toList < Position.bound) :
    Coherent source.toList ((ofString source tracking).readers actions) := by
  have hstart := standsIn_ofString source tracking
  rw [Reader.readable_of_utf8Length_lt hsource] at hstart
  have hstands : ∀ r ∈ (ofString source tracking).readers actions, r.StandsIn source.toList :=
    fun _ => hstart.of_mem_readers
  refine ⟨fun r hr => (hstands r hr).coherent hsource, ?_, fun _ _ => Text.slice?_eq_none_iff⟩
  intro r hr s hs t ht hrs hst
  obtain ⟨cs, hcs⟩ := (hstands r hr).exists_slice? (hstands s hs) hrs
  obtain ⟨ds, hds⟩ := (hstands s hs).exists_slice? (hstands t ht) hst
  exact ⟨cs, ds, hcs, hds, Text.slice?_trans hcs hds⟩

/-- Reads a word, starts a line, reads a blank and comes back to the start. -/
def wordAndBack : List Action :=
  [.keep, .move (.takeWhile (· != ' ')), .move (.startLineAfter 4), .move .next, .comeBack 0]

/-- No slice ends inside of the character of two bytes. -/
theorem coherent_readers_accented :
    Text.utf8Length "né 7".toList < Position.bound ∧
      Coherent "né 7".toList ((ofString "né 7" .whitespace).readers wordAndBack) ∧
      ((ofString "né 7" .whitespace).readers wordAndBack).map Reader.position =
        [⟨0, 0, 0⟩, ⟨0, 0, 0⟩, ⟨3, 0, 2⟩, ⟨3, 5, 0⟩, ⟨4, 6, 0⟩, ⟨0, 0, 0⟩] ∧
      Text.slice? "né 7".toList 0 3 = some ['n', 'é'] ∧
      Text.slice? "né 7".toList 0 2 = none :=
  ⟨by decide, coherent_readers "né 7" .whitespace wordAndBack (by decide), by decide, by decide,
    by decide⟩

end Walk

end Lexing
