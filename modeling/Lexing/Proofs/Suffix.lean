import Lexing.Proofs.Pieces
import Lexing.Proofs.Positions
import Lexing.Proofs.Shifting
import Lexing.Proofs.Truncation

/-!
# The past of a scan is forgotten

Whatever calls were made on a scan, and whether or not they failed, all that
later calls see of them is the place where the scan stands and the limit of its
buffer. A fresh scan of the text that is left, with a buffer of that limit,
answers the same, shifted to that place. Only the iteration remembers more:
whether it has ended.
-/

namespace Lexing

namespace Scan

/-- Two scans before the same text, at positions that differ by a shift, whose
buffers refuse the same runs. -/
structure Repeats (p : Position) (s t : Scan) : Prop extends Shifted p s t where
  limit : s.buffer.SameLimit t.buffer

namespace Repeats

variable {p : Position} {s t : Scan}

/-! ## Calls on both scans -/

theorem nextToken (h : Repeats p s t) :
    t.nextToken.result = shiftResult p s.nextToken.result ∧
      Repeats p s.nextToken.scan t.nextToken.scan := by
  obtain ⟨hresult, hscan⟩ :=
    h.toShifted.nextToken fun _ run _ => h.limit.fault_fill_reset run
  exact ⟨hresult, hscan, s.sameLimit_nextToken.symm.trans (h.limit.trans t.sameLimit_nextToken)⟩

theorem simulates (p : Position) : Simulates (Position.shiftBy · p) id (Repeats p) where
  nextToken := by
    intro s t h
    obtain ⟨hresult, hscan⟩ := h.nextToken
    rw [mapResult_shiftBy, mapResult_id]
    exact ⟨hresult.symm, hscan⟩
  finished := by
    intro s t h _ _
    exact ⟨⟨h.rest, h.tracking, h.position⟩, h.limit⟩

theorem calls (h : Repeats p s t) (cs : List Call)
    (hcs : (∀ c ∈ cs, c.isDirect = true) ∨ SameFlags s t) :
    (t.calls cs).result = (s.calls cs).result.map (·.shiftBy p) ∧
      Repeats p (s.calls cs).scan (t.calls cs).scan := by
  obtain ⟨hanswers, hlast⟩ := (simulates p).calls h cs hcs
  have hshift : Answer.mapPositions (Position.shiftBy · p) = (·.shiftBy p) :=
    funext (Answer.mapPositions_shiftBy p)
  have hid : Answer.mapPositions id = id := funext Answer.mapPositions_id
  rw [hshift, hid, List.map_id] at hanswers
  exact ⟨hanswers.symm, hlast⟩

end Repeats

/-! ## Scans that calls lead to -/

theorem sameLimit_calls (s : Scan) (cs : List Call) :
    s.buffer.SameLimit (s.calls cs).scan.buffer := by
  refine keep_calls (P := fun u => s.buffer.SameLimit u.buffer) ?_ (fun _ _ hu => hu) (.refl _) cs
  intro u hu
  exact hu.trans u.sameLimit_nextToken

theorem tracking_calls (s : Scan) (cs : List Call) :
    (s.calls cs).scan.reader.tracking = s.reader.tracking :=
  (s.moves_calls cs).tracking

end Scan

/-- Settings of a fresh scan that goes on as scans with `settings` do: whether
line breaks are wanted does not matter, nor does the capacity of a buffer that grows. -/
structure Settings.ContinuedBy (settings fresh : Settings) : Prop where
  tracking : fresh.tracking = settings.tracking
  growable : fresh.growable = settings.growable
  capacity : settings.growable = false → fresh.capacity = settings.capacity
  storable : fresh.Storable

/-- What later calls see of the calls before them. -/
structure ForgetsHistory (settings : Settings) (source : String) (scan : Scan) : Prop where
  /-- A fresh scan of the rest of the text gives the same answers and comes to
  the same position, shifted to where the rest begins. -/
  suffix : ∀ (history later : List Call) (fresh : Settings), settings.ContinuedBy fresh →
    (∀ c ∈ later, c.isDirect = true) →
    ∃ front back again,
      Text.splitAtByte? source.toList (scan.calls history).scan.position.offset =
        some (front, back) ∧
      Scan.start? (String.ofList back) fresh = some again ∧
      ((scan.calls history).scan.calls later).result =
        (again.calls later).result.map (·.shiftBy (scan.calls history).scan.position) ∧
      ((scan.calls history).scan.calls later).scan.position =
        (again.calls later).scan.position.shiftBy (scan.calls history).scan.position
  /-- A buffer that grows could be any other one that grows. -/
  buffer : settings.growable = true → ∀ (history later : List Call) (b : TextBuffer),
    b.growable = true →
    ({ (scan.calls history).scan with buffer := b }.calls later).result =
        ((scan.calls history).scan.calls later).result ∧
      ({ (scan.calls history).scan with buffer := b }.calls later).scan.position =
        ((scan.calls history).scan.calls later).scan.position

/-- The rest of the text is what is still to be read of it: of a source that is too long, a
part from its start counts. -/
theorem exists_forgetsHistory_of_storable {settings : Settings} (source : String)
    (hstorable : settings.Storable) :
    ∃ scan part, Scan.start? source settings = some scan ∧ ReadablePart source part ∧
      ForgetsHistory settings part scan := by
  refine ⟨.startWith settings.buffer source settings, _,
    hstorable.start?_eq source, readablePart_readable source, ?_, ?_⟩
  · intro history later fresh hfresh hdirect
    have hstands := (Scan.standsIn_startWith settings.buffer source settings).calls history
    have htracking := Scan.tracking_calls (.startWith settings.buffer source settings) history
    have hlimit := Scan.sameLimit_calls (.startWith settings.buffer source settings) history
    generalize (Scan.calls _ history).scan = s at hstands htracking hlimit ⊢
    obtain ⟨front, hsplit⟩ := hstands.exists_splitAtByte?
    refine ⟨front, s.reader.rest, .startWith fresh.buffer (String.ofList s.reader.rest) fresh,
      hsplit, ?_, ?_⟩
    · exact hfresh.storable.start?_eq _
    · have hbuffer : fresh.buffer.SameLimit settings.buffer := by
        refine ⟨hfresh.growable.symm, fun hfixed => ?_⟩
        have hsettings : settings.growable = false := hfresh.growable.symm.trans hfixed
        rw [Settings.buffer, Settings.buffer, TextBuffer.capacity_withCapacity,
          TextBuffer.capacity_withCapacity, hfresh.capacity hsettings]
      have hlength := (Reader.utf8Length_lt_of_readable (Text.eq_append_of_splitAtByte? hsplit).1).2
      have hrepeats : Scan.Repeats s.position
          (.startWith fresh.buffer (String.ofList s.reader.rest) fresh) s := by
        refine ⟨⟨(Reader.toList_readable_ofList hlength).symm, ?_, rfl⟩, hbuffer.trans hlimit⟩
        exact htracking.trans hfresh.tracking.symm
      obtain ⟨hanswers, hlast⟩ := hrepeats.calls later (.inl hdirect)
      exact ⟨hanswers, hlast.position⟩
  · intro hgrowable history later b hb
    have hlimit := Scan.sameLimit_calls (.startWith settings.buffer source settings) history
    generalize (Scan.calls _ history).scan = s at hlimit ⊢
    have hs : s.buffer.growable = true := hlimit.growable.trans hgrowable
    have hsame : s.buffer.SameLimit b := by
      refine ⟨hb.trans hs.symm, fun hfixed => ?_⟩
      rw [hs] at hfixed
      cases hfixed
    have hrepeats : Scan.Repeats {} s { s with buffer := b } :=
      ⟨⟨rfl, rfl, (Position.shiftBy_start _).symm⟩, hsame⟩
    obtain ⟨hanswers, hlast⟩ := hrepeats.calls later (.inr ⟨rfl, rfl⟩)
    refine ⟨?_, hlast.position.trans (Position.shiftBy_start _)⟩
    simpa using hanswers

/-- The first call stops inside of the word, and what is left of it is a word. -/
theorem exists_forgetsHistory_of_storable_word :
    ({ capacity := 1, growable := false } : Settings).Storable ∧
    ∃ scan, Scan.start? "abc 1\n#" { capacity := 1, growable := false } = some scan ∧
      ForgetsHistory { capacity := 1, growable := false } "abc 1\n#" scan ∧
      (scan.calls [.next]).scan.position = ⟨2, 0, 2⟩ ∧
      ((scan.calls [.next]).scan.calls [.nextToken, .nextToken, .nextToken, .nextToken]).result =
        [.token (.ok ⟨.identifier, "c", ⟨2, 0, 2⟩⟩), .token (.ok ⟨.integer, "1", ⟨4, 1, 0⟩⟩),
          .token (.ok ⟨.lineBreak, "\n", ⟨5, 1, 1⟩⟩),
          .token (.error (.unexpectedCharacter '#' ⟨6, 2, 0⟩))] ∧
      ∃ again, Scan.start? "c 1\n#" { capacity := 1, growable := false } = some again ∧
        ((scan.calls [.next]).scan.calls [.nextToken, .tokens true]).result =
          (again.calls [.nextToken, .tokens true]).result.map (·.shiftBy ⟨2, 0, 2⟩) := by
  obtain ⟨scan, part, hstart, hpart, hforgets⟩ := @exists_forgetsHistory_of_storable
    { capacity := 1, growable := false } "abc 1\n#" (by decide)
  rw [hpart.eq_of_lt (by decide)] at hforgets
  cases hstart
  refine ⟨by decide, _, rfl, hforgets, rfl, rfl, _, rfl, ?_⟩
  obtain ⟨front, back, again, hsplit, hagain, hanswers, -⟩ :=
    hforgets.suffix [.next] [.nextToken, .tokens true] { capacity := 1, growable := false }
      ⟨rfl, rfl, fun _ => rfl, by decide⟩ (by decide)
  cases hsplit
  cases hagain
  exact hanswers

/-- A scan that has come to where reading ends does not go on, and a fresh scan of what is
behind does. -/
theorem not_forgetsHistory_blanksAndString {blanks : Nat} {scan : Scan}
    (hblanks : blanks + 2 = Position.bound)
    (hstart : Scan.start? (blanksAndString blanks) {} = some scan) :
    ¬ ForgetsHistory {} (blanksAndString blanks) scan := by
  intro h
  obtain ⟨p, -, -, hrest, hoffset⟩ := Scan.nextToken_blanksAndString hblanks hstart
  have hfresh : ({} : Settings).ContinuedBy { capacity := 0 } :=
    ⟨rfl, rfl, by decide, by decide⟩
  obtain ⟨front, back, again, hsplit, hagain, -, hlast⟩ :=
    h.suffix [.nextToken] [.nextToken] { capacity := 0 } hfresh (by decide)
  have hbehind : back = ['a', '"'] := by
    obtain ⟨htext, hlength⟩ := Text.eq_append_of_splitAtByte? hsplit
    have hfront : Text.utf8Length (List.replicate blanks ' ' ++ ['"']) = Text.utf8Length front := by
      rw [Text.utf8Length_append, utf8Length_blanks, hlength]
      exact hoffset.symm
    rw [blanksAndString, String.toList_ofList, List.append_cons] at htext
    exact (Text.append_inj_of_utf8Length_eq htext hfront).2.symm
  rw [hbehind] at hagain
  cases hagain
  have hstays : scan.nextToken.scan.nextToken.scan.position.offset = blanks + 1 := by
    rw [Scan.nextToken_of_gap isGap_nil hrest]
    exact hoffset
  have hmoves : scan.nextToken.scan.nextToken.scan.position.offset =
      scan.nextToken.scan.position.offset + 1 := congrArg Position.offset hlast
  omega

theorem exists_not_forgetsHistory :
    ({} : Settings).Storable ∧
    ∃ scan, Scan.start? (blanksAndString (Position.bound - 2)) {} = some scan ∧
      ¬ ForgetsHistory {} (blanksAndString (Position.bound - 2)) scan := by
  have hstorable : ({} : Settings).Storable := by decide
  have hstart := hstorable.start?_eq (blanksAndString (Position.bound - 2))
  exact ⟨hstorable, _, hstart, not_forgetsHistory_blanksAndString (by decide) hstart⟩

end Lexing
