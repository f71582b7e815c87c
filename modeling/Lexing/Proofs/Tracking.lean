import Lexing.Proofs.Correspondence

/-!
# What the line tracking mode changes

The mode decides which characters start a new line, and nothing else. Two scans
of one text that differ only in their modes give the same answers to the same
calls once lines and columns are erased, stand before the same text after each
of them, and leave the same buffer.
-/

namespace Lexing

/-- The position with line and column erased. -/
def Position.withoutLine (p : Position) : Position := { offset := p.offset }

/-- The answer with the lines and columns of all its tokens and its fault erased. -/
def Answer.withoutLines : Answer → Answer := Answer.mapPositions Position.withoutLine

theorem Position.withoutLine_eq_iff {p q : Position} :
    p.withoutLine = q.withoutLine ↔ p.offset = q.offset := by
  constructor
  · intro h
    exact (Position.mk.inj h).1
  · intro h
    rw [withoutLine, withoutLine, h]

/-- An offset counts bytes in every mode. -/
theorem corresponds_withoutLine (mode mode' : LineTracking) :
    Corresponds Position.withoutLine Position.withoutLine mode mode' where
  advance := by
    intro p q h c
    rw [Position.withoutLine_eq_iff] at h ⊢
    rw [Position.offset_advance, Position.offset_advance, h]
  startLineAfter := by
    intro p q p' q' _ h
    rw [Position.withoutLine_eq_iff] at h ⊢
    exact h

namespace Scan

/-- Both scans stand before the same text with the same buffer. Their lines and
columns may differ, and so may their modes. -/
structure AlikeButLines (s t : Scan) : Prop extends
    Matches Position.withoutLine Position.withoutLine s t where
  buffer : t.buffer = s.buffer

theorem simulates_alikeButLines :
    Simulates Position.withoutLine Position.withoutLine AlikeButLines where
  nextToken := by
    intro s t h
    have hfault : ∀ lead run, s.Collects lead run →
        (t.buffer.reset.fill run).fault = (s.buffer.reset.fill run).fault := by
      intro _ run _
      rw [h.buffer]
    obtain ⟨hresult, hscan, hbuffer⟩ := h.toMatches.nextToken hfault
    exact ⟨hresult, hscan, hbuffer h.buffer⟩
  finished := by
    intro s t h _ _
    exact ⟨⟨h.rest, h.modes, h.position⟩, h.buffer⟩

theorem alikeButLines_startWith (source : String) (settings : Settings) (mode : LineTracking) :
    AlikeButLines (.startWith settings.buffer source settings)
      (.startWith settings.buffer source { settings with tracking := mode }) :=
  ⟨⟨rfl, corresponds_withoutLine _ _, rfl⟩, rfl⟩

/-- What two scans have in common after the same calls, lines and columns apart. -/
structure AgreeButLines (s t : Scan) (history : List Call) : Prop where
  answers : (s.calls history).result.map Answer.withoutLines =
    (t.calls history).result.map Answer.withoutLines
  offset : (s.calls history).scan.position.offset = (t.calls history).scan.position.offset
  /-- The characters in it and its capacity included. -/
  buffer : (s.calls history).scan.buffer = (t.calls history).scan.buffer

end Scan

theorem exists_agreeButLines_calls {settings : Settings} (source : String) (mode : LineTracking)
    (hstorable : settings.Storable) :
    ∃ s t, Scan.start? source settings = some s ∧
      Scan.start? source { settings with tracking := mode } = some t ∧
      ∀ history : List Call, s.AgreeButLines t history := by
  refine ⟨.startWith settings.buffer source settings,
    .startWith settings.buffer source { settings with tracking := mode },
    hstorable.start?_eq source, ?_, ?_⟩
  · have hother : { settings with tracking := mode }.Storable := hstorable
    exact hother.start?_eq source
  · intro history
    have hstart := Scan.alikeButLines_startWith source settings mode
    obtain ⟨hanswers, hlast⟩ :=
      Scan.simulates_alikeButLines.calls hstart history (.inr ⟨rfl, rfl⟩)
    exact ⟨hanswers, Position.withoutLine_eq_iff.mp hlast.position, hlast.buffer.symm⟩

/-- The space starts a line in one of the modes only, so the modes place the
fault behind it in different lines. -/
theorem exists_agreeButLines_calls_space :
    ({ capacity := 1 } : Settings).Storable ∧
    ∃ s t, Scan.start? "a #" { capacity := 1 } = some s ∧
      Scan.start? "a #" { capacity := 1, tracking := .lineBreak } = some t ∧
      s.AgreeButLines t [.next, .nextToken] ∧
      (s.calls [.next, .nextToken]).result =
        [.item (some (.ok ⟨.identifier, "a", ⟨0, 0, 0⟩⟩)),
          .token (.error (.unexpectedCharacter '#' ⟨2, 1, 0⟩))] ∧
      (t.calls [.next, .nextToken]).result =
        [.item (some (.ok ⟨.identifier, "a", ⟨0, 0, 0⟩⟩)),
          .token (.error (.unexpectedCharacter '#' ⟨2, 0, 2⟩))] := by
  obtain ⟨s, t, hs, ht, hagree⟩ :=
    @exists_agreeButLines_calls { capacity := 1 } "a #" .lineBreak (by decide)
  cases hs
  cases ht
  exact ⟨by decide, _, _, rfl, rfl, hagree [.next, .nextToken], rfl, rfl⟩

end Lexing
