import Lexing.TextBuffer

/-!
# Runs of characters that fit a buffer

A buffer that may grow takes in every run. A fixed one takes in what fits
behind its characters, and keeps its capacity whatever happens. Both follow
from what one push does, by induction over the run.
-/

namespace Lexing.TextBuffer

/-- The run can be pushed without a refusal. -/
def Fits (b : TextBuffer) (cs : List Char) : Prop :=
  b.growable = true ∨ b.count + cs.length ≤ b.capacity

/-- Two buffers treat a full storage alike: both grow, or neither does and
both refuse at the same capacity. -/
structure SameLimit (b b' : TextBuffer) : Prop where
  growable : b'.growable = b.growable
  capacity : b.growable = false → b'.capacity = b.capacity

namespace SameLimit

theorem refl (b : TextBuffer) : SameLimit b b := ⟨rfl, fun _ => rfl⟩

theorem trans {a b c : TextBuffer} (hab : SameLimit a b) (hbc : SameLimit b c) :
    SameLimit a c where
  growable := hbc.growable.trans hab.growable
  capacity hfixed := by
    have hb : b.growable = false := hab.growable.trans hfixed
    rw [hbc.capacity hb, hab.capacity hfixed]

theorem symm {b b' : TextBuffer} (h : SameLimit b b') : SameLimit b' b where
  growable := h.growable.symm
  capacity hfixed := (h.capacity (h.growable.symm.trans hfixed)).symm

theorem reset (b : TextBuffer) : SameLimit b b.reset := ⟨rfl, fun _ => rfl⟩

end SameLimit

theorem count_le_capacity (b : TextBuffer) : b.count ≤ b.capacity := b.count_le

/-! ## One push -/

theorem count_of_push {b b' : TextBuffer} {c : Char} (h : b.push c = .ok b') :
    b'.count = b.count + 1 := by
  have htext := congrArg List.length (toList_of_push h)
  simpa using htext

theorem sameLimit_of_push {b b' : TextBuffer} {c : Char} (h : b.push c = .ok b') :
    SameLimit b b' := by
  unfold push at h
  split at h
  · cases h
    exact ⟨rfl, fun _ => capacity_store ..⟩
  · split at h
    · next hgrowable =>
        cases h
        refine ⟨rfl, fun hfixed => ?_⟩
        rw [hgrowable] at hfixed
        cases hfixed
    · cases h

/-- A push into a full buffer that grows. -/
theorem capacity_of_push_of_full {b b' : TextBuffer} {c : Char} (h : b.push c = .ok b')
    (hfull : b.count = b.capacity) : b'.capacity = 2 * (b.capacity + 1) := by
  have hslots : ¬ b.count < b.slots.size := by
    rw [hfull]
    exact Nat.lt_irrefl _
  rw [push, dif_neg hslots] at h
  split at h
  · cases h
    rw [capacity_store, capacity_grow, grownCapacity, hfull]
    omega
  · cases h

theorem capacity_of_push_of_room {b b' : TextBuffer} {c : Char} (h : b.push c = .ok b')
    (hroom : b.count < b.capacity) : b'.capacity = b.capacity := by
  have hslots : b.count < b.slots.size := hroom
  rw [push, dif_pos hslots] at h
  cases h
  exact capacity_store ..

/-- Storage is requested for no more than twice what is held then. -/
theorem capacity_of_push {b b' : TextBuffer} {c : Char} (h : b.push c = .ok b') :
    b'.capacity ≤ max b.capacity (2 * (b.count + 1)) := by
  rcases Nat.lt_or_eq_of_le b.count_le_capacity with hroom | hfull
  · rw [capacity_of_push_of_room h hroom]
    exact Nat.le_max_left _ _
  · rw [capacity_of_push_of_full h hfull, hfull]
    exact Nat.le_max_right _ _

/-! ## A whole run -/

private theorem go_eq (b : TextBuffer) (stored : Nat) (growths : List Growth) (cs : List Char) :
    (fill.go b stored growths cs).buffer = (b.fill cs).buffer ∧
      (fill.go b stored growths cs).stored = stored + (b.fill cs).stored ∧
      (fill.go b stored growths cs).fault = (b.fill cs).fault := by
  induction cs generalizing b stored growths with
  | nil => exact ⟨rfl, rfl, rfl⟩
  | cons c cs ih =>
      rw [fill, fill.go, fill.go]
      cases b.push c with
      | error e => exact ⟨rfl, rfl, rfl⟩
      | ok b' =>
          obtain ⟨hbuffer, hstored, hfault⟩ :=
            ih b' (stored + 1) (growths ++ growthBetween b.capacity b'.capacity)
          obtain ⟨hbuffer', hstored', hfault'⟩ :=
            ih b' (0 + 1) ([] ++ growthBetween b.capacity b'.capacity)
          refine ⟨hbuffer.trans hbuffer'.symm, ?_, hfault.trans hfault'.symm⟩
          simp only [hstored, hstored']
          omega

/-- A character that is accepted leaves the others to be pushed. -/
theorem fill_cons_of_push {b b' : TextBuffer} {c : Char} (h : b.push c = .ok b')
    (cs : List Char) :
    (b.fill (c :: cs)).buffer = (b'.fill cs).buffer ∧
      (b.fill (c :: cs)).stored = (b'.fill cs).stored + 1 ∧
      (b.fill (c :: cs)).fault = (b'.fill cs).fault := by
  obtain ⟨hbuffer, hstored, hfault⟩ :=
    go_eq b' (0 + 1) ([] ++ growthBetween b.capacity b'.capacity) cs
  rw [fill, fill.go, h]
  exact ⟨hbuffer, by simp only [hstored]; omega, hfault⟩

/-- A character that is refused ends the fill. -/
theorem fill_cons_of_refused {b : TextBuffer} {c : Char} {e : Exhausted} (h : b.push c = .error e)
    (cs : List Char) :
    b.fill (c :: cs) = { buffer := b, stored := 0, growths := [], fault := some e } := by
  rw [fill, fill.go, h]

theorem sameLimit_fill (b : TextBuffer) (cs : List Char) : SameLimit b (b.fill cs).buffer := by
  induction cs generalizing b with
  | nil => exact SameLimit.refl b
  | cons c cs ih =>
      cases hpush : b.push c with
      | error e =>
          rw [fill_cons_of_refused hpush]
          exact SameLimit.refl b
      | ok b' =>
          rw [(fill_cons_of_push hpush cs).1]
          exact (sameLimit_of_push hpush).trans (ih b')

/-- A run is taken in without a fault exactly if it fits. -/
theorem fault_fill_eq_none_iff (b : TextBuffer) (cs : List Char) :
    (b.fill cs).fault = none ↔ b.Fits cs := by
  induction cs generalizing b with
  | nil =>
      have hle := b.count_le_capacity
      simp [fill, fill.go, Fits, hle]
  | cons c cs ih =>
      cases hpush : b.push c with
      | error e =>
          obtain ⟨hfull, hfixed, -⟩ := push_eq_error_iff.mp hpush
          rw [fill_cons_of_refused hpush]
          simp [Fits, hfull, hfixed]
      | ok b' =>
          have hcount := count_of_push hpush
          have hlimit := sameLimit_of_push hpush
          rw [(fill_cons_of_push hpush cs).2.2]
          simp only [ih, Fits, hcount, hlimit.growable, List.length_cons]
          cases hgrowable : b.growable with
          | true => simp
          | false =>
              rw [hlimit.capacity hgrowable]
              simp only [Bool.false_eq_true, false_or]
              omega

/-- A run is refused when all of the storage is in use. -/
theorem refused_fill {b : TextBuffer} {cs : List Char} {e : Exhausted}
    (h : (b.fill cs).fault = some e) :
    b.growable = false ∧ e = ⟨b.capacity⟩ ∧ (b.fill cs).stored + b.count = b.capacity := by
  induction cs generalizing b with
  | nil => cases h
  | cons c cs ih =>
      cases hpush : b.push c with
      | error e' =>
          obtain ⟨hfull, hfixed, rfl⟩ := push_eq_error_iff.mp hpush
          rw [fill_cons_of_refused hpush] at h ⊢
          cases h
          exact ⟨hfixed, rfl, by rw [hfull, Nat.zero_add]⟩
      | ok b' =>
          obtain ⟨-, hstored, hfault⟩ := fill_cons_of_push hpush cs
          rw [hfault] at h
          obtain ⟨hfixed, rfl, hothers⟩ := ih h
          have hlimit := sameLimit_of_push hpush
          rw [hlimit.growable] at hfixed
          have hcapacity := hlimit.capacity hfixed
          have hcount := count_of_push hpush
          refine ⟨hfixed, by rw [hcapacity], ?_⟩
          omega

theorem stored_fill_reset {b : TextBuffer} {cs : List Char} {e : Exhausted}
    (h : (b.reset.fill cs).fault = some e) : (b.reset.fill cs).stored = e.capacity := by
  obtain ⟨-, rfl, hstored⟩ := refused_fill h
  exact hstored

/-- Storage is requested for no more than twice what is held in the end. -/
theorem capacity_fill_le (b : TextBuffer) (cs : List Char) :
    (b.fill cs).buffer.capacity ≤ max b.capacity (2 * (b.count + cs.length)) := by
  induction cs generalizing b with
  | nil => exact Nat.le_max_left _ _
  | cons c cs ih =>
      cases hpush : b.push c with
      | error e =>
          rw [fill_cons_of_refused hpush]
          exact Nat.le_max_left _ _
      | ok b' =>
          have hgrown := capacity_of_push hpush
          have hothers := ih b'
          rw [count_of_push hpush] at hothers
          rw [(fill_cons_of_push hpush cs).1, List.length_cons]
          omega

theorem fits_reset_iff (b : TextBuffer) (cs : List Char) :
    b.reset.Fits cs ↔ b.growable = true ∨ cs.length ≤ b.capacity := by
  simp [Fits, reset, capacity]

theorem SameLimit.fits_reset_iff {b b' : TextBuffer} (h : SameLimit b b') (cs : List Char) :
    b'.reset.Fits cs ↔ b.reset.Fits cs := by
  rw [TextBuffer.fits_reset_iff, TextBuffer.fits_reset_iff, h.growable]
  cases hgrowable : b.growable with
  | true => simp
  | false => rw [h.capacity hgrowable]

/-- A run is refused by a fixed buffer that it is too long for. -/
theorem fault_fill_reset_eq_some_iff {b : TextBuffer} {cs : List Char} {e : Exhausted} :
    (b.reset.fill cs).fault = some e ↔
      b.growable = false ∧ b.capacity < cs.length ∧ e = ⟨b.capacity⟩ := by
  constructor
  · intro h
    obtain ⟨hfixed, rfl, -⟩ := refused_fill h
    have hfits : ¬ b.reset.Fits cs := by
      rw [← fault_fill_eq_none_iff, h]
      exact Option.some_ne_none _
    rw [fits_reset_iff, not_or, Nat.not_le] at hfits
    exact ⟨hfixed, hfits.2, rfl⟩
  · rintro ⟨hfixed, hlong, rfl⟩
    cases hfault : (b.reset.fill cs).fault with
    | none =>
        rw [fault_fill_eq_none_iff, fits_reset_iff, hfixed] at hfault
        exact absurd hlong (Nat.not_lt.mpr (hfault.resolve_left Bool.false_ne_true))
    | some e =>
        obtain ⟨-, rfl, -⟩ := refused_fill hfault
        rfl

/-- Buffers of one limit refuse the same runs, and with the same fault. -/
theorem SameLimit.fault_fill_reset {b b' : TextBuffer} (h : SameLimit b b') (cs : List Char) :
    (b'.reset.fill cs).fault = (b.reset.fill cs).fault := by
  cases hfault : (b.reset.fill cs).fault with
  | none =>
      rw [fault_fill_eq_none_iff] at hfault ⊢
      exact (h.fits_reset_iff cs).mpr hfault
  | some e =>
      obtain ⟨hfixed, rfl, -⟩ := refused_fill hfault
      have hcapacity : b'.capacity = b.capacity := h.capacity hfixed
      cases hfault' : (b'.reset.fill cs).fault with
      | none =>
          have hfits := (h.fits_reset_iff cs).mp ((fault_fill_eq_none_iff _ _).mp hfault')
          rw [(fault_fill_eq_none_iff _ _).mpr hfits] at hfault
          cases hfault
      | some e' =>
          obtain ⟨-, rfl, -⟩ := refused_fill hfault'
          rw [capacity_reset, capacity_reset, hcapacity]

end Lexing.TextBuffer
