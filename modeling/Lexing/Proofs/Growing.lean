import Lexing.Proofs.Filling

/-!
# How storage grows

A buffer that grows goes from one capacity to twice one more than it, and does
so only where it has to hold another character. So the changes of storage that
a run of characters causes are fixed by how many characters there are and by
the capacity before them, whatever the characters are: `climbs_fill`.
-/

namespace Lexing.TextBuffer

/-- Changes of storage that follow each other from one capacity to another, each
to twice one more than the capacity before it. -/
inductive Chain : Nat → List Growth → Nat → Prop
  | nil (capacity : Nat) : Chain capacity [] capacity
  | cons {capacity last : Nat} {growths : List Growth}
      (h : Chain (2 * (capacity + 1)) growths last) :
      Chain capacity (⟨capacity, 2 * (capacity + 1)⟩ :: growths) last

theorem Chain.append {a b c : Nat} {growths growths' : List Growth} (h : Chain a growths b)
    (h' : Chain b growths' c) : Chain a (growths ++ growths') c := by
  induction h with
  | nil a => exact h'
  | cons _ ih => exact (ih h').cons

theorem Chain.le {a b : Nat} {growths : List Growth} (h : Chain a growths b) : a ≤ b := by
  induction h with
  | nil a => exact Nat.le_refl a
  | cons _ ih => omega

/-- A capacity that has changed is larger than it was. -/
theorem Chain.eq_nil {a : Nat} {growths : List Growth} (h : Chain a growths a) : growths = [] := by
  cases h with
  | nil => rfl
  | cons h =>
      have hle := h.le
      omega

/-- The changes of storage that bring a capacity up to at least `n`, and no more
than that takes: none where it is enough already. -/
inductive Climbs (n : Nat) : Nat → List Growth → Nat → Prop
  | enough {capacity : Nat} (h : n ≤ capacity) : Climbs n capacity [] capacity
  | grow {capacity last : Nat} {growths : List Growth} (hless : capacity < n)
      (h : Climbs n (2 * (capacity + 1)) growths last) :
      Climbs n capacity (⟨capacity, 2 * (capacity + 1)⟩ :: growths) last

namespace Climbs

variable {n capacity last : Nat} {growths : List Growth}

theorem chain (h : Climbs n capacity growths last) : Chain capacity growths last := by
  induction h with
  | enough _ => exact .nil _
  | grow _ _ ih => exact .cons ih

/-- Which changes of storage it takes is decided by where they begin and by what is to be held. -/
theorem unique {last' : Nat} {growths' : List Growth} (h : Climbs n capacity growths last)
    (h' : Climbs n capacity growths' last') : growths' = growths ∧ last' = last := by
  induction h generalizing growths' with
  | enough hle =>
      cases h' with
      | enough => exact ⟨rfl, rfl⟩
      | grow hless => exact absurd hle (Nat.not_le.mpr hless)
  | grow hless _ ih =>
      cases h' with
      | enough hle => exact absurd hle (Nat.not_le.mpr hless)
      | grow _ h' =>
          obtain ⟨rfl, rfl⟩ := ih h'
          exact ⟨rfl, rfl⟩

end Climbs

/-! ## A whole run -/

theorem growthBetween_self (capacity : Nat) : growthBetween capacity capacity = [] := if_pos rfl

private theorem growths_go (b : TextBuffer) (stored : Nat) (growths : List Growth)
    (cs : List Char) :
    (fill.go b stored growths cs).growths = growths ++ (b.fill cs).growths := by
  induction cs generalizing b stored growths with
  | nil => exact (List.append_nil growths).symm
  | cons c cs ih =>
      rw [fill, fill.go, fill.go]
      cases b.push c with
      | error e => exact (List.append_nil growths).symm
      | ok b' =>
          dsimp only
          rw [ih, ih b' (0 + 1), List.nil_append, List.append_assoc]

theorem growths_fill_cons_of_push {b b' : TextBuffer} {c : Char} (h : b.push c = .ok b')
    (cs : List Char) :
    (b.fill (c :: cs)).growths =
      growthBetween b.capacity b'.capacity ++ (b'.fill cs).growths := by
  rw [fill, fill.go, h]
  dsimp only
  rw [growths_go, List.nil_append]

theorem chain_growthBetween_of_push {b b' : TextBuffer} {c : Char} (h : b.push c = .ok b') :
    Chain b.capacity (growthBetween b.capacity b'.capacity) b'.capacity := by
  rcases Nat.lt_or_eq_of_le b.count_le_capacity with hroom | hfull
  · rw [capacity_of_push_of_room h hroom, growthBetween_self]
    exact .nil _
  · rw [capacity_of_push_of_full h hfull, growthBetween, if_neg (by omega)]
    exact .cons (.nil _)

/-- The storage grows step by step, also where a character is refused in the end. -/
theorem chain_fill (b : TextBuffer) (cs : List Char) :
    Chain b.capacity (b.fill cs).growths (b.fill cs).buffer.capacity := by
  induction cs generalizing b with
  | nil => exact .nil _
  | cons c cs ih =>
      cases hpush : b.push c with
      | error e =>
          rw [fill_cons_of_refused hpush]
          exact .nil _
      | ok b' =>
          rw [growths_fill_cons_of_push hpush, (fill_cons_of_push hpush cs).1]
          exact (chain_growthBetween_of_push hpush).append (ih b')

/-- The storage grows to hold what it held and the run, and no further. -/
theorem climbs_fill {b : TextBuffer} {cs : List Char} (hfits : b.Fits cs) :
    Climbs (b.count + cs.length) b.capacity (b.fill cs).growths (b.fill cs).buffer.capacity := by
  induction cs generalizing b with
  | nil => exact .enough b.count_le_capacity
  | cons c cs ih =>
      cases hpush : b.push c with
      | error e =>
          have hfault := (fault_fill_eq_none_iff _ _).mpr hfits
          rw [fill_cons_of_refused hpush] at hfault
          cases hfault
      | ok b' =>
          obtain ⟨hbuffer, -, hfault⟩ := fill_cons_of_push hpush cs
          have hfits' : b'.Fits cs := by
            rw [← fault_fill_eq_none_iff, ← hfault, fault_fill_eq_none_iff]
            exact hfits
          have hothers := ih hfits'
          have hcount : b'.count + cs.length = b.count + (c :: cs).length := by
            rw [count_of_push hpush, List.length_cons]
            omega
          rw [hcount] at hothers
          rw [growths_fill_cons_of_push hpush, hbuffer]
          rcases Nat.lt_or_eq_of_le b.count_le_capacity with hroom | hfull
          · rw [capacity_of_push_of_room hpush hroom] at hothers ⊢
            rw [growthBetween_self, List.nil_append]
            exact hothers
          · have hless : b.capacity < b.count + (c :: cs).length := by
              rw [hfull, List.length_cons]
              omega
            rw [capacity_of_push_of_full hpush hfull] at hothers ⊢
            rw [growthBetween, if_neg (by omega)]
            exact .grow hless hothers

end Lexing.TextBuffer
