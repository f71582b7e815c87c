/-!
# The text buffer

The text of a token is gathered character by character in a buffer that is emptied and used again for the
next token. The buffer keeps its storage: slots past `count` hold what earlier tokens left there, and
`TextBuffer.toList` is all of it that can be seen. A full buffer either grows or refuses the character.
-/

namespace Lexing

/-- A change of storage, from one capacity to another. -/
structure Growth where
  before : Nat
  after : Nat
  deriving DecidableEq, Repr

structure TextBuffer where
  slots : Array Char
  count : Nat
  growable : Bool
  count_le : count ≤ slots.size := by omega
  deriving DecidableEq, Repr

namespace TextBuffer

/-- A push was refused: the buffer was full and may not grow. -/
structure Exhausted where
  capacity : Nat
  deriving DecidableEq, Repr

/-- The most characters that storage can be requested for: at four bytes each they fill less than `2 ^ 63`
bytes. -/
def maxCapacity : Nat := 0x1FFFFFFFFFFFFFFF

/-- An empty buffer with room for `capacity` characters. -/
def withCapacity (capacity : Nat) (growable : Bool) : TextBuffer :=
  { slots := Array.replicate capacity '\x00', count := 0, growable, count_le := Nat.zero_le _ }

/-- An empty buffer, unless its storage cannot be requested. -/
def withCapacity? (capacity : Nat) (growable : Bool) : Option TextBuffer :=
  if capacity ≤ maxCapacity then some (withCapacity capacity growable) else none

def defaultCapacity : Nat := 1024

instance : Inhabited TextBuffer where
  default := withCapacity defaultCapacity true

def capacity (b : TextBuffer) : Nat := b.slots.size

def isEmpty (b : TextBuffer) : Bool := b.count = 0

/-- The characters pushed since the last reset. -/
def toList (b : TextBuffer) : List Char := (b.slots.take b.count).toList

def text (b : TextBuffer) : String := String.ofList b.toList

/-- Empties the buffer and keeps its storage. -/
def reset (b : TextBuffer) : TextBuffer :=
  { b with count := 0, count_le := Nat.zero_le _ }

/-- The capacity that a full buffer grows to. -/
def grownCapacity (b : TextBuffer) : Nat := max (2 * (b.count + 1)) (2 * b.capacity)

theorem capacity_le_grownCapacity (b : TextBuffer) : b.capacity ≤ b.grownCapacity := by
  unfold grownCapacity; omega

theorem count_lt_grownCapacity (b : TextBuffer) : b.count < b.grownCapacity := by
  unfold grownCapacity; omega

def grow (b : TextBuffer) : TextBuffer :=
  { b with
    slots := b.slots ++ Array.replicate (b.grownCapacity - b.capacity) '\x00'
    count_le := Nat.le_trans b.count_le (by simp) }

@[simp] theorem capacity_grow (b : TextBuffer) : b.grow.capacity = b.grownCapacity := by
  have := b.capacity_le_grownCapacity
  simp only [grow, capacity, Array.size_append, Array.size_replicate] at *
  omega

theorem count_lt_size_grow (b : TextBuffer) : b.grow.count < b.grow.slots.size := by
  have h : b.count < b.grow.capacity := by simpa using b.count_lt_grownCapacity
  exact h

/-- Writes a character into the first free slot. -/
def store (b : TextBuffer) (c : Char) (h : b.count < b.slots.size) : TextBuffer :=
  { b with
    slots := b.slots.set b.count c h
    count := b.count + 1
    count_le := by simpa [Nat.succ_le_iff] using h }

/-- Appends a character. A full buffer grows first if it may, and otherwise refuses. -/
@[inline] def push (b : TextBuffer) (c : Char) : Except Exhausted TextBuffer :=
  if h : b.count < b.slots.size then
    .ok (b.store c h)
  else if b.growable then
    .ok (b.grow.store c b.count_lt_size_grow)
  else
    .error ⟨b.capacity⟩

/-- The change of storage from one capacity to another, if they differ. -/
def growthBetween (before after : Nat) : List Growth :=
  if before = after then [] else [{ before, after }]

/-- What came of pushing a run of characters: how many were stored, which changes of storage that took, and
the fault that stopped it early, if there was one. -/
structure Fill where
  buffer : TextBuffer
  stored : Nat
  growths : List Growth
  fault : Option Exhausted

/-- Pushes the characters in turn, up to the first that is refused. -/
def fill (b : TextBuffer) (cs : List Char) : Fill :=
  go b 0 [] cs
where
  /-- Continues after `stored` characters. -/
  go (b : TextBuffer) (stored : Nat) (growths : List Growth) : List Char → Fill
    | [] => { buffer := b, stored, growths, fault := none }
    | c :: cs =>
        let capacity := b.capacity
        match b.push c with
        | .ok b' => go b' (stored + 1) (growths ++ growthBetween capacity b'.capacity) cs
        | .error e => { buffer := b, stored, growths, fault := some e }

/-! ## The view of the operations -/

theorem toList_eq_take (b : TextBuffer) : b.toList = b.slots.toList.take b.count := by
  simp [toList]

@[simp] theorem length_toList (b : TextBuffer) : b.toList.length = b.count := by
  have := b.count_le
  simp [toList_eq_take, this]

@[simp] theorem toList_withCapacity (n : Nat) (growable : Bool) :
    (withCapacity n growable).toList = [] := by
  simp [toList_eq_take, withCapacity]

@[simp] theorem capacity_withCapacity (n : Nat) (growable : Bool) :
    (withCapacity n growable).capacity = n := by
  simp [capacity, withCapacity]

@[simp] theorem toList_reset (b : TextBuffer) : b.reset.toList = [] := by
  simp [toList_eq_take, reset]

@[simp] theorem capacity_reset (b : TextBuffer) : b.reset.capacity = b.capacity := rfl

@[simp] theorem toList_grow (b : TextBuffer) : b.grow.toList = b.toList := by
  have := b.count_le
  simp [toList_eq_take, grow, List.take_append, this]

@[simp] theorem toList_store (b : TextBuffer) (c : Char) (h : b.count < b.slots.size) :
    (b.store c h).toList = b.toList ++ [c] := by
  simp [toList_eq_take, store, List.take_add_one, h, List.take_set_of_le]

@[simp] theorem capacity_store (b : TextBuffer) (c : Char) (h : b.count < b.slots.size) :
    (b.store c h).capacity = b.capacity := by
  simp [capacity, store]

/-- A character that is accepted stands last. -/
theorem toList_of_push {b b' : TextBuffer} {c : Char} (h : b.push c = .ok b') :
    b'.toList = b.toList ++ [c] := by
  unfold push at h
  split at h
  · cases h; simp
  · split at h
    · cases h; simp
    · cases h

/-- A character is refused exactly by a full buffer that may not grow, and the fault names its capacity. -/
theorem push_eq_error_iff {b : TextBuffer} {c : Char} {e : Exhausted} :
    b.push c = .error e ↔ b.count = b.capacity ∧ b.growable = false ∧ e = ⟨b.capacity⟩ := by
  have hle := b.count_le
  unfold push
  split
  · next hroom =>
      simp only [reduceCtorEq, false_iff, not_and]
      intro hfull
      simp only [capacity] at hfull
      omega
  · next hfull =>
      have hcount : b.count = b.capacity := by simp only [capacity]; omega
      split
      · next hgrowable => simp [hgrowable]
      · next hfixed =>
          rw [Bool.not_eq_true] at hfixed
          constructor
          · intro h
            cases h
            exact ⟨hcount, hfixed, rfl⟩
          · rintro ⟨_, _, rfl⟩
            rfl

/-! ### Filling

A fill takes characters off the front of the run, and the buffer holds what it took behind what it held. -/

private theorem toList_go (b : TextBuffer) (stored : Nat) (growths : List Growth) (cs : List Char) :
    ∃ taken left, cs = taken ++ left ∧
      (fill.go b stored growths cs).stored = stored + taken.length ∧
      (fill.go b stored growths cs).buffer.toList = b.toList ++ taken ∧
      ((fill.go b stored growths cs).fault = none → left = []) := by
  induction cs generalizing b stored growths with
  | nil => exact ⟨[], [], rfl, rfl, by simp [fill.go], fun _ => rfl⟩
  | cons c cs ih =>
      rw [fill.go]
      cases hpush : b.push c with
      | error e => exact ⟨[], c :: cs, rfl, rfl, by simp, by simp⟩
      | ok b' =>
          obtain ⟨taken, left, rfl, hstored, hbuffer, hfault⟩ :=
            ih b' (stored + 1) (growths ++ growthBetween b.capacity b'.capacity)
          refine ⟨c :: taken, left, rfl, ?_, ?_, hfault⟩
          · rw [hstored, List.length_cons]; omega
          · rw [hbuffer, toList_of_push hpush]; simp

theorem toList_fill (b : TextBuffer) (cs : List Char) :
    (b.fill cs).buffer.toList = b.toList ++ cs.take (b.fill cs).stored := by
  obtain ⟨taken, left, rfl, hstored, hbuffer, _⟩ := toList_go b 0 [] cs
  unfold fill
  rw [hbuffer, hstored, Nat.zero_add, List.take_left]

/-- A fill without a fault stores the whole run. -/
theorem toList_fill_of_fault_eq_none {b : TextBuffer} {cs : List Char}
    (h : (b.fill cs).fault = none) : (b.fill cs).buffer.toList = b.toList ++ cs := by
  obtain ⟨taken, left, rfl, _, hbuffer, hfault⟩ := toList_go b 0 [] cs
  unfold fill at h ⊢
  rw [hbuffer, hfault h, List.append_nil]

end TextBuffer

end Lexing
