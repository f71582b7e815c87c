import Lexing.Proofs.Checked

/-!
# A buffer stands for a list of characters

Of one buffer others are cloned, and of these again others. Each is pushed into
and reset on its own, and may be set back to what another one is by then. The
slots past the count keep what was once written there, and a clone copies them.

Along with each buffer goes its history, which nothing looks at: what was done
to it and, before it was cloned, to the buffer that it is a clone of. What the
buffer tells is then a matter of its history alone, by induction over all that
is done; what stands in the other slots does not show.
-/

namespace Lexing.TextBuffer

/-! ## One character -/

/-- The fill, if it was stopped, as the fault that stopped it. -/
def Fill.toExcept (fill : Fill) : Except Exhausted TextBuffer :=
  match fill.fault with
  | none => .ok fill.buffer
  | some e => .error e

theorem toExcept_fill_singleton (b : TextBuffer) (c : Char) :
    (b.fill [c]).toExcept = b.push c := by
  cases hpush : b.push c with
  | error e =>
      rw [fill_cons_of_refused hpush]
      rfl
  | ok b' =>
      obtain ⟨hbuffer, -, hfault⟩ := fill_cons_of_push hpush []
      rw [Fill.toExcept, hfault, hbuffer]
      rfl

/-- The buffer `b'` is `b` with a character more. -/
structure Stores (b : TextBuffer) (c : Char) (b' : TextBuffer) : Prop where
  toList : b'.toList = b.toList ++ [c]
  growable : b'.growable = b.growable
  capacity : b'.capacity = if b.count = b.capacity then 2 * (b.capacity + 1) else b.capacity

theorem stores_of_push {b b' : TextBuffer} {c : Char} (h : b.push c = .ok b') : b.Stores c b' where
  toList := toList_of_push h
  growable := (sameLimit_of_push h).growable
  capacity := by
    by_cases hfull : b.count = b.capacity
    · rw [if_pos hfull, capacity_of_push_of_full h hfull]
    · have hroom := Nat.lt_of_le_of_ne b.count_le_capacity hfull
      rw [if_neg hfull, capacity_of_push_of_room h hroom]

/-- A fixed buffer that is full refuses the character and stays as it is, down to
the last slot. Any other buffer stores it. -/
theorem fill_singleton_cases (b : TextBuffer) (c : Char) :
    (b.growable = false ∧ b.count = b.capacity ∧
      (b.fill [c]).fault = some ⟨b.capacity⟩ ∧ (b.fill [c]).buffer = b) ∨
    (¬ (b.growable = false ∧ b.count = b.capacity) ∧
      (b.fill [c]).fault = none ∧ b.Stores c (b.fill [c]).buffer) := by
  cases hpush : b.push c with
  | error e =>
      obtain ⟨hfull, hfixed, rfl⟩ := push_eq_error_iff.mp hpush
      rw [fill_cons_of_refused hpush]
      exact .inl ⟨hfixed, hfull, rfl, rfl⟩
  | ok b' =>
      obtain ⟨hbuffer, -, hfault⟩ := fill_cons_of_push hpush []
      refine .inr ⟨?_, hfault, ?_⟩
      · rintro ⟨hfixed, hfull⟩
        have hrefused : b.push c = .error ⟨b.capacity⟩ :=
          push_eq_error_iff.mpr ⟨hfull, hfixed, rfl⟩
        rw [hpush] at hrefused
        cases hrefused
      · rw [hbuffer]
        exact stores_of_push hpush

theorem fault_fill_singleton_iff {b : TextBuffer} {c : Char} {e : Exhausted} :
    (b.fill [c]).fault = some e ↔ b.growable = false ∧ b.count = b.capacity ∧ e = ⟨b.capacity⟩ := by
  obtain ⟨hfixed, hfull, hfault, -⟩ | ⟨hroom, hfault, -⟩ := b.fill_singleton_cases c
  · simp [hfault, hfixed, hfull, eq_comm]
  · simp only [hfault, reduceCtorEq, false_iff]
    rintro ⟨hfixed, hfull, -⟩
    exact hroom ⟨hfixed, hfull⟩

theorem buffer_fill_singleton_of_refused {b : TextBuffer} {c : Char} {e : Exhausted}
    (h : (b.fill [c]).fault = some e) : (b.fill [c]).buffer = b := by
  obtain ⟨-, -, -, hbuffer⟩ | ⟨-, hfault, -⟩ := b.fill_singleton_cases c
  · exact hbuffer
  · rw [hfault] at h
    cases h

/-! ## What a buffer tells -/

/-- All that a buffer can be asked for. -/
structure Seen where
  text : String
  count : Nat
  isEmpty : Bool
  capacity : Nat
  growable : Bool
  deriving DecidableEq, Repr

def seen (b : TextBuffer) : Seen :=
  { text := b.text, count := b.count, isEmpty := b.isEmpty, capacity := b.capacity
    growable := b.growable }

/-- The buffers differ at most in the slots past their count. -/
structure Alike (b b' : TextBuffer) : Prop where
  count : b'.count = b.count
  toList : b'.toList = b.toList
  capacity : b'.capacity = b.capacity
  growable : b'.growable = b.growable

theorem seen_eq_iff {b b' : TextBuffer} : b'.seen = b.seen ↔ Alike b b' := by
  constructor
  · intro h
    have htext : b'.text = b.text := congrArg Seen.text h
    exact ⟨congrArg Seen.count h, String.ofList_inj.mp htext, congrArg Seen.capacity h,
      congrArg Seen.growable h⟩
  · rintro ⟨hcount, htoList, hcapacity, hgrowable⟩
    simp only [seen, text, isEmpty, hcount, htoList, hcapacity, hgrowable]

namespace Alike

variable {b b' : TextBuffer}

theorem reset (h : Alike b b') : Alike b.reset b'.reset :=
  ⟨rfl, by rw [toList_reset, toList_reset], h.capacity, h.growable⟩

theorem of_stores {a a' : TextBuffer} {c : Char} (h : Alike b b') (hs : b.Stores c a)
    (hs' : b'.Stores c a') : Alike a a' := by
  have htoList : a'.toList = a.toList := by rw [hs'.toList, hs.toList, h.toList]
  refine ⟨?_, htoList, ?_, ?_⟩
  · rw [← length_toList, ← length_toList, htoList]
  · rw [hs'.capacity, hs.capacity, h.count, h.capacity]
  · rw [hs'.growable, hs.growable, h.growable]

theorem fill_singleton (h : Alike b b') (c : Char) :
    (b'.fill [c]).fault = (b.fill [c]).fault ∧
      Alike (b.fill [c]).buffer (b'.fill [c]).buffer := by
  obtain ⟨hfixed, hfull, hfault, hbuffer⟩ | ⟨hroom, hfault, hstores⟩ := b.fill_singleton_cases c
  · have hfault' : (b'.fill [c]).fault = some ⟨b.capacity⟩ :=
      fault_fill_singleton_iff.mpr
        ⟨h.growable.trans hfixed, by rw [h.count, h.capacity, hfull], by rw [h.capacity]⟩
    rw [hfault, hfault', hbuffer, buffer_fill_singleton_of_refused hfault']
    exact ⟨rfl, h⟩
  · obtain ⟨hfixed', hfull', -, -⟩ | ⟨-, hfault', hstores'⟩ := b'.fill_singleton_cases c
    · rw [h.growable] at hfixed'
      rw [h.count, h.capacity] at hfull'
      exact absurd ⟨hfixed', hfull'⟩ hroom
    · exact ⟨hfault'.trans hfault.symm, h.of_stores hstores hstores'⟩

end Alike

/-! ## Histories -/

/-- Something that was done to a buffer. -/
inductive Deed where
  /-- A character was pushed, and stored unless there was a fault. -/
  | push (c : Char) (fault : Option Exhausted)
  | reset
  deriving DecidableEq, Repr

def Deed.isReset : Deed → Bool
  | .push _ _ => false
  | .reset => true

def Deed.stored? : Deed → Option Char
  | .push c none => some c
  | .push _ (some _) => none
  | .reset => none

/-- The characters that were stored since the last reset. The latest deed stands
first in a history. -/
def live (history : List Deed) : List Char :=
  ((history.takeWhile (! ·.isReset)).filterMap Deed.stored?).reverse

@[simp] theorem live_reset (history : List Deed) : live (.reset :: history) = [] := rfl

@[simp] theorem live_stored (c : Char) (history : List Deed) :
    live (.push c none :: history) = live history ++ [c] :=
  List.reverse_cons ..

@[simp] theorem live_refused (c : Char) (e : Exhausted) (history : List Deed) :
    live (.push c (some e) :: history) = live history := rfl

/-- A buffer and its history. -/
structure Recorded where
  buffer : TextBuffer
  history : List Deed
  deriving DecidableEq, Repr

namespace Recorded

def push (t : Recorded) (c : Char) : Recorded :=
  { buffer := (t.buffer.fill [c]).buffer
    history := .push c (t.buffer.fill [c]).fault :: t.history }

def reset (t : Recorded) : Recorded :=
  { buffer := t.buffer.reset, history := .reset :: t.history }

def seen (t : Recorded) : Seen := t.buffer.seen

theorem seen_push {t t' : Recorded} (h : t'.seen = t.seen) (c : Char) :
    (t'.push c).seen = (t.push c).seen :=
  seen_eq_iff.mpr ((seen_eq_iff.mp h).fill_singleton c).2

theorem seen_reset {t t' : Recorded} (h : t'.seen = t.seen) : t'.reset.seen = t.reset.seen :=
  seen_eq_iff.mpr (seen_eq_iff.mp h).reset

/-- What the buffer tells is what its history says. It grows if the first buffer
does, and if not it has the size of the first. -/
structure Reflects (size : Nat) (grows : Bool) (t : Recorded) : Prop where
  text : t.buffer.text = String.ofList (live t.history)
  count : t.buffer.count = (live t.history).length
  isEmpty : t.buffer.isEmpty = true ↔ live t.history = []
  growable : t.buffer.growable = grows
  capacity : grows = false → t.buffer.capacity = size

namespace Reflects

variable {size : Nat} {grows : Bool} {t : Recorded}

theorem of_toList (htoList : t.buffer.toList = live t.history)
    (hgrowable : t.buffer.growable = grows)
    (hcapacity : grows = false → t.buffer.capacity = size) :
    Reflects size grows t where
  text := by rw [TextBuffer.text, htoList]
  count := by rw [← htoList, length_toList]
  isEmpty := by
    rw [TextBuffer.isEmpty, decide_eq_true_eq, ← List.length_eq_zero_iff, ← htoList, length_toList]
  growable := hgrowable
  capacity := hcapacity

theorem toList (h : Reflects size grows t) : t.buffer.toList = live t.history :=
  String.ofList_inj.mp h.text

theorem push (h : Reflects size grows t) (c : Char) :
    Reflects size grows (t.push c) := by
  obtain ⟨-, -, hfault, hbuffer⟩ | ⟨hroom, hfault, hstores⟩ := t.buffer.fill_singleton_cases c
  · refine of_toList ?_ ?_ ?_
    · simp only [Recorded.push, hfault, hbuffer, live_refused]
      exact h.toList
    · simp only [Recorded.push, hbuffer]
      exact h.growable
    · simp only [Recorded.push, hbuffer]
      exact h.capacity
  · refine of_toList ?_ (hstores.growable.trans h.growable) ?_
    · simp only [Recorded.push, hfault, live_stored]
      rw [hstores.toList, h.toList]
    · intro hfixed
      -- A fixed buffer that stores a character is not full.
      have hnotFull : t.buffer.count ≠ t.buffer.capacity :=
        fun hfull => hroom ⟨h.growable.trans hfixed, hfull⟩
      exact hstores.capacity.trans ((if_neg hnotFull).trans (h.capacity hfixed))

theorem reset (h : Reflects size grows t) : Reflects size grows t.reset := by
  refine of_toList ?_ h.growable h.capacity
  simp only [Recorded.reset, toList_reset, live_reset]

end Reflects

end Recorded

/-! ## Buffers in use -/

/-- Buffers, numbered as they were made, and the texts that were taken of them. -/
structure Bench where
  buffers : List Recorded
  taken : List String
  deriving DecidableEq, Repr

/-- What is done to the buffer of a number; nothing, if there is none. -/
inductive Action where
  | push (i : Nat) (c : Char)
  | reset (i : Nat)
  /-- A clone of the buffer becomes the last one. -/
  | clone (i : Nat)
  /-- A clone of buffer `j` takes the place of buffer `i`. -/
  | restore (i j : Nat)
  | take (i : Nat)
  deriving DecidableEq, Repr

/-- The number of the buffer that is written to. -/
def Action.target? : Action → Option Nat
  | .push i _ => some i
  | .reset i => some i
  | .clone _ => none
  | .restore i _ => some i
  | .take _ => none

namespace Bench

/-- A buffer that nothing has been done to. -/
def start (b : TextBuffer) : Bench := { buffers := [⟨b, []⟩], taken := [] }

def act (s : Bench) : Action → Bench
  | .push i c => { s with buffers := s.buffers.modify i (·.push c) }
  | .reset i => { s with buffers := s.buffers.modify i Recorded.reset }
  | .clone i => { s with buffers := s.buffers ++ s.buffers[i]?.toList }
  | .restore i j => { s with buffers := s.buffers.modify i fun t => s.buffers[j]?.getD t }
  | .take i => { s with taken := s.taken ++ (s.buffers[i]?.map (·.buffer.text)).toList }

/-- The fault that an action meets with. -/
def fault? (s : Bench) : Action → Option Exhausted
  | .push i c => s.buffers[i]?.bind fun t => (t.buffer.fill [c]).fault
  | _ => none

def after (s : Bench) (actions : List Action) : Bench := actions.foldl act s

/-- All that a bench can be asked for. -/
def seen (s : Bench) : List Seen × List String := (s.buffers.map Recorded.seen, s.taken)

/-- The fault of each action, and what is seen behind it. -/
def answers (s : Bench) : List Action → List (Option Exhausted × List Seen × List String)
  | [] => []
  | a :: actions => (s.fault? a, (s.act a).seen) :: (s.act a).answers actions

/-! ### What holds of all buffers -/

theorem forall_mem_modify {P : Recorded → Prop} {all : List Recorded} {i : Nat}
    {f : Recorded → Recorded} (hf : ∀ t, P t → P (f t)) (h : ∀ t ∈ all, P t) :
    ∀ t ∈ all.modify i f, P t := by
  intro t ht
  obtain ⟨k, hk⟩ := List.mem_iff_getElem?.mp ht
  rw [List.getElem?_modify, Option.map_eq_map, Option.map_eq_some_iff] at hk
  obtain ⟨u, hu, rfl⟩ := hk
  have hP : P u := h u (List.mem_of_getElem? hu)
  split
  · exact hf u hP
  · exact hP

section Invariant

variable {P : Recorded → Prop} {s : Bench}

theorem forall_mem_act (hpush : ∀ t c, P t → P (t.push c)) (hreset : ∀ t, P t → P t.reset)
    (h : ∀ t ∈ s.buffers, P t) (a : Action) : ∀ t ∈ (s.act a).buffers, P t := by
  cases a with
  | push i c => exact forall_mem_modify (fun t => hpush t c) h
  | reset i => exact forall_mem_modify hreset h
  | clone i =>
      intro t ht
      rcases List.mem_append.mp ht with hmem | hclone
      · exact h t hmem
      · rw [Option.mem_toList] at hclone
        exact h t (List.mem_of_getElem? hclone)
  | restore i j =>
      refine forall_mem_modify (fun t ht => ?_) h
      cases hj : s.buffers[j]? with
      | none => exact ht
      | some u => exact h u (List.mem_of_getElem? hj)
  | take i => exact h

/-- What pushing and resetting keep of a single buffer, every action keeps of all. -/
theorem forall_mem_after (hpush : ∀ t c, P t → P (t.push c)) (hreset : ∀ t, P t → P t.reset)
    (h : ∀ t ∈ s.buffers, P t) (actions : List Action) : ∀ t ∈ (s.after actions).buffers, P t := by
  induction actions generalizing s with
  | nil => exact h
  | cons a actions ih => exact ih (forall_mem_act hpush hreset h a)

end Invariant

/-- The invariant of the histories: it holds of an empty buffer without a history, and
pushing and resetting keep it. -/
theorem reflects_after (size : Nat) (grows : Bool) (actions : List Action) :
    ∀ t ∈ ((start (withCapacity size grows)).after actions).buffers, t.Reflects size grows := by
  refine forall_mem_after (fun _ c h => h.push c) (fun _ h => h.reset) ?_ actions
  intro t ht
  obtain rfl := List.mem_singleton.mp ht
  exact .of_toList (toList_withCapacity _ _) rfl fun _ => capacity_withCapacity _ _

/-! ### What does not show -/

section Alike

variable {all all' : List Recorded} (h : all'.map Recorded.seen = all.map Recorded.seen)
include h

/-- Under one number stand two buffers that look the same, or none. -/
theorem getElem?_of_map_seen (i : Nat) :
    (all'[i]? = none ∧ all[i]? = none) ∨
      ∃ t' t, all'[i]? = some t' ∧ all[i]? = some t ∧ t'.seen = t.seen := by
  have hi : all'[i]?.map Recorded.seen = all[i]?.map Recorded.seen := by
    rw [← List.getElem?_map, h, List.getElem?_map]
  cases ht : all[i]? with
  | none =>
      rw [ht, Option.map_none, Option.map_eq_none_iff] at hi
      exact .inl ⟨hi, rfl⟩
  | some t =>
      rw [ht, Option.map_some, Option.map_eq_some_iff] at hi
      obtain ⟨t', ht', hseen⟩ := hi
      exact .inr ⟨t', t, ht', rfl, hseen⟩

theorem map_seen_modify {f f' : Recorded → Recorded}
    (hf : ∀ t t' : Recorded, t'.seen = t.seen → (f' t').seen = (f t).seen) (i : Nat) :
    (all'.modify i f').map Recorded.seen = (all.modify i f).map Recorded.seen := by
  apply List.ext_getElem?
  intro k
  simp only [List.getElem?_map, List.getElem?_modify]
  obtain ⟨hnone', hnone⟩ | ⟨t', t, ht', ht, hseen⟩ := getElem?_of_map_seen h k
  · rw [hnone', hnone]
    rfl
  · rw [ht', ht]
    by_cases hik : i = k
    · simpa [hik] using hf t t' hseen
    · simpa [hik] using hseen

end Alike

section Answers

variable {s s' : Bench}

theorem seen_act (h : s'.seen = s.seen) (a : Action) :
    s'.fault? a = s.fault? a ∧ (s'.act a).seen = (s.act a).seen := by
  obtain ⟨hbuffers, htaken⟩ := Prod.mk.inj h
  cases a with
  | push i c =>
      refine ⟨?_, Prod.ext (map_seen_modify hbuffers (fun _ _ ht => Recorded.seen_push ht c) i) htaken⟩
      obtain ⟨hnone', hnone⟩ | ⟨t', t, ht', ht, hseen⟩ := getElem?_of_map_seen hbuffers i
      · rw [fault?, fault?, hnone', hnone]
      · rw [fault?, fault?, ht', ht]
        exact ((seen_eq_iff.mp hseen).fill_singleton c).1
  | reset i =>
      exact ⟨rfl, Prod.ext (map_seen_modify hbuffers (fun _ _ => Recorded.seen_reset) i) htaken⟩
  | clone i =>
      refine ⟨rfl, Prod.ext ?_ htaken⟩
      simp only [act, seen, List.map_append, hbuffers]
      obtain ⟨hnone', hnone⟩ | ⟨t', t, ht', ht, hseen⟩ := getElem?_of_map_seen hbuffers i
      · rw [hnone', hnone]
      · rw [ht', ht]
        simpa using hseen
  | restore i j =>
      refine ⟨rfl, Prod.ext (map_seen_modify hbuffers (fun u u' hu => ?_) i) htaken⟩
      obtain ⟨hnone', hnone⟩ | ⟨t', t, ht', ht, hseen⟩ := getElem?_of_map_seen hbuffers j
      · rw [hnone', hnone]
        exact hu
      · rw [ht', ht]
        exact hseen
  | take i =>
      refine ⟨rfl, Prod.ext hbuffers ?_⟩
      simp only [act, seen, htaken]
      obtain ⟨hnone', hnone⟩ | ⟨t', t, ht', ht, hseen⟩ := getElem?_of_map_seen hbuffers i
      · rw [hnone', hnone]
      · have htext : t'.buffer.text = t.buffer.text := congrArg Seen.text hseen
        rw [ht', ht, Option.map_some, Option.map_some, htext]

/-- Benches that look the same look the same whatever is done to both. -/
theorem answers_eq_of_seen_eq (h : s'.seen = s.seen) (actions : List Action) :
    s'.answers actions = s.answers actions := by
  induction actions generalizing s s' with
  | nil => rfl
  | cons a actions ih =>
      obtain ⟨hfault, hseen⟩ := seen_act h a
      rw [answers, answers, hfault, hseen, ih hseen]

end Answers

/-! ### What is not written to -/

section Apart

variable {s : Bench}

theorem getElem?_act {a : Action} {i : Nat} {t : Recorded} (hi : s.buffers[i]? = some t)
    (h : a.target? ≠ some i) : (s.act a).buffers[i]? = some t := by
  rw [← hi]
  cases a with
  | push j c | reset j | restore j k =>
      have hne : j ≠ i := fun heq => h (congrArg some heq)
      exact List.getElem?_modify_ne _ _ hne
  | clone j =>
      obtain ⟨hlt, -⟩ := List.getElem?_eq_some_iff.mp hi
      exact List.getElem?_append_left hlt
  | take j => rfl

theorem getElem?_after {actions : List Action} {i : Nat} {t : Recorded}
    (hi : s.buffers[i]? = some t) (h : ∀ a ∈ actions, a.target? ≠ some i) :
    (s.after actions).buffers[i]? = some t := by
  induction actions generalizing s with
  | nil => exact hi
  | cons a actions ih =>
      obtain ⟨ha, hothers⟩ := List.forall_mem_cons.mp h
      exact ih (getElem?_act hi ha) hothers

theorem taken_after (s : Bench) (actions : List Action) : s.taken <+: (s.after actions).taken := by
  induction actions generalizing s with
  | nil => exact List.prefix_rfl
  | cons a actions ih =>
      refine List.IsPrefix.trans ?_ (ih (s.act a))
      cases a with
      | take i => exact List.prefix_append _ _
      | _ => exact List.prefix_rfl

end Apart

/-! ### Pushing -/

/-- How the buffer of number `i` takes a character. -/
structure TakesPush (grows : Bool) (s : Bench) (i : Nat) (t : Recorded) (c : Char) : Prop where
  refused : ∀ e, s.fault? (.push i c) = some e ↔
    grows = false ∧ t.buffer.count = t.buffer.capacity ∧ e = ⟨t.buffer.capacity⟩
  /-- Not a slot changes, of this buffer or of another. -/
  unchanged : ∀ e, s.fault? (.push i c) = some e →
    (s.act (.push i c)).buffers.map Recorded.buffer = s.buffers.map Recorded.buffer
  /-- No check fails, unless the buffer grows to `2 ^ 61` characters or more. -/
  checked : (t.buffer.growable = true → t.buffer.count = t.buffer.capacity →
      t.buffer.grownCapacity ≤ maxCapacity) →
    t.buffer.push? c = some (t.buffer.fill [c]).toExcept

theorem map_buffer_modify {all : List Recorded} {i : Nat} {f : Recorded → Recorded}
    (hf : ∀ t, all[i]? = some t → (f t).buffer = t.buffer) :
    (all.modify i f).map Recorded.buffer = all.map Recorded.buffer := by
  apply List.ext_getElem?
  intro k
  simp only [List.getElem?_map, List.getElem?_modify]
  cases hk : all[k]? with
  | none => rfl
  | some t =>
      by_cases hik : i = k
      · subst hik
        simpa using hf t hk
      · simp [hik]

theorem takesPush {grows : Bool} {s : Bench} {i : Nat} {t : Recorded}
    (hi : s.buffers[i]? = some t) (hgrows : t.buffer.growable = grows) (c : Char) :
    s.TakesPush grows i t c := by
  have hfault : s.fault? (.push i c) = (t.buffer.fill [c]).fault := by
    rw [fault?, hi, Option.bind_some]
  refine ⟨?_, ?_, ?_⟩
  · intro e
    rw [hfault, ← hgrows]
    exact fault_fill_singleton_iff
  · intro e he
    rw [hfault] at he
    refine map_buffer_modify fun u hu => ?_
    obtain rfl : t = u := Option.some.inj (hi.symm.trans hu)
    exact buffer_fill_singleton_of_refused he
  · intro hrequest
    rw [toExcept_fill_singleton]
    exact push?_eq_some_of_grownCapacity_le hrequest c

/-- The bench with another buffer under the number, if there is one under it. -/
def put (s : Bench) (i : Nat) (t : Recorded) : Bench := { s with buffers := s.buffers.set i t }

theorem seen_put {t t' : Recorded} (h : Alike t.buffer t'.buffer) (s : Bench) (i : Nat) :
    (s.put i t').seen = (s.put i t).seen := by
  have hseen : t'.seen = t.seen := seen_eq_iff.mpr h
  simp only [seen, put, List.map_set, hseen]

end Bench

/-- What comes of the buffer stands for lists of characters. -/
structure RefinesLists (size : Nat) (grows : Bool) (first : TextBuffer) : Prop where
  reflects : ∀ actions, ∀ t ∈ ((Bench.start first).after actions).buffers, t.Reflects size grows
  pushes : ∀ actions i t, ((Bench.start first).after actions).buffers[i]? = some t →
    ∀ c, ((Bench.start first).after actions).TakesPush grows i t c
  /-- The slots past the count do not show, whatever is done afterwards. -/
  alike : ∀ (s : Bench) (i : Nat) (t t' : Recorded), Alike t.buffer t'.buffer →
    ∀ actions, (s.put i t').answers actions = (s.put i t).answers actions
  /-- A buffer is the same, and so is its clone, until it is written to itself. -/
  apart : ∀ (s : Bench) (i : Nat) (t : Recorded) (actions : List Action),
    s.buffers[i]? = some t → (∀ a ∈ actions, a.target? ≠ some i) →
      (s.after actions).buffers[i]? = some t
  taken : ∀ (s : Bench) (actions : List Action), s.taken <+: (s.after actions).taken

/-- A buffer of any size that can be requested stands for a list of characters, and so
do all that are cloned from it. -/
theorem exists_refinesLists {size : Nat} (hsize : size ≤ maxCapacity) (grows : Bool) :
    ∃ first, withCapacity? size grows = some first ∧ RefinesLists size grows first := by
  refine ⟨_, if_pos hsize, ?_⟩
  have hreflects := Bench.reflects_after size grows
  refine ⟨hreflects, ?_, ?_, ?_, Bench.taken_after⟩
  · intro actions i t hi c
    have ht := hreflects actions t (List.mem_of_getElem? hi)
    exact Bench.takesPush hi ht.growable c
  · intro s i t t' halike actions
    exact Bench.answers_eq_of_seen_eq (Bench.seen_put halike s i) actions
  · intro s i t actions hi hothers
    exact Bench.getElem?_after hi hothers

/-- The clone keeps its two characters, where the first buffer refused a third, was
reset and holds one with a stale one behind it. -/
theorem exists_refinesLists_two :
    2 ≤ maxCapacity ∧ ∃ first, withCapacity? 2 false = some first ∧ RefinesLists 2 false first ∧
      (((Bench.start first).after
          [.push 0 'a', .push 0 'b', .clone 0, .push 0 'c', .reset 0, .push 0 'z']).buffers.map
        fun t => (t.buffer.slots, t.buffer.text, live t.history)) =
        [(#['z', 'b'], "z", ['z']), (#['a', 'b'], "ab", ['a', 'b'])] := by
  obtain ⟨first, hfirst, hrefines⟩ := @exists_refinesLists 2 (by decide) false
  cases hfirst
  exact ⟨by decide, _, rfl, hrefines, by decide⟩

end Lexing.TextBuffer
