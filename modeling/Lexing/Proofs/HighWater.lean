import Lexing.Proofs.Growing
import Lexing.Proofs.Histories
import Mathlib.Algebra.Group.Nat.Defs
import Mathlib.Data.List.DropRight
import Mathlib.Data.Set.Operations
import Mathlib.Order.Bounds.Defs
import Mathlib.Order.Monotone.Basic

/-!
# The capacity follows the largest count

A buffer that grows is pushed into and reset, in any order. Its capacity goes up
a ladder whose rungs are fixed by the capacity that it was made with, and stands
on the lowest rung that the largest count so far fits under. A reset hides this
count, and the order of pushes and resets matters only through it.

Each use is a climb to the count behind it (`climbs_use`), and climbs compose
(`Climbs.append`). So a run of uses is a climb to the largest count on the way
(`climbs_after`), from whatever buffer it sets out.
-/

namespace Lexing.TextBuffer

/-! ## The ladder of capacities -/

/-- The capacity that `k` changes of storage lead to. -/
def rung (size k : Nat) : Nat := 2 ^ k * (size + 2) - 2

@[simp] theorem rung_zero (size : Nat) : rung size 0 = size := by simp [rung]

theorem rung_succ (size k : Nat) : rung size (k + 1) = 2 * (rung size k + 1) := by
  have hpos : size + 2 ≤ 2 ^ k * (size + 2) := Nat.le_mul_of_pos_left _ (Nat.two_pow_pos k)
  rw [rung, rung, Nat.pow_succ', Nat.mul_assoc]
  omega

/-- The ladder of a buffer that has grown is the rest of its first ladder. -/
theorem rung_grown (size k : Nat) : rung (2 * (size + 1)) k = rung size (k + 1) := by
  have hdouble : 2 * (size + 1) + 2 = 2 * (size + 2) := by omega
  rw [rung, rung, hdouble, Nat.pow_succ, Nat.mul_assoc]

theorem strictMono_rung (size : Nat) : StrictMono (rung size) := by
  refine strictMono_nat_of_lt_succ fun k => ?_
  rw [rung_succ]
  omega

theorem Chain.eq_rung {a b : Nat} {growths : List Growth} (h : Chain a growths b) :
    b = rung a growths.length := by
  induction h with
  | nil a => exact (rung_zero a).symm
  | cons _ ih => rw [List.length_cons, ← rung_grown, ← ih]

namespace Climbs

variable {m n capacity last : Nat} {growths : List Growth}

theorem le_last (h : Climbs n capacity growths last) : n ≤ last := by
  induction h with
  | enough h => exact h
  | grow _ _ ih => exact ih

theorem last_le (h : Climbs n capacity growths last) : last ≤ max capacity (2 * n) := by
  induction h with
  | enough _ => exact Nat.le_max_left _ _
  | grow hless _ ih => omega

/-- No rung that is high enough is passed. -/
theorem length_le {k : Nat} (h : Climbs n capacity growths last) (hk : n ≤ rung capacity k) :
    growths.length ≤ k := by
  induction h generalizing k with
  | enough _ => exact Nat.zero_le k
  | grow hless _ ih =>
      cases k with
      | zero =>
          rw [rung_zero] at hk
          omega
      | succ k =>
          rw [← rung_grown] at hk
          exact Nat.succ_le_succ (ih hk)

theorem isLeast_length (h : Climbs n capacity growths last) :
    IsLeast {k | n ≤ rung capacity k} growths.length := by
  have hhigh : n ≤ rung capacity growths.length := by
    rw [← h.chain.eq_rung]
    exact h.le_last
  exact ⟨hhigh, fun k hk => h.length_le hk⟩

/-- A climb ends on the lowest rung that is high enough. -/
theorem isLeast_last (h : Climbs n capacity growths last) :
    IsLeast {c ∈ Set.range (rung capacity) | n ≤ c} last := by
  have hlast : last = rung capacity growths.length := h.chain.eq_rung
  refine ⟨⟨⟨growths.length, hlast.symm⟩, h.le_last⟩, ?_⟩
  rintro c ⟨⟨k, rfl⟩, hk⟩
  rw [hlast]
  exact (strictMono_rung capacity).monotone (h.length_le hk)

/-- What fits already takes no change of storage. -/
theorem raise (h : Climbs n capacity growths last) (hm : m ≤ capacity) :
    Climbs (max m n) capacity growths last := by
  induction h with
  | enough hn => exact .enough (Nat.max_le.mpr ⟨hm, hn⟩)
  | grow hless _ ih => exact .grow (by omega) (ih (by omega))

theorem append {mid : Nat} {growths' : List Growth} (h : Climbs m capacity growths mid)
    (h' : Climbs n mid growths' last) : Climbs (max m n) capacity (growths ++ growths') last := by
  induction h with
  | enough hm => exact h'.raise hm
  | grow hless _ ih => exact .grow (by omega) (ih h')

end Climbs

/-! ## Uses of a buffer -/

/-- What may be done to a buffer. -/
inductive Use where
  | push (c : Char)
  | reset
  deriving DecidableEq, Repr

def Use.isPush : Use → Bool
  | .push _ => true
  | .reset => false

/-- The buffer behind a use. A character that is refused leaves it as it was. -/
def use (b : TextBuffer) : Use → TextBuffer
  | .push c => (b.fill [c]).buffer
  | .reset => b.reset

/-- The changes of storage that a use takes. -/
def growthsOf (b : TextBuffer) : Use → List Growth
  | .push c => (b.fill [c]).growths
  | .reset => []

/-- The buffer behind a use, unless a check fails. -/
def use? (b : TextBuffer) : Use → Option TextBuffer
  | .push c =>
      (b.push? c).map fun
        | .ok b' => b'
        | .error _ => b
  | .reset => some b.reset

def after (b : TextBuffer) (uses : List Use) : TextBuffer := uses.foldl use b

def after? (b : TextBuffer) (uses : List Use) : Option TextBuffer := uses.foldlM use? b

/-- The changes of storage over a run of uses, in order. -/
def growthsOver (b : TextBuffer) : List Use → List Growth
  | [] => []
  | u :: uses => b.growthsOf u ++ (b.use u).growthsOver uses

/-- The largest count on the way, the first one included. -/
def peak (b : TextBuffer) : List Use → Nat
  | [] => b.count
  | u :: uses => max b.count ((b.use u).peak uses)

theorem after_append (b : TextBuffer) (uses more : List Use) :
    b.after (uses ++ more) = (b.after uses).after more :=
  List.foldl_append

/-- The peak is the largest of the counts that the run comes by. -/
theorem isGreatest_peak (b : TextBuffer) (uses : List Use) :
    IsGreatest {n | ∃ front, front <+: uses ∧ (b.after front).count = n} (b.peak uses) := by
  induction uses generalizing b with
  | nil =>
      refine ⟨⟨[], List.prefix_rfl, rfl⟩, ?_⟩
      rintro n ⟨front, hfront, rfl⟩
      rw [List.prefix_nil.mp hfront]
      exact Nat.le_refl _
  | cons u uses ih =>
      obtain ⟨⟨front, hfront, hcount⟩, hothers⟩ := ih (b.use u)
      constructor
      · rcases Nat.le_total b.count ((b.use u).peak uses) with hlater | hfirst
        · refine ⟨u :: front, (List.prefix_cons_inj u).mpr hfront, ?_⟩
          exact hcount.trans (Nat.max_eq_right hlater).symm
        · exact ⟨[], List.nil_prefix, (Nat.max_eq_left hfirst).symm⟩
      · rintro n ⟨front, hfront, rfl⟩
        cases front with
        | nil => exact Nat.le_max_left _ _
        | cons v front =>
            obtain ⟨rfl, hrest⟩ := List.cons_prefix_cons.mp hfront
            exact Nat.le_trans (hothers ⟨front, hrest, rfl⟩) (Nat.le_max_right _ _)

theorem count_le_peak (b : TextBuffer) (uses : List Use) : b.count ≤ b.peak uses :=
  (b.isGreatest_peak uses).2 ⟨[], List.nil_prefix, rfl⟩

/-! ### One use -/

theorem grownCapacity_of_full {b : TextBuffer} (hfull : b.count = b.capacity) :
    b.grownCapacity = 2 * (b.capacity + 1) := by
  rw [grownCapacity, hfull]
  omega

section Growable

variable {b : TextBuffer} (hgrowable : b.growable = true)
include hgrowable

theorem exists_push_eq_ok (c : Char) : ∃ b', b.push c = .ok b' := by
  cases hpush : b.push c with
  | ok b' => exact ⟨b', rfl⟩
  | error e =>
      obtain ⟨-, hfixed, -⟩ := push_eq_error_iff.mp hpush
      rw [hgrowable] at hfixed
      cases hfixed

theorem push_eq_use (c : Char) : b.push c = .ok (b.use (.push c)) := by
  obtain ⟨b', hpush⟩ := exists_push_eq_ok hgrowable c
  have hbuffer : b.use (.push c) = b' := (fill_cons_of_push hpush []).1
  rw [hbuffer, hpush]

theorem growable_use (u : Use) : (b.use u).growable = true := by
  cases u with
  | push c => rw [(sameLimit_of_push (push_eq_use hgrowable c)).growable, hgrowable]
  | reset => exact hgrowable

theorem count_use_push (c : Char) : (b.use (.push c)).count = b.count + 1 :=
  count_of_push (push_eq_use hgrowable c)

/-- A push changes the storage of a full buffer only, to twice one more than it was. -/
theorem growthsOf_push (c : Char) :
    b.growthsOf (.push c) =
      if b.count = b.capacity then [⟨b.capacity, 2 * (b.capacity + 1)⟩] else [] := by
  have hpush := push_eq_use hgrowable c
  have hgrowths : b.growthsOf (.push c) = growthBetween b.capacity (b.use (.push c)).capacity := by
    rw [growthsOf, growths_fill_cons_of_push hpush]
    exact List.append_nil _
  rw [hgrowths]
  split
  · next hfull => rw [capacity_of_push_of_full hpush hfull, growthBetween, if_neg (by omega)]
  · next hnotFull =>
      have hroom := Nat.lt_of_le_of_ne b.count_le_capacity hnotFull
      rw [capacity_of_push_of_room hpush hroom, growthBetween_self]

/-- A use goes up to the count behind it. -/
theorem climbs_use (u : Use) :
    Climbs (b.use u).count b.capacity (b.growthsOf u) (b.use u).capacity := by
  cases u with
  | push c =>
      have hfits : b.Fits [c] := .inl hgrowable
      rw [count_use_push hgrowable]
      exact climbs_fill hfits
  | reset => exact .enough (Nat.zero_le _)

theorem push?_eq_none (hfull : b.count = b.capacity) (hlarge : maxCapacity < b.grownCapacity)
    (c : Char) : b.push? c = none := by
  have hcannot : ¬ b.CanGrow := fun hcan => Nat.not_le.mpr hlarge hcan.2.2
  rw [push?, makeRoom?, if_pos hfull, if_pos hgrowable, if_neg hcannot]

/-- The one check that can fail is the request for storage. -/
theorem use?_eq (hcapacity : b.capacity ≤ maxCapacity) (u : Use) :
    b.use? u = if (b.use u).capacity ≤ maxCapacity then some (b.use u) else none := by
  cases u with
  | reset => exact (if_pos hcapacity).symm
  | push c =>
      have hpush := push_eq_use hgrowable c
      have hchecked (h : b.count = b.capacity → b.grownCapacity ≤ maxCapacity) :
          b.use? (.push c) = some (b.use (.push c)) := by
        rw [use?, push?_eq_some_of_grownCapacity_le (fun _ => h), hpush]
        rfl
      by_cases hfull : b.count = b.capacity
      · rw [capacity_of_push_of_full hpush hfull, ← grownCapacity_of_full hfull]
        split
        · next hfits => exact hchecked fun _ => hfits
        · next hlarge =>
            rw [use?, push?_eq_none hgrowable hfull (Nat.not_le.mp hlarge)]
            rfl
      · have hroom := Nat.lt_of_le_of_ne b.count_le_capacity hfull
        rw [capacity_of_push_of_room hpush hroom, if_pos hcapacity]
        exact hchecked fun h => absurd h hfull

/-! ### Runs of uses -/

theorem growable_after (uses : List Use) : (b.after uses).growable = true := by
  induction uses generalizing b with
  | nil => exact hgrowable
  | cons u uses ih => exact ih (growable_use hgrowable u)

/-- A run of uses goes up to the largest count on the way. -/
theorem climbs_after (uses : List Use) :
    Climbs (b.peak uses) b.capacity (b.growthsOver uses) (b.after uses).capacity := by
  induction uses generalizing b with
  | nil => exact .enough b.count_le_capacity
  | cons u uses ih =>
      -- The count behind the first use is one of the rest; the one before it had its room.
      have hothers := (climbs_use hgrowable u).append (ih (growable_use hgrowable u))
      rw [Nat.max_eq_right (count_le_peak _ uses)] at hothers
      exact hothers.raise b.count_le_capacity

theorem capacity_le_after (uses : List Use) : b.capacity ≤ (b.after uses).capacity :=
  (climbs_after hgrowable uses).chain.le

theorem after?_eq (hcapacity : b.capacity ≤ maxCapacity) (uses : List Use) :
    b.after? uses =
      if (b.after uses).capacity ≤ maxCapacity then some (b.after uses) else none := by
  induction uses generalizing b with
  | nil => exact (if_pos hcapacity).symm
  | cons u uses ih =>
      have hnext := growable_use hgrowable u
      have hle : (b.use u).capacity ≤ (b.after (u :: uses)).capacity :=
        capacity_le_after hnext uses
      rw [after?, List.foldlM_cons, use?_eq hgrowable hcapacity]
      by_cases hfits : (b.use u).capacity ≤ maxCapacity
      · rw [if_pos hfits]
        exact ih hnext hfits
      · -- What could not be requested stays too large.
        rw [if_neg hfits, if_neg (by omega)]
        rfl

/-- What is held are the characters pushed since the last reset. -/
theorem count_after (hempty : b.count = 0) (uses : List Use) :
    (b.after uses).count = (uses.rtakeWhile Use.isPush).length := by
  induction uses using List.reverseRecOn with
  | nil => exact hempty
  | append_singleton uses u ih =>
      rw [after_append]
      cases u with
      | push c =>
          rw [List.rtakeWhile_concat_pos _ _ _ rfl, List.length_append, ← ih]
          exact count_use_push (growable_after hgrowable uses) c
      | reset =>
          rw [List.rtakeWhile_concat_neg _ _ _ Bool.false_ne_true]
          rfl

end Growable

/-! ## The law of growth -/

/-- How the storage of a buffer that was made for `size` characters has grown
behind the uses. -/
structure GrowsToPeak (size : Nat) (first : TextBuffer) (uses : List Use) : Prop where
  /-- The run is stopped exactly if its storage comes to `2 ^ 61` characters or more. -/
  checked : first.after? uses =
    if (first.after uses).capacity ≤ maxCapacity then some (first.after uses) else none
  /-- No push since the last reset was refused. -/
  count : (first.after uses).count = (uses.rtakeWhile Use.isPush).length
  peak : IsGreatest {n | ∃ front, front <+: uses ∧ (first.after front).count = n}
    (first.peak uses)
  capacity : IsLeast {c ∈ Set.range (rung size) | first.peak uses ≤ c}
    (first.after uses).capacity
  /-- The rung is numbered by how often the storage has changed. -/
  number : (first.after uses).capacity = rung size (first.growthsOver uses).length
  /-- And no more often than the peak takes. -/
  changes : IsLeast {k | first.peak uses ≤ rung size k} (first.growthsOver uses).length
  chain : Chain size (first.growthsOver uses) (first.after uses).capacity
  /-- The next push changes the storage exactly if the buffer is full. -/
  growths : ∀ c, (first.after uses).growthsOf (.push c) =
    if (first.after uses).count = (first.after uses).capacity then
      [⟨(first.after uses).capacity, 2 * ((first.after uses).capacity + 1)⟩]
    else []
  /-- A full buffer asks for twice one more than its count, since twice its capacity is less. -/
  grown : (first.after uses).count = (first.after uses).capacity →
    2 * (first.after uses).capacity < 2 * ((first.after uses).count + 1) ∧
      (first.after uses).grownCapacity = 2 * ((first.after uses).capacity + 1)
  le : (first.after uses).capacity ≤ max size (2 * first.peak uses)
  kept : ∀ more, (first.after uses).capacity ≤ (first.after (uses ++ more)).capacity
  /-- Nothing but the peak decides. -/
  alone : ∀ uses', first.peak uses' = first.peak uses →
    (first.after uses').capacity = (first.after uses).capacity ∧
      first.growthsOver uses' = first.growthsOver uses

/-- A buffer of any size that can be requested grows by its largest count alone. -/
theorem exists_growsToPeak {size : Nat} (hsize : size ≤ maxCapacity) :
    ∃ first, withCapacity? size true = some first ∧ ∀ uses, first.GrowsToPeak size uses := by
  refine ⟨withCapacity size true, if_pos hsize, fun uses => ?_⟩
  have hgrowable : (withCapacity size true).growable = true := rfl
  have hcapacity := capacity_withCapacity size true
  have hclimbs := climbs_after hgrowable uses
  have hbehind := growable_after hgrowable uses
  rw [hcapacity] at hclimbs
  refine
    { checked := after?_eq hgrowable (hcapacity.trans_le hsize) uses
      count := count_after hgrowable rfl uses
      peak := isGreatest_peak _ uses
      capacity := hclimbs.isLeast_last
      number := hclimbs.chain.eq_rung
      changes := hclimbs.isLeast_length
      chain := hclimbs.chain
      growths := growthsOf_push hbehind
      grown := fun hfull => ⟨by omega, grownCapacity_of_full hfull⟩
      le := hclimbs.last_le
      kept := fun more => ?_
      alone := fun uses' hpeak => ?_ }
  · rw [after_append]
    exact capacity_le_after hbehind more
  · have hclimbs' := climbs_after hgrowable uses'
    rw [hpeak, hcapacity] at hclimbs'
    obtain ⟨hgrowths, hlast⟩ := hclimbs.unique hclimbs'
    exact ⟨hlast, hgrowths⟩

/-- Five characters at once, or behind one that was reset: both runs take the
storage from one character to four and to ten. -/
theorem exists_growsToPeak_one :
    1 ≤ maxCapacity ∧ ∃ first, withCapacity? 1 true = some first ∧
      (∀ uses, first.GrowsToPeak 1 uses) ∧
      ∀ uses ∈ [[.push 'a', .push 'b', .push 'c', .push 'd', .push 'e', .reset, .push 'f'],
          [.push 'a', .reset, .push 'b', .push 'c', .push 'd', .push 'e', .push 'f']],
        (first.peak uses, (first.after uses).capacity, first.growthsOver uses) =
          (5, rung 1 2, [⟨1, 4⟩, ⟨4, 10⟩]) := by
  obtain ⟨first, hfirst, hlaw⟩ := @exists_growsToPeak 1 (by decide)
  cases hfirst
  exact ⟨by decide, _, rfl, hlaw, by decide⟩

end Lexing.TextBuffer
