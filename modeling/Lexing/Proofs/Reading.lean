import Lexing.Reader

/-!
# Reading a run of characters

A text divides in one way into the longest run of characters of a class and
what follows it. A reader that skips such a run, or takes it character by
character, stands behind it: `Reader.past` says where.
-/

namespace Lexing

/-- The text ends, or goes on with a character outside of the class. -/
def EndsRun (p : Char → Bool) (rest : List Char) : Prop := ∀ c ∈ rest.head?, p c = false

namespace EndsRun

variable {p : Char → Bool}

@[simp] theorem nil (p : Char → Bool) : EndsRun p [] := by simp [EndsRun]

@[simp] theorem cons {c : Char} {cs : List Char} : EndsRun p (c :: cs) ↔ p c = false := by
  simp [EndsRun]

theorem of_forall (rest : List Char) (h : ∀ c, p c = false) : EndsRun p rest := fun c _ => h c

/-- What ends a run still does when the text goes on, unless it was empty. -/
theorem append {cs ds : List Char} (hcs : EndsRun p cs) (hds : cs = [] → EndsRun p ds) :
    EndsRun p (cs ++ ds) := by
  cases cs with
  | nil => exact hds rfl
  | cons c cs => exact hcs

theorem mono {q : Char → Bool} {cs : List Char} (h : EndsRun p cs)
    (hle : ∀ c, p c = false → q c = false) : EndsRun q cs :=
  fun c hc => hle c (h c hc)

/-- What ends a run still does when the text is cut off later. -/
theorem of_append {cs ds : List Char} (h : EndsRun p (cs ++ ds)) : EndsRun p cs := by
  cases cs with
  | nil => exact nil p
  | cons c cs => exact h

end EndsRun

theorem exists_run (p : Char → Bool) (cs : List Char) :
    ∃ run rest, cs = run ++ rest ∧ (∀ c ∈ run, p c = true) ∧ EndsRun p rest := by
  induction cs with
  | nil => exact ⟨[], [], rfl, by simp, EndsRun.nil p⟩
  | cons c cs ih =>
      by_cases hc : p c = true
      · obtain ⟨run, rest, rfl, hrun, hrest⟩ := ih
        refine ⟨c :: run, rest, rfl, ?_, hrest⟩
        intro d hd
        rcases List.mem_cons.mp hd with rfl | hd
        · exact hc
        · exact hrun d hd
      · exact ⟨[], c :: cs, rfl, by simp, by simpa using hc⟩

theorem takeWhile_append_of_endsRun {p : Char → Bool} {run rest : List Char}
    (hrun : ∀ c ∈ run, p c = true) (hrest : EndsRun p rest) :
    (run ++ rest).takeWhile p = run := by
  rw [List.takeWhile_append_of_pos hrun]
  cases rest with
  | nil => simp
  | cons c rest =>
      rw [EndsRun.cons] at hrest
      simp [hrest]

theorem dropWhile_append_of_endsRun {p : Char → Bool} {run rest : List Char}
    (hrun : ∀ c ∈ run, p c = true) (hrest : EndsRun p rest) :
    (run ++ rest).dropWhile p = rest := by
  rw [List.dropWhile_append_of_pos hrun]
  cases rest with
  | nil => rfl
  | cons c rest =>
      rw [EndsRun.cons] at hrest
      rw [List.dropWhile_cons_of_neg (by rw [hrest]; exact Bool.false_ne_true)]

namespace Reader

/-- The reader that has read `cs` and has `rest` left. -/
def past (r : Reader) (cs rest : List Char) : Reader :=
  { r with rest, position := r.position.advanceOver r.tracking cs }

@[simp] theorem rest_past (r : Reader) (cs rest : List Char) : (r.past cs rest).rest = rest := rfl

@[simp] theorem position_past (r : Reader) (cs rest : List Char) :
    (r.past cs rest).position = r.position.advanceOver r.tracking cs := rfl

@[simp] theorem tracking_past (r : Reader) (cs rest : List Char) :
    (r.past cs rest).tracking = r.tracking := rfl

@[simp] theorem past_past (r : Reader) (cs ds mid rest : List Char) :
    (r.past cs mid).past ds rest = r.past (cs ++ ds) rest := by
  simp [past]

theorem past_nil {r : Reader} {rest : List Char} (h : r.rest = rest) : r.past [] rest = r := by
  subst h
  rfl

theorem skip_eq_past {r : Reader} (cs : List Char) {rest : List Char} (h : r.rest = cs ++ rest) :
    r.skip cs.length = r.past cs rest := by
  simp [skip, past, h]

theorem skip_one_eq_past {r : Reader} {c : Char} {rest : List Char} (h : r.rest = c :: rest) :
    r.skip 1 = r.past [c] rest :=
  skip_eq_past [c] h

theorem takeWhile_eq_past {r : Reader} {p : Char → Bool} {run rest : List Char}
    (h : r.rest = run ++ rest) (hrun : ∀ c ∈ run, p c = true) (hrest : EndsRun p rest) :
    r.takeWhile p = (run, r.past run rest) := by
  have htake : r.rest.takeWhile p = run := by
    rw [h, takeWhile_append_of_endsRun hrun hrest]
  simp only [takeWhile, htake, skip_eq_past run h]

theorem takeWhile_eq (r : Reader) (p : Char → Bool) :
    r.takeWhile p = (r.rest.takeWhile p, r.past (r.rest.takeWhile p) (r.rest.dropWhile p)) := by
  rw [takeWhile, skip_eq_past _ List.takeWhile_append_dropWhile.symm]

end Reader

end Lexing
