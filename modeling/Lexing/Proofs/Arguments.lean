import Lexing.CommandLine.Options
import Lexing.Proofs.Numerals
import Mathlib.Data.List.Basic

/-!
# What arguments choose

An argument is valid by itself: it is one of three flags, or it gives one of two
options its value. So the first argument that is not valid decides how a list is
refused, whatever stands around it. Of a list of valid arguments only this
matters: which flags are among them, and which argument for either option comes
last.
-/

namespace Lexing.CommandLine

/-! ## Valid arguments -/

inductive Flag where
  | ignoreLineBreaks
  | fixedBuffer
  | json
  deriving DecidableEq, Repr

/-- The argument that is the flag. -/
def Flag.name : Flag → String
  | ignoreLineBreaks => "--ignore-line-breaks"
  | fixedBuffer => "--no-buffer-growth"
  | json => "--json"

/-- How a mode may be named. -/
def trackingSpellings : List (String × LineTracking) :=
  [("whitespace", .whitespace), ("line-break", .lineBreak), ("linebreak", .lineBreak)]

/-- What a valid argument chooses. -/
inductive Choice where
  | flag (f : Flag)
  | tracking (mode : LineTracking)
  | capacity (n : Nat)
  deriving DecidableEq, Repr

/-- The valid arguments, each with what it chooses. -/
inductive Chooses : String → Choice → Prop
  | flag (f : Flag) : Chooses f.name (.flag f)
  | tracking {spelling : String} {mode : LineTracking} (h : (spelling, mode) ∈ trackingSpellings) :
      Chooses ("--line-tracking=" ++ spelling) (.tracking mode)
  | capacity {text : String} {n : Nat} (h : Decimal.Numeral text.toList n) (hn : n < 2 ^ 64) :
      Chooses ("--buffer-capacity=" ++ text) (.capacity n)

def Valid (arg : String) : Prop := ∃ choice, Chooses arg choice

/-- Whether the argument is for the option that `front` stands for. -/
def isFor (front arg : String) : Bool := front.toList.isPrefixOf arg.toList

/-- The other arguments, each with the message about it. -/
inductive Refused : String → String → Prop
  | tracking {spelling : String} (h : ∀ mode, (spelling, mode) ∉ trackingSpellings) :
      Refused ("--line-tracking=" ++ spelling)
        ("unknown line tracking '" ++ spelling ++ "' (expected 'whitespace' or 'line-break')")
  | capacity {text : String} (h : ∀ n < 2 ^ 64, ¬ Decimal.Numeral text.toList n) :
      Refused ("--buffer-capacity=" ++ text) ("invalid buffer capacity '" ++ text ++ "'")
  | unknown {arg : String} (hflag : ∀ f : Flag, arg ≠ f.name)
      (htracking : isFor "--line-tracking=" arg = false)
      (hcapacity : isFor "--buffer-capacity=" arg = false) :
      Refused arg ("unknown option '" ++ arg ++ "'")

/-! ## Fronts of arguments -/

theorem isFor_iff {front arg : String} : isFor front arg = true ↔ ∃ rest, arg = front ++ rest := by
  rw [isFor, List.isPrefixOf_iff_prefix]
  constructor
  · rintro ⟨rest, hrest⟩
    refine ⟨String.ofList rest, String.toList_inj.mp ?_⟩
    rw [String.toList_append, String.toList_ofList, hrest]
  · rintro ⟨rest, rfl⟩
    exact ⟨rest.toList, String.toList_append.symm⟩

theorem behind?_append (front rest : String) : behind? front (front ++ rest) = some rest := by
  have hlist : front.toList.isPrefixOf? (front ++ rest).toList = some rest.toList :=
    List.isPrefixOf?_eq_some_iff_append_eq.mpr String.toList_append.symm
  rw [behind?, hlist, Option.map_some, String.ofList_toList]

theorem behind?_eq_none {front arg : String} (h : isFor front arg = false) :
    behind? front arg = none := by
  cases hlist : front.toList.isPrefixOf? arg.toList with
  | none => rw [behind?, hlist, Option.map_none]
  | some rest =>
      have hlong := List.isPrefixOf?_eq_some_iff_append_eq.mp hlist
      rw [isFor, ← hlong, List.isPrefixOf_iff_prefix.mpr (List.prefix_append _ _)] at h
      cases h

theorem Flag.name_inj {f g : Flag} : f.name = g.name ↔ f = g := by
  cases f <;> cases g <;> decide

/-- An argument with a value is no flag. -/
theorem Flag.isFor_name (f : Flag) :
    isFor "--line-tracking=" f.name = false ∧ isFor "--buffer-capacity=" f.name = false := by
  cases f <;> decide

theorem ne_name_of_isFor {arg : String}
    (h : isFor "--line-tracking=" arg = true ∨ isFor "--buffer-capacity=" arg = true) (f : Flag) :
    arg ≠ f.name := by
  rintro rfl
  rw [f.isFor_name.1, f.isFor_name.2] at h
  simp at h

theorem isFor_tracking (spelling : String) :
    isFor "--line-tracking=" ("--line-tracking=" ++ spelling) = true ∧
      isFor "--buffer-capacity=" ("--line-tracking=" ++ spelling) = false := by
  rw [isFor, isFor, String.toList_append]
  exact ⟨by simp, rfl⟩

theorem isFor_capacity (text : String) :
    isFor "--line-tracking=" ("--buffer-capacity=" ++ text) = false ∧
      isFor "--buffer-capacity=" ("--buffer-capacity=" ++ text) = true := by
  rw [isFor, isFor, String.toList_append]
  exact ⟨rfl, by simp⟩

theorem ofSpelling?_eq_some_iff {spelling : String} {mode : LineTracking} :
    LineTracking.ofSpelling? spelling = some mode ↔ (spelling, mode) ∈ trackingSpellings := by
  unfold LineTracking.ofSpelling?
  split <;> simp_all [trackingSpellings, eq_comm]

/-! ## One argument -/

namespace Options

variable {o : Options} {arg : String} {choice : Choice}

/-- The options with one thing chosen. -/
def choose (o : Options) : Choice → Options
  | .flag .ignoreLineBreaks => o.setIgnoreLineBreaks
  | .flag .fixedBuffer => o.setFixedBuffer
  | .flag .json => { o with json := true }
  | .tracking mode => o.setTracking mode
  | .capacity n => o.setCapacity n

theorem apply_name (o : Options) (f : Flag) : o.apply f.name = .ok (o.choose (.flag f)) := by
  cases f <;> rfl

theorem apply_of_ne_name (o : Options) (h : ∀ f : Flag, arg ≠ f.name) :
    o.apply arg = o.applyValued arg := by
  have hignore : arg ≠ "--ignore-line-breaks" := h .ignoreLineBreaks
  have hfixed : arg ≠ "--no-buffer-growth" := h .fixedBuffer
  have hjson : arg ≠ "--json" := h .json
  rw [apply, if_neg hignore, if_neg hfixed, if_neg hjson]

theorem apply_tracking (o : Options) (spelling : String) :
    o.apply ("--line-tracking=" ++ spelling) =
      match LineTracking.ofSpelling? spelling with
      | some mode => .ok (o.setTracking mode)
      | none => .error (.unknownTracking spelling) := by
  have hfront := isFor_tracking spelling
  rw [apply_of_ne_name o (ne_name_of_isFor (.inl hfront.1))]
  cases hmode : LineTracking.ofSpelling? spelling <;> simp only [applyValued, behind?_append, hmode]

theorem apply_capacity (o : Options) (text : String) :
    o.apply ("--buffer-capacity=" ++ text) =
      match Decimal.parse? Settings.capacityBound text with
      | some n => .ok (o.setCapacity n)
      | none => .error (.invalidCapacity text) := by
  have hfront := isFor_capacity text
  rw [apply_of_ne_name o (ne_name_of_isFor (.inr hfront.2))]
  cases hvalue : Decimal.parse? Settings.capacityBound text <;>
    simp only [applyValued, behind?_eq_none hfront.1, behind?_append, hvalue]

theorem apply_of_chooses (o : Options) (h : Chooses arg choice) :
    o.apply arg = .ok (o.choose choice) := by
  cases h with
  | flag f => exact o.apply_name f
  | tracking h => rw [apply_tracking, ofSpelling?_eq_some_iff.mpr h, choose]
  | @capacity text n h hn =>
      have hparse : Decimal.parse? Settings.capacityBound text = some n :=
        Decimal.parse?_eq_some_iff.mpr ⟨h, hn⟩
      rw [apply_capacity, hparse, choose]

/-- An argument is valid, or it is refused wherever it stands. -/
theorem valid_or_refused (arg : String) :
    Valid arg ∨ ∃ e : OptionError, Refused arg e.message ∧ ∀ o : Options, o.apply arg = .error e := by
  by_cases hflag : ∃ f : Flag, arg = f.name
  · obtain ⟨f, rfl⟩ := hflag
    exact .inl ⟨_, .flag f⟩
  have hne : ∀ f : Flag, arg ≠ f.name := fun f hf => hflag ⟨f, hf⟩
  cases htracking : isFor "--line-tracking=" arg with
  | true =>
      obtain ⟨spelling, rfl⟩ := isFor_iff.mp htracking
      cases hmode : LineTracking.ofSpelling? spelling with
      | some mode => exact .inl ⟨_, .tracking (ofSpelling?_eq_some_iff.mp hmode)⟩
      | none =>
          refine .inr ⟨.unknownTracking spelling, .tracking ?_, ?_⟩
          · intro mode hmem
            rw [ofSpelling?_eq_some_iff.mpr hmem] at hmode
            cases hmode
          · intro o
            rw [apply_tracking, hmode]
  | false =>
      cases hcapacity : isFor "--buffer-capacity=" arg with
      | true =>
          obtain ⟨text, rfl⟩ := isFor_iff.mp hcapacity
          cases hn : Decimal.parse? Settings.capacityBound text with
          | some n =>
              obtain ⟨hnumeral, hlt⟩ := Decimal.parse?_eq_some_iff.mp hn
              exact .inl ⟨_, .capacity hnumeral hlt⟩
          | none =>
              refine .inr ⟨.invalidCapacity text, .capacity (Decimal.parse?_eq_none_iff.mp hn), ?_⟩
              intro o
              rw [apply_capacity, hn]
      | false =>
          refine .inr ⟨.unknownOption arg, .unknown hne htracking hcapacity, ?_⟩
          intro o
          rw [apply_of_ne_name o hne, applyValued, behind?_eq_none htracking,
            behind?_eq_none hcapacity]

/-- Which mode or capacity an argument chooses is a matter of the argument. -/
theorem choose_eq_of_chooses {choice' : Choice} (h : Chooses arg choice) (h' : Chooses arg choice')
    (o : Options) : o.choose choice = o.choose choice' := by
  have hsame := (o.apply_of_chooses h).symm.trans (o.apply_of_chooses h')
  exact Except.ok.inj hsame

/-! ## Many arguments -/

variable {args before after : List String}

theorem foldlM_apply_cons (h : Chooses arg choice) (o : Options) (args : List String) :
    (arg :: args).foldlM apply o = args.foldlM apply (o.choose choice) := by
  rw [List.foldlM_cons, o.apply_of_chooses h]
  rfl

theorem exists_foldlM_apply_eq_ok (h : ∀ arg ∈ args, Valid arg) (o : Options) :
    ∃ o', args.foldlM apply o = .ok o' := by
  induction args generalizing o with
  | nil => exact ⟨o, rfl⟩
  | cons arg args ih =>
      obtain ⟨⟨choice, harg⟩, hargs⟩ := List.forall_mem_cons.mp h
      rw [foldlM_apply_cons harg]
      exact ih hargs _

/-- The first argument that is not valid ends the reading. -/
theorem foldlM_apply_of_refused {e : OptionError} (hbefore : ∀ b ∈ before, Valid b)
    (harg : ∀ o : Options, o.apply arg = .error e) (after : List String) (o : Options) :
    (before ++ arg :: after).foldlM apply o = .error e := by
  induction before generalizing o with
  | nil =>
      rw [List.nil_append, List.foldlM_cons, harg]
      rfl
  | cons b before ih =>
      obtain ⟨⟨choice, hb⟩, hothers⟩ := List.forall_mem_cons.mp hbefore
      rw [List.cons_append, foldlM_apply_cons hb]
      exact ih hothers _

/-- All arguments are valid, or there is a first one that is not. -/
theorem forall_valid_or_exists_first (args : List String) :
    (∀ arg ∈ args, Valid arg) ∨
      ∃ before arg after, args = before ++ arg :: after ∧ (∀ b ∈ before, Valid b) ∧ ¬ Valid arg := by
  induction args with
  | nil => exact .inl (by simp)
  | cons arg args ih =>
      by_cases harg : Valid arg
      · rcases ih with hall | ⟨before, bad, after, rfl, hbefore, hbad⟩
        · exact .inl (List.forall_mem_cons.mpr ⟨harg, hall⟩)
        · exact .inr ⟨arg :: before, bad, after, rfl, List.forall_mem_cons.mpr ⟨harg, hbefore⟩, hbad⟩
      · exact .inr ⟨[], arg, args, rfl, by simp, harg⟩

/-- The message about a list is that about its first argument that is not valid. -/
theorem parse_of_first (hbefore : ∀ b ∈ before, Valid b) (harg : ¬ Valid arg)
    (after : List String) :
    ∃ e : OptionError, parse (before ++ arg :: after) = .error e ∧ parse [arg] = .error e ∧
      Refused arg e.message := by
  obtain hvalid | ⟨e, hrefused, happly⟩ := valid_or_refused arg
  · exact absurd hvalid harg
  · have hnone : ∀ b ∈ ([] : List String), Valid b := fun _ hb => nomatch hb
    have halone := foldlM_apply_of_refused hnone happly [] {}
    exact ⟨e, foldlM_apply_of_refused hbefore happly after {}, halone, hrefused⟩

/-! ## What valid arguments leave -/

/-- Whether the flag has been given. -/
def isSet (o : Options) : Flag → Bool
  | .ignoreLineBreaks => o.settings.ignoreLineBreaks
  | .fixedBuffer => !o.settings.growable
  | .json => o.json

/-- What an option comes to that had the value `x`: if no argument is for the option,
this value, and otherwise what the last of these chooses. -/
structure IsLast {α : Type} (front : String) (value : α → Choice) (x : α) (args : List String)
    (y : α) : Prop where
  unchanged : (args.filter (isFor front)).getLast? = none → y = x
  chosen : ∀ arg, (args.filter (isFor front)).getLast? = some arg → Chooses arg (value y)

theorem IsLast.cons {α : Type} {front : String} {value : α → Choice} {x y z : α}
    (hfor : isFor front arg = true → Chooses arg (value y)) (hother : isFor front arg = false → y = x)
    (h : IsLast front value y args z) : IsLast front value x (arg :: args) z := by
  cases hfront : isFor front arg with
  | true =>
      -- The argument is the last one for the option if none of those behind it is for it.
      have hlast : (arg :: args.filter (isFor front)).getLast? =
          some ((args.filter (isFor front)).getLast?.getD arg) := List.getLast?_cons
      refine ⟨?_, ?_⟩ <;> rw [List.filter_cons_of_pos hfront, hlast]
      · rintro ⟨⟩
      · rintro last ⟨⟩
        cases hbehind : (args.filter (isFor front)).getLast? with
        | none => exact h.unchanged hbehind ▸ hfor hfront
        | some last => exact h.chosen last hbehind
  | false =>
      refine ⟨?_, ?_⟩ <;> rw [List.filter_cons_of_neg (by simp [hfront])]
      · exact fun hnone => (h.unchanged hnone).trans (hother hfront)
      · exact h.chosen

/-- What the options `o` come to by the arguments. -/
structure ComesTo (o : Options) (args : List String) (o' : Options) : Prop where
  flags : ∀ f : Flag, o'.isSet f = true ↔ o.isSet f = true ∨ f.name ∈ args
  tracking : IsLast "--line-tracking=" .tracking o.settings.tracking args o'.settings.tracking
  capacity : IsLast "--buffer-capacity=" .capacity o.settings.capacity args o'.settings.capacity

theorem isSet_choose_iff (o : Options) (h : Chooses arg choice) (f : Flag) :
    (o.choose choice).isSet f = true ↔ o.isSet f = true ∨ f.name = arg := by
  cases h with
  | flag g =>
      rw [Flag.name_inj]
      cases f <;> cases g <;> simp [choose, isSet, setIgnoreLineBreaks, setFixedBuffer]
  | @tracking spelling mode h =>
      have hne := ne_name_of_isFor (.inl (isFor_tracking spelling).1) f
      cases f <;> simp [choose, isSet, setTracking, hne.symm]
  | @capacity text n h hn =>
      have hne := ne_name_of_isFor (.inr (isFor_capacity text).2) f
      cases f <;> simp [choose, isSet, setCapacity, hne.symm]

theorem tracking_choose (o : Options) (h : Chooses arg choice) :
    (isFor "--line-tracking=" arg = true →
      Chooses arg (.tracking (o.choose choice).settings.tracking)) ∧
    (isFor "--line-tracking=" arg = false →
      (o.choose choice).settings.tracking = o.settings.tracking) := by
  cases h with
  | flag f =>
      rw [f.isFor_name.1]
      exact ⟨by simp, fun _ => by cases f <;> rfl⟩
  | tracking h =>
      rw [(isFor_tracking _).1]
      exact ⟨fun _ => .tracking h, by simp⟩
  | capacity h hn =>
      rw [(isFor_capacity _).1]
      exact ⟨by simp, fun _ => rfl⟩

theorem capacity_choose (o : Options) (h : Chooses arg choice) :
    (isFor "--buffer-capacity=" arg = true →
      Chooses arg (.capacity (o.choose choice).settings.capacity)) ∧
    (isFor "--buffer-capacity=" arg = false →
      (o.choose choice).settings.capacity = o.settings.capacity) := by
  cases h with
  | flag f =>
      rw [f.isFor_name.2]
      exact ⟨by simp, fun _ => by cases f <;> rfl⟩
  | tracking h =>
      rw [(isFor_tracking _).2]
      exact ⟨by simp, fun _ => rfl⟩
  | capacity h hn =>
      rw [(isFor_capacity _).2]
      exact ⟨fun _ => .capacity h hn, by simp⟩

namespace ComesTo

theorem refl (o : Options) : ComesTo o [] o :=
  ⟨by simp, ⟨fun _ => rfl, by simp⟩, ⟨fun _ => rfl, by simp⟩⟩

theorem cons {o' : Options} (harg : Chooses arg choice) (h : ComesTo (o.choose choice) args o') :
    ComesTo o (arg :: args) o' where
  flags f := by
    rw [h.flags f, isSet_choose_iff o harg, List.mem_cons, or_assoc]
  tracking := h.tracking.cons (o.tracking_choose harg).1 (o.tracking_choose harg).2
  capacity := h.capacity.cons (o.capacity_choose harg).1 (o.capacity_choose harg).2

end ComesTo

theorem comesTo_of_foldlM {o' : Options} (h : args.foldlM apply o = .ok o') : ComesTo o args o' := by
  induction args generalizing o with
  | nil =>
      cases h
      exact .refl _
  | cons arg args ih =>
      obtain ⟨choice, harg⟩ | ⟨e, -, happly⟩ := valid_or_refused arg
      · rw [foldlM_apply_cons harg] at h
        exact .cons harg (ih h)
      · rw [List.foldlM_cons, happly] at h
        cases h

/-! ## The same options from other arguments -/

/-- An argument chooses one mode at most, and one capacity at most. -/
theorem tracking_inj {mode mode' : LineTracking} (h : Chooses arg (.tracking mode))
    (h' : Chooses arg (.tracking mode')) : mode = mode' :=
  congrArg (·.settings.tracking) (choose_eq_of_chooses h h' {})

theorem capacity_inj {n n' : Nat} (h : Chooses arg (.capacity n))
    (h' : Chooses arg (.capacity n')) : n = n' :=
  congrArg (·.settings.capacity) (choose_eq_of_chooses h h' {})

theorem IsLast.unique {α : Type} {front : String} {value : α → Choice} {x y z : α}
    {others : List String} (hsame : others.filter (isFor front) = args.filter (isFor front))
    (hinj : ∀ arg y z, Chooses arg (value y) → Chooses arg (value z) → y = z)
    (h : IsLast front value x args y) (h' : IsLast front value x others z) : z = y := by
  cases hlast : (args.filter (isFor front)).getLast? with
  | none => rw [h.unchanged hlast, h'.unchanged (hsame ▸ hlast)]
  | some arg => exact hinj arg z y (h'.chosen arg (hsame ▸ hlast)) (h.chosen arg hlast)

theorem eq_of_isSet_eq {o o' : Options} (hflags : ∀ f, o'.isSet f = o.isSet f)
    (htracking : o'.settings.tracking = o.settings.tracking)
    (hcapacity : o'.settings.capacity = o.settings.capacity) : o' = o := by
  have hignore : o'.settings.ignoreLineBreaks = o.settings.ignoreLineBreaks :=
    hflags .ignoreLineBreaks
  have hgrowable : o'.settings.growable = o.settings.growable :=
    Bool.not_inj (hflags .fixedBuffer)
  have hjson : o'.json = o.json := hflags .json
  obtain ⟨⟨tracking, ignore, capacity, growable⟩, json⟩ := o
  obtain ⟨⟨tracking', ignore', capacity', growable'⟩, json'⟩ := o'
  simp_all

theorem ComesTo.unique {o o₁ o₂ : Options} {others : List String} (h : ComesTo o args o₁)
    (h' : ComesTo o others o₂) (hflags : ∀ f : Flag, f.name ∈ others ↔ f.name ∈ args)
    (htracking : others.filter (isFor "--line-tracking=") =
      args.filter (isFor "--line-tracking="))
    (hcapacity : others.filter (isFor "--buffer-capacity=") =
      args.filter (isFor "--buffer-capacity=")) : o₂ = o₁ := by
  refine eq_of_isSet_eq ?_ ?_ ?_
  · intro f
    rw [Bool.eq_iff_iff, h'.flags, h.flags, hflags]
  · exact h.tracking.unique htracking (fun _ _ _ => tracking_inj) h'.tracking
  · exact h.capacity.unique hcapacity (fun _ _ _ => capacity_inj) h'.capacity

/-! ## Arguments for given options -/

theorem foldlM_apply_map_name (fs : List Flag) (o : Options) :
    (fs.map Flag.name).foldlM apply o = .ok (fs.foldl (fun o f => o.choose (.flag f)) o) := by
  induction fs generalizing o with
  | nil => rfl
  | cons f fs ih =>
      rw [List.map_cons, foldlM_apply_cons (.flag f)]
      exact ih _

theorem numeral_digits (n : Nat) : Decimal.Numeral (Decimal.digits n) n := by
  have hread := Decimal.ofDigits?_digits n
  obtain ⟨hdigits, hvalue⟩ := Decimal.ofDigits?_eq_some_iff.mp hread
  have hnumeral := Decimal.Numeral.plain hdigits
  rwa [hvalue] at hnumeral

theorem exists_parse_eq_ok (o : Options) (h : o.settings.capacity < 2 ^ 64) :
    ∃ args, parse args = .ok o := by
  obtain ⟨spelling, hspelling⟩ : ∃ spelling, (spelling, o.settings.tracking) ∈ trackingSpellings := by
    cases o.settings.tracking with
    | whitespace => exact ⟨"whitespace", by decide⟩
    | lineBreak => exact ⟨"line-break", by decide⟩
  have htracking := Chooses.tracking hspelling
  have hcapacity : Chooses ("--buffer-capacity=" ++ String.ofList (Decimal.digits o.settings.capacity))
      (.capacity o.settings.capacity) := by
    refine .capacity ?_ h
    rw [String.toList_ofList]
    exact numeral_digits _
  let flags := [Flag.ignoreLineBreaks, .fixedBuffer, .json].filter o.isSet
  refine ⟨("--line-tracking=" ++ spelling) ::
    ("--buffer-capacity=" ++ String.ofList (Decimal.digits o.settings.capacity)) ::
      flags.map Flag.name, ?_⟩
  rw [parse, foldlM_apply_cons htracking, foldlM_apply_cons hcapacity, foldlM_apply_map_name]
  obtain ⟨⟨tracking, ignore, capacity, growable⟩, json⟩ := o
  cases ignore <;> cases growable <;> cases json <;> rfl

/-! ## All together -/

/-- How a list of arguments is read. -/
structure ReadsArguments (args : List String) : Prop where
  succeeds : (∃ o, parse args = .ok o) ↔ ∀ arg ∈ args, Valid arg
  /-- The first argument that is not valid is reported as if it stood alone. -/
  fails : ∀ e, parse args = .error e ↔
    ∃ before arg after, args = before ++ arg :: after ∧ (∀ b ∈ before, Valid b) ∧ ¬ Valid arg ∧
      parse [arg] = .error e ∧ Refused arg e.message
  flags : ∀ o, parse args = .ok o →
    (o.settings.ignoreLineBreaks = true ↔ "--ignore-line-breaks" ∈ args) ∧
      (o.settings.growable = false ↔ "--no-buffer-growth" ∈ args) ∧
      (o.json = true ↔ "--json" ∈ args)
  tracking : ∀ o, parse args = .ok o →
    IsLast "--line-tracking=" .tracking .whitespace args o.settings.tracking
  capacity : ∀ o, parse args = .ok o →
    IsLast "--buffer-capacity=" .capacity 1024 args o.settings.capacity
  /-- The order matters only among the arguments for the same option. -/
  reordered : ∀ o, parse args = .ok o → ∀ others : List String, others.Perm args →
    others.filter (isFor "--line-tracking=") = args.filter (isFor "--line-tracking=") →
    others.filter (isFor "--buffer-capacity=") = args.filter (isFor "--buffer-capacity=") →
    parse others = .ok o

theorem readsArguments (args : List String) : ReadsArguments args := by
  have hsucceeds : ∀ args : List String, (∃ o, parse args = .ok o) ↔ ∀ arg ∈ args, Valid arg := by
    intro args
    refine ⟨?_, fun h => exists_foldlM_apply_eq_ok h {}⟩
    rintro ⟨o, ho⟩
    obtain hall | ⟨before, arg, after, rfl, hbefore, harg⟩ := forall_valid_or_exists_first args
    · exact hall
    · obtain ⟨e, he, -, -⟩ := parse_of_first hbefore harg after
      rw [he] at ho
      cases ho
  refine ⟨hsucceeds args, ?_, ?_, ?_, ?_, ?_⟩
  · intro e
    constructor
    · intro he
      obtain hall | ⟨before, arg, after, rfl, hbefore, harg⟩ := forall_valid_or_exists_first args
      · obtain ⟨o, ho⟩ := (hsucceeds args).mpr hall
        rw [ho] at he
        cases he
      · obtain ⟨e', hlist, halone, hrefused⟩ := parse_of_first hbefore harg after
        rw [hlist] at he
        cases he
        exact ⟨before, arg, after, rfl, hbefore, harg, halone, hrefused⟩
    · rintro ⟨before, arg, after, rfl, hbefore, harg, halone, -⟩
      obtain ⟨e', hlist, halone', -⟩ := parse_of_first hbefore harg after
      rw [hlist, ← halone', halone]
  · intro o ho
    have hcomes := comesTo_of_foldlM ho
    have hignore := hcomes.flags .ignoreLineBreaks
    have hfixed := hcomes.flags .fixedBuffer
    have hjson := hcomes.flags .json
    simp only [isSet, Bool.false_eq_true, false_or, Bool.not_true, Bool.not_eq_true'] at hignore hfixed hjson
    exact ⟨hignore, hfixed, hjson⟩
  · intro o ho
    exact (comesTo_of_foldlM ho).tracking
  · intro o ho
    exact (comesTo_of_foldlM ho).capacity
  · intro o ho others hperm htracking hcapacity
    obtain ⟨o', ho'⟩ : ∃ o', parse others = .ok o' := by
      refine (hsucceeds others).mpr fun arg harg => ?_
      exact (hsucceeds args).mp ⟨o, ho⟩ arg (hperm.mem_iff.mp harg)
    have hsame := (comesTo_of_foldlM ho).unique (comesTo_of_foldlM ho') (fun f => hperm.mem_iff)
      htracking hcapacity
    rw [ho', hsame]

end Options

/-- Every list of arguments is read one by one, and every choice of options can be written. -/
theorem parse_readsArguments :
    (∀ args : List String, Options.ReadsArguments args) ∧
      ∀ o : Options, o.settings.capacity < 2 ^ 64 → ∃ args, Options.parse args = .ok o :=
  ⟨Options.readsArguments, Options.exists_parse_eq_ok⟩

/-- The last capacity counts also where other options have moved over it, and of two
arguments that are not valid the first one is reported. -/
theorem parse_readsArguments_reordered :
    Options.parse ["--json", "--buffer-capacity=+007", "--line-tracking=linebreak",
        "--buffer-capacity=16"] =
      .ok { settings := { tracking := .lineBreak, capacity := 16 }, json := true } ∧
    Options.parse ["--buffer-capacity=+007", "--buffer-capacity=16", "--line-tracking=linebreak",
        "--json"] =
      .ok { settings := { tracking := .lineBreak, capacity := 16 }, json := true } ∧
    (∃ e, Options.parse ["--json", "--buffer-capacity=1 ", "--verbose"] = .error e ∧
      e.message = "invalid buffer capacity '1 '") ∧
    ∃ args, Options.parse args = .ok { settings := { capacity := 2 ^ 64 - 1 }, json := true } := by
  obtain ⟨hreads, hreach⟩ := parse_readsArguments
  have hlist : Options.parse ["--json", "--buffer-capacity=+007", "--line-tracking=linebreak",
      "--buffer-capacity=16"] =
      .ok { settings := { tracking := .lineBreak, capacity := 16 }, json := true } := by rfl
  refine ⟨hlist, ?_, ?_, hreach _ (by decide)⟩
  · exact (hreads _).reordered _ hlist _ (by decide) (by decide) (by decide)
  · exact ⟨_, rfl, by decide⟩

end Lexing.CommandLine
