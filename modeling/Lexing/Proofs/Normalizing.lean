import Lexing.Proofs.Export
import Lexing.Settings.Json

/-!
# Values of JSON in all of their forms

A kind of token, a token, a line tracking mode and settings are each read from
more values than they are written as. The name of a variant may stand in an
object with null; the fields of a record may come in any order and among others,
or without their names in an array. These forms are described here apart from how
they are read, and so are the flaws that a value can have instead.

Whatever is read is written in one form only, which is read again, and a value
is refused for its flaws (`normalizes_all`).
-/

namespace Lexing

namespace Json

/-! ## Members -/

/-- The last member with the name has this value. Earlier ones do not count. -/
def LastMember (name : String) (value : Json) (members : List (String × Json)) : Prop :=
  ∃ before after, members = before ++ (name, value) :: after ∧ ∀ m ∈ after, m.1 ≠ name

section Members

variable {name : String} {value : Json} {members : List (String × Json)}

theorem lookup?_eq_some_iff : lookup? name members = some value ↔ LastMember name value members := by
  rw [lookup?, List.lookup_eq_some_iff]
  constructor
  · rintro ⟨later, earlier, hmembers, hlater⟩
    refine ⟨earlier.reverse, later.reverse, ?_, ?_⟩
    · rw [← List.reverse_reverse members, hmembers]
      simp
    · intro m hm
      have hother := hlater m (List.mem_reverse.mp hm)
      exact (bne_iff_ne.mp hother).symm
  · rintro ⟨before, after, rfl, hafter⟩
    refine ⟨after.reverse, before.reverse, by simp, ?_⟩
    intro m hm
    exact bne_iff_ne.mpr (hafter m (List.mem_reverse.mp hm)).symm

theorem lookup?_eq_none_iff : lookup? name members = none ↔ ∀ m ∈ members, m.1 ≠ name := by
  rw [lookup?, List.lookup_eq_none_iff]
  simp only [List.mem_reverse, bne_iff_ne, ne_comm]

/-- Where no two members have one name, each is the last with its name. -/
theorem lastMember_of_mem (hmem : (name, value) ∈ members)
    (hnames : (members.map Prod.fst).Nodup) : LastMember name value members := by
  obtain ⟨before, after, rfl⟩ := List.append_of_mem hmem
  refine ⟨before, after, rfl, ?_⟩
  rw [List.map_append, List.nodup_append, List.map_cons, List.nodup_cons] at hnames
  rintro m hm rfl
  exact hnames.2.1.1 (List.mem_map.mpr ⟨m, hm, rfl⟩)

end Members

/-! ## Variants -/

/-- The forms of a variant without contents. -/
inductive NamesVariant (name : String) : Json → Prop
  | bare : NamesVariant name (.string name)
  | tagged : NamesVariant name (.object [(name, .null)])

/-- What is no variant with a known name. -/
inductive FlawedVariant (Known : String → Prop) : Json → Prop
  | unknown {name : String} (h : ¬ Known name) : FlawedVariant Known (.string name)
  | unknownTag {name : String} (value : Json) (h : ¬ Known name) :
      FlawedVariant Known (.object [(name, value)])
  | contents (name : String) {value : Json} (h : value ≠ .null) :
      FlawedVariant Known (.object [(name, value)])
  | members {members : List (String × Json)} (h : members.length ≠ 1) :
      FlawedVariant Known (.object members)
  | shape {j : Json} (hstring : ∀ s, j ≠ .string s) (hobject : ∀ members, j ≠ .object members) :
      FlawedVariant Known j

/-- What is no variant with the name of one of the values. -/
def FlawedName {α : Type} (name : α → String) : Json → Prop :=
  FlawedVariant fun s => ∃ x, name x = s

theorem variant?_eq_some_iff {j : Json} {name : String} :
    j.variant? = some name ↔ NamesVariant name j := by
  constructor
  · intro h
    unfold variant? at h
    split at h
    · next s =>
        obtain rfl := Option.some.inj h
        exact .bare
    · next name' =>
        obtain rfl := Option.some.inj h
        exact .tagged
    · cases h
  · rintro (_ | _) <;> rfl

theorem flawedVariant_of_variant?_eq_none {Known : String → Prop} {j : Json}
    (h : j.variant? = none) : FlawedVariant Known j := by
  cases j with
  | string s => cases h
  | object members =>
      cases members with
      | nil => exact .members (by simp)
      | cons m others =>
          obtain ⟨name, value⟩ := m
          cases others with
          | nil =>
              refine .contents name ?_
              rintro rfl
              cases h
          | cons m' others => exact .members (by simp)
  | null | bool | integer | decimal | array => exact .shape (by simp) (by simp)

theorem NamesVariant.flawedVariant_iff {Known : String → Prop} {j : Json} {name : String}
    (h : NamesVariant name j) : FlawedVariant Known j ↔ ¬ Known name := by
  cases h with
  | bare =>
      refine ⟨fun hflawed => ?_, .unknown⟩
      cases hflawed with
      | unknown hunknown => exact hunknown
      | shape hstring _ => exact absurd rfl (hstring name)
  | tagged =>
      refine ⟨fun hflawed => ?_, .unknownTag .null⟩
      cases hflawed with
      | unknownTag _ hunknown => exact hunknown
      | contents _ hcontents => exact absurd rfl hcontents
      | members hmembers => exact absurd rfl hmembers
      | shape _ hobject => exact absurd rfl (hobject _)

section Variants

variable {α : Type} {name : α → String} {ofName? : String → Option α} {j : Json}
  (hname : ∀ s x, ofName? s = some x ↔ name x = s)
include hname

theorem bind_ofName?_eq_some_iff {x : α} :
    j.variant?.bind ofName? = some x ↔ NamesVariant (name x) j := by
  simp only [Option.bind_eq_some_iff, variant?_eq_some_iff, hname]
  constructor
  · rintro ⟨s, hj, rfl⟩
    exact hj
  · exact fun hj => ⟨name x, hj, rfl⟩

theorem bind_ofName?_eq_none_iff :
    j.variant?.bind ofName? = none ↔ FlawedName name j := by
  cases hj : j.variant? with
  | none => exact iff_of_true rfl (flawedVariant_of_variant?_eq_none hj)
  | some s =>
      rw [FlawedName, (variant?_eq_some_iff.mp hj).flawedVariant_iff, Option.bind_some,
        Option.eq_none_iff_forall_ne_some]
      simp only [ne_eq, hname, not_exists]

end Variants

/-! ## Records -/

/-- The forms of a record with these fields. -/
inductive RecordForm (fields : List (String × Json)) : Json → Prop
  | object {members : List (String × Json)} (h : ∀ f ∈ fields, LastMember f.1 f.2 members) :
      RecordForm fields (.object members)
  | array : RecordForm fields (.array (fields.map Prod.snd))

/-- What is no record with fields of these names, or has a flaw in one of them. -/
inductive FlawedRecord (fields : List (String × (Json → Prop))) : Json → Prop
  | missing {name : String} {Flawed : Json → Prop} {members : List (String × Json)}
      (hfield : (name, Flawed) ∈ fields) (h : ∀ m ∈ members, m.1 ≠ name) :
      FlawedRecord fields (.object members)
  | member {name : String} {Flawed : Json → Prop} {members : List (String × Json)} {value : Json}
      (hfield : (name, Flawed) ∈ fields) (hmember : LastMember name value members)
      (h : Flawed value) : FlawedRecord fields (.object members)
  | length {items : List Json} (h : items.length ≠ fields.length) :
      FlawedRecord fields (.array items)
  | item {i : Nat} {name : String} {Flawed : Json → Prop} {items : List Json} {value : Json}
      (hfield : fields[i]? = some (name, Flawed)) (hitem : items[i]? = some value)
      (h : Flawed value) : FlawedRecord fields (.array items)
  | shape {j : Json} (hobject : ∀ members, j ≠ .object members) (harray : ∀ items, j ≠ .array items) :
      FlawedRecord fields j

theorem mapM_eq_some_iff {α β : Type} {f : α → Option β} {xs : List α} {ys : List β} :
    xs.mapM f = some ys ↔ xs.map f = ys.map some := by
  induction xs generalizing ys with
  | nil => cases ys <;> simp
  | cons x xs ih =>
      cases ys with
      | nil => simp [List.mapM_cons, Option.bind_eq_some_iff]
      | cons y ys => simp [List.mapM_cons, Option.bind_eq_some_iff, ← ih]

theorem exists_eq_none_of_mapM_eq_none {α β : Type} {f : α → Option β} {xs : List α}
    (h : xs.mapM f = none) : ∃ x ∈ xs, f x = none := by
  induction xs with
  | nil => simp at h
  | cons x xs ih =>
      cases hx : f x with
      | none => exact ⟨x, List.mem_cons_self, hx⟩
      | some y =>
          have hxs : xs.mapM f = none := by
            rw [List.mapM_cons, hx] at h
            cases hothers : xs.mapM f with
            | none => rfl
            | some ys => simp [hothers] at h
          obtain ⟨x', hmem, hnone⟩ := ih hxs
          exact ⟨x', List.mem_cons_of_mem x hmem, hnone⟩

theorem fields?_of_recordForm {fields : List (String × Json)} {j : Json} (h : RecordForm fields j) :
    j.fields? (fields.map Prod.fst) = some (fields.map Prod.snd) := by
  cases h with
  | object hmembers =>
      rw [fields?, mapM_eq_some_iff, List.map_map, List.map_map]
      exact List.map_congr_left fun f hf => lookup?_eq_some_iff.mpr (hmembers f hf)
  | array => rw [fields?, if_pos (by simp)]

section Fields

variable {names : List String} {values : List Json} {members : List (String × Json)} {j : Json}

theorem length_of_fields? (h : j.fields? names = some values) : values.length = names.length := by
  unfold fields? at h
  split at h
  · have hmap := congrArg List.length (mapM_eq_some_iff.mp h)
    rw [List.length_map, List.length_map] at hmap
    exact hmap.symm
  · next items =>
      split at h
      · next hlength =>
          obtain rfl := Option.some.inj h
          exact hlength
      · cases h
  · cases h

theorem lookup?_of_fields? {i : Nat} {name : String}
    (h : (object members).fields? names = some values) (hname : names[i]? = some name) :
    lookup? name members = values[i]? := by
  have hmap := congrArg (fun vs => vs[i]?) (mapM_eq_some_iff.mp h)
  simp only [List.getElem?_map, hname, Option.map_some] at hmap
  cases hvalue : values[i]? with
  | none =>
      rw [hvalue] at hmap
      cases hmap
  | some value =>
      rw [hvalue] at hmap
      exact Option.some.inj hmap

theorem eq_of_fields?_array {items : List Json} (h : (array items).fields? names = some values) :
    items = values := by
  rw [fields?] at h
  split at h
  · exact Option.some.inj h
  · cases h

theorem recordForm_of_fields? (h : j.fields? names = some values) :
    RecordForm (names.zip values) j := by
  have hlength := length_of_fields? h
  cases j with
  | object members =>
      refine .object ?_
      rintro ⟨name, value⟩ hmem
      obtain ⟨i, hi⟩ := List.mem_iff_getElem?.mp hmem
      obtain ⟨hname, hvalue⟩ := List.getElem?_zip_eq_some.mp hi
      rw [← lookup?_eq_some_iff, lookup?_of_fields? h hname, hvalue]
  | array items =>
      obtain rfl := eq_of_fields?_array h
      have harray : RecordForm (names.zip items) (.array ((names.zip items).map Prod.snd)) := .array
      rwa [List.map_snd_zip (Nat.le_of_eq hlength)] at harray
  | null | bool | integer | decimal | string => cases h

end Fields

section Flaws

variable {fields : List (String × (Json → Prop))} {j : Json}

theorem flawedRecord_of_fields?_eq_none (h : j.fields? (fields.map Prod.fst) = none) :
    FlawedRecord fields j := by
  cases j with
  | object members =>
      obtain ⟨name, hname, hnone⟩ := exists_eq_none_of_mapM_eq_none h
      obtain ⟨⟨_, Flawed⟩, hfield, rfl⟩ := List.mem_map.mp hname
      exact .missing hfield (lookup?_eq_none_iff.mp hnone)
  | array items =>
      refine .length ?_
      intro hlength
      rw [fields?, if_pos (by rw [hlength, List.length_map])] at h
      cases h
  | null | bool | integer | decimal | string => exact .shape (by simp) (by simp)

/-- A field of a record has its value at the place of its name. -/
theorem exists_getElem?_of_fields? {values : List Json} {members : List (String × Json)}
    {field : String × (Json → Prop)}
    (h : (object members).fields? (fields.map Prod.fst) = some values) (hfield : field ∈ fields) :
    ∃ i : Nat, fields[i]? = some field ∧ values[i]? = lookup? field.1 members ∧
      values[i]? ≠ none := by
  have hlength := length_of_fields? h
  rw [List.length_map] at hlength
  obtain ⟨i, hi⟩ := List.mem_iff_getElem?.mp hfield
  have hbound : i < values.length := by
    rw [hlength]
    exact (List.getElem?_eq_some_iff.mp hi).1
  have hname : (fields.map Prod.fst)[i]? = some field.1 := by rw [List.getElem?_map, hi]; rfl
  refine ⟨i, hi, (lookup?_of_fields? h hname).symm, ?_⟩
  rw [List.getElem?_eq_getElem hbound]
  exact Option.some_ne_none _

/-- A record that has all of its fields is flawed where one of their values is. -/
theorem flawedRecord_iff_of_fields? {values : List Json}
    (h : j.fields? (fields.map Prod.fst) = some values) :
    FlawedRecord fields j ↔ ∃ p ∈ fields.zip values, p.1.2 p.2 := by
  -- The flaw of a field is that of the value at its place.
  have hplace : ∀ (i : Nat) (field : String × (Json → Prop)) (value : Json),
      fields[i]? = some field → values[i]? = some value → field.2 value →
        ∃ p ∈ fields.zip values, p.1.2 p.2 := by
    intro i field value hfield hvalue hbad
    have hzip : (fields.zip values)[i]? = some (field, value) :=
      List.getElem?_zip_eq_some.mpr ⟨hfield, hvalue⟩
    exact ⟨(field, value), List.mem_of_getElem? hzip, hbad⟩
  constructor
  · intro hflawed
    cases hflawed with
    | missing hfield hmissing =>
        obtain ⟨i, -, hvalue, hsome⟩ := exists_getElem?_of_fields? h hfield
        exact absurd (hvalue.trans (lookup?_eq_none_iff.mpr hmissing)) hsome
    | member hfield hlast hbad =>
        obtain ⟨i, hi, hvalue, -⟩ := exists_getElem?_of_fields? h hfield
        exact hplace i _ _ hi (hvalue.trans (lookup?_eq_some_iff.mpr hlast)) hbad
    | length hne =>
        obtain rfl := eq_of_fields?_array h
        have hlength := length_of_fields? h
        rw [List.length_map] at hlength
        exact absurd hlength hne
    | item hfield hitem hbad =>
        obtain rfl := eq_of_fields?_array h
        exact hplace _ _ _ hfield hitem hbad
    | shape hobject harray =>
        unfold fields? at h
        split at h
        · exact absurd rfl (hobject _)
        · exact absurd rfl (harray _)
        · cases h
  · rintro ⟨⟨field, value⟩, hmem, hbad⟩
    obtain ⟨i, hi⟩ := List.mem_iff_getElem?.mp hmem
    obtain ⟨hfield, hvalue⟩ := List.getElem?_zip_eq_some.mp hi
    cases j with
    | object members =>
        have hname : (fields.map Prod.fst)[i]? = some field.1 := by
          rw [List.getElem?_map, hfield]
          rfl
        have hlookup := lookup?_of_fields? h hname
        rw [hvalue] at hlookup
        exact .member (List.mem_of_getElem? hfield) (lookup?_eq_some_iff.mp hlookup) hbad
    | array items =>
        obtain rfl := eq_of_fields?_array h
        exact .item hfield hvalue hbad
    | null | bool | integer | decimal | string => cases h

theorem bind_eq_none_iff_or {α β : Type} {o : Option α} {f : α → Option β} {P : Prop}
    (h : ∀ a, f a = none ↔ P) : o.bind f = none ↔ o = none ∨ P := by
  cases o with
  | none => simp
  | some a => simp [h a]

/-- What is read from the values of the fields is refused for a flaw of the record,
if it is refused for the flaws of these values. -/
theorem bind_fields?_eq_none_iff (fields : List (String × (Json → Prop))) {α : Type}
    {readValues? : List Json → Option α}
    (h : ∀ values : List Json, values.length = fields.length →
      (readValues? values = none ↔ ∃ p ∈ fields.zip values, p.1.2 p.2)) :
    (j.fields? (fields.map Prod.fst)).bind readValues? = none ↔ FlawedRecord fields j := by
  cases hvalues : j.fields? (fields.map Prod.fst) with
  | none => exact iff_of_true rfl (flawedRecord_of_fields?_eq_none hvalues)
  | some values =>
      have hlength := length_of_fields? hvalues
      rw [List.length_map] at hlength
      rw [Option.bind_some, h values hlength, flawedRecord_iff_of_fields? hvalues]

end Flaws

/-! ## Texts, truth values and numbers -/

/-- What is no text. A text has one form only, as have truth values and numbers. -/
def FlawedText (j : Json) : Prop := ∀ s, j ≠ .string s

/-- What is no truth value. -/
def FlawedBool (j : Json) : Prop := ∀ b, j ≠ .bool b

/-- What is no integer from zero up to the bound, which is excluded. -/
def FlawedNat (bound : Nat) (j : Json) : Prop := ∀ n < bound, j ≠ .ofNat n

theorem string?_eq_some_iff {j : Json} {s : String} : j.string? = some s ↔ j = .string s := by
  cases j <;> simp [string?]

theorem bool?_eq_some_iff {j : Json} {b : Bool} : j.bool? = some b ↔ j = .bool b := by
  cases j <;> simp [bool?]

theorem natBelow?_eq_some_iff {j : Json} {bound n : Nat} :
    j.natBelow? bound = some n ↔ n < bound ∧ j = .ofNat n := by
  constructor
  · intro h
    unfold natBelow? at h
    split at h
    · split at h
      · next hlt =>
          obtain rfl := Option.some.inj h
          exact ⟨hlt, rfl⟩
      · cases h
    · cases h
  · rintro ⟨hlt, rfl⟩
    exact natBelow?_ofNat hlt

theorem string?_eq_none_iff {j : Json} : j.string? = none ↔ FlawedText j := by
  simp only [Option.eq_none_iff_forall_ne_some, ne_eq, string?_eq_some_iff, FlawedText]

theorem bool?_eq_none_iff {j : Json} : j.bool? = none ↔ FlawedBool j := by
  simp only [Option.eq_none_iff_forall_ne_some, ne_eq, bool?_eq_some_iff, FlawedBool]

theorem natBelow?_eq_none_iff {j : Json} {bound : Nat} :
    j.natBelow? bound = none ↔ FlawedNat bound j := by
  simp only [Option.eq_none_iff_forall_ne_some, ne_eq, natBelow?_eq_some_iff, FlawedNat, not_and]

/-! ## Writing and reading -/

/-- A value that fits is read from all of its forms, of which one is written,
and everything else is refused for a flaw. -/
structure Normalizes {α : Type} (write : α → Json) (read? : Json → Option α) (Fits : α → Prop)
    (Spells : Json → α → Prop) (Flawed : Json → Prop) : Prop where
  roundTrip : ∀ x, Fits x → read? (write x) = some x
  reads_iff : ∀ j x, read? j = some x ↔ Fits x ∧ Spells j x
  /-- What is read is written in a form from which it is read again. -/
  readsAgain : ∀ j x, read? j = some x → read? (write x) = some x
  /-- All forms of a value come to the one that is written. -/
  normalizes : ∀ j x, Fits x → Spells j x → (read? j).map write = some (write x)
  rejects_iff : ∀ j, read? j = none ↔ Flawed j

theorem normalizes_of_reads_iff {α : Type} {write : α → Json} {read? : Json → Option α}
    {Fits : α → Prop} {Spells : Json → α → Prop} {Flawed : Json → Prop}
    (hwrite : ∀ x, Spells (write x) x) (hreads : ∀ j x, read? j = some x ↔ Fits x ∧ Spells j x)
    (hrejects : ∀ j, read? j = none ↔ Flawed j) :
    Normalizes write read? Fits Spells Flawed where
  roundTrip x hx := (hreads (write x) x).mpr ⟨hx, hwrite x⟩
  reads_iff := hreads
  readsAgain j x hj := (hreads (write x) x).mpr ⟨((hreads j x).mp hj).1, hwrite x⟩
  normalizes j x hx hj := by rw [(hreads j x).mpr ⟨hx, hj⟩, Option.map_some]
  rejects_iff := hrejects

/-- A variant has its two forms. -/
def SpellsVariant {α : Type} (name : α → String) (j : Json) (x : α) : Prop := NamesVariant (name x) j

theorem normalizes_variant {α : Type} {name : α → String} {ofName? : String → Option α}
    (hname : ∀ s x, ofName? s = some x ↔ name x = s) :
    Normalizes (fun x => .string (name x)) (fun j => j.variant?.bind ofName?) (fun _ => True)
      (SpellsVariant name) (FlawedName name) := by
  refine normalizes_of_reads_iff (fun _ => .bare) ?_ ?_
  · intro j x
    rw [true_and]
    exact bind_ofName?_eq_some_iff hname
  · exact fun j => bind_ofName?_eq_none_iff hname

/-- A record with one field that is a variant has any form of a record with any form of this field. -/
def SpellsRecord {α : Type} (name : α → String) (fields : α → Json → List (String × Json))
    (j : Json) (x : α) : Prop :=
  ∃ tag, NamesVariant (name x) tag ∧ RecordForm (fields x tag) j

/-- Records normalize, and among their forms are those in any order. -/
structure NormalizesRecord {α : Type} (write : α → Json) (read? : Json → Option α) (Fits : α → Prop)
    (name : α → String) (fields : α → Json → List (String × Json)) (Flawed : Json → Prop) : Prop
    extends Normalizes write read? Fits (SpellsRecord name fields) Flawed where
  /-- The fields in any order, and among others, where no two members have one name. -/
  anyOrder : ∀ x tag members, Fits x → NamesVariant (name x) tag → fields x tag ⊆ members →
    (members.map Prod.fst).Nodup → read? (.object members) = some x
  /-- The values of the fields only, in their order. -/
  array : ∀ x tag, Fits x → NamesVariant (name x) tag →
    read? (.array ((fields x tag).map Prod.snd)) = some x

theorem Normalizes.record {α : Type} {write : α → Json} {read? : Json → Option α}
    {Fits : α → Prop} {name : α → String} {fields : α → Json → List (String × Json)}
    {Flawed : Json → Prop} (h : Normalizes write read? Fits (SpellsRecord name fields) Flawed) :
    NormalizesRecord write read? Fits name fields Flawed where
  toNormalizes := h
  anyOrder x tag members hx htag hfields hnames := by
    refine (h.reads_iff _ x).mpr ⟨hx, tag, htag, .object ?_⟩
    exact fun f hf => lastMember_of_mem (hfields hf) hnames
  array x tag hx htag := (h.reads_iff _ x).mpr ⟨hx, tag, htag, .array⟩

end Json

/-! ## Kinds and modes -/

namespace Kind

theorem ofName?_eq_some_iff (s : String) (k : Kind) : ofName? s = some k ↔ k.name = s := by
  constructor
  · exact name_of_ofName?
  · rintro rfl
    exact ofName?_name k

theorem normalizes :
    Json.Normalizes toJson ofJson? (fun _ => True) (Json.SpellsVariant name)
      (Json.FlawedName name) :=
  Json.normalizes_variant ofName?_eq_some_iff

end Kind

namespace LineTracking

theorem ofName?_eq_some_iff (s : String) (mode : LineTracking) :
    ofName? s = some mode ↔ mode.name = s := by
  constructor
  · intro h
    unfold ofName? at h
    split at h <;> cases h <;> rfl
  · rintro rfl
    exact ofName?_name mode

theorem normalizes :
    Json.Normalizes toJson ofJson? (fun _ => True) (Json.SpellsVariant name)
      (Json.FlawedName name) :=
  Json.normalizes_variant ofName?_eq_some_iff

end LineTracking

/-! ## Tokens and settings -/

namespace Token

/-- The fields of a token, with this form of its kind. -/
def fields (t : Token) (kind : Json) : List (String × Json) :=
  [("kind", kind), ("text", .string t.text), ("line", .ofNat t.position.line),
   ("column", .ofNat t.position.column), ("offset", .ofNat t.position.offset)]

/-- What is flawed as a field of a token. -/
def flaws : List (String × (Json → Prop)) :=
  [("kind", Json.FlawedName Kind.name), ("text", Json.FlawedText),
   ("line", Json.FlawedNat Position.bound), ("column", Json.FlawedNat Position.bound),
   ("offset", Json.FlawedNat Position.bound)]

theorem ofJson?_eq_some_iff (j : Json) (t : Token) :
    ofJson? j = some t ↔ t.position.Fits ∧ Json.SpellsRecord (fun t => t.kind.name) fields j t := by
  constructor
  · intro h
    simp only [ofJson?, Option.bind_eq_bind, Option.bind_eq_some_iff] at h
    obtain ⟨values, hvalues, h⟩ := h
    split at h
    · next kind text line column offset =>
        simp only [Option.bind_eq_some_iff, Json.string?_eq_some_iff, Json.natBelow?_eq_some_iff] at h
        obtain ⟨k, hkind, s, rfl, l, ⟨hline, rfl⟩, c, ⟨hcolumn, rfl⟩, o, ⟨hoffset, rfl⟩, ⟨⟩⟩ := h
        refine ⟨⟨hoffset, hline, hcolumn⟩, kind, ?_, Json.recordForm_of_fields? hvalues⟩
        exact ((Kind.normalizes.reads_iff kind k).mp hkind).2
    · cases h
  · rintro ⟨⟨hoffset, hline, hcolumn⟩, kind, hkind, hrecord⟩
    have hvalues : j.fields? ["kind", "text", "line", "column", "offset"] =
        some [kind, .string t.text, .ofNat t.position.line, .ofNat t.position.column,
          .ofNat t.position.offset] := Json.fields?_of_recordForm hrecord
    have hk := (Kind.normalizes.reads_iff kind t.kind).mpr ⟨trivial, hkind⟩
    rw [ofJson?, hvalues]
    simp only [Option.bind_eq_bind, Option.bind_some, hk, Json.string?, Json.natBelow?_ofNat hline,
      Json.natBelow?_ofNat hcolumn, Json.natBelow?_ofNat hoffset]
    rfl

theorem ofJson?_eq_none_iff (j : Json) : ofJson? j = none ↔ Json.FlawedRecord flaws j := by
  refine Json.bind_fields?_eq_none_iff flaws fun values hlength => ?_
  match values, hlength with
  | [kind, text, line, column, offset], _ =>
      refine (Json.bind_eq_none_iff_or fun _ => Json.bind_eq_none_iff_or fun _ =>
        Json.bind_eq_none_iff_or fun _ => Json.bind_eq_none_iff_or fun _ =>
          Json.bind_eq_none_iff_or fun _ => iff_of_false (Option.some_ne_none _) id).trans ?_
      simp [flaws, Kind.normalizes.rejects_iff, Json.string?_eq_none_iff,
        Json.natBelow?_eq_none_iff]

theorem normalizes :
    Json.NormalizesRecord toJson ofJson? (fun t => t.position.Fits) (fun t => t.kind.name) fields
      (Json.FlawedRecord flaws) := by
  refine (Json.normalizes_of_reads_iff ?_ ofJson?_eq_some_iff ofJson?_eq_none_iff).record
  intro t
  refine ⟨t.kind.toJson, .bare, .object ?_⟩
  exact fun f hf => Json.lastMember_of_mem hf (by simp)

end Token

namespace Settings

/-- The fields of settings, with this form of their mode. -/
def fields (s : Settings) (tracking : Json) : List (String × Json) :=
  [("line_tracking", tracking), ("ignore_line_breaks", .bool s.ignoreLineBreaks),
   ("buffer_capacity", .ofNat s.capacity), ("allow_buffer_growth", .bool s.growable)]

/-- What is flawed as a field of settings. -/
def flaws : List (String × (Json → Prop)) :=
  [("line_tracking", Json.FlawedName LineTracking.name), ("ignore_line_breaks", Json.FlawedBool),
   ("buffer_capacity", Json.FlawedNat capacityBound), ("allow_buffer_growth", Json.FlawedBool)]

theorem ofJson?_eq_some_iff (j : Json) (s : Settings) :
    ofJson? j = some s ↔
      s.capacity < capacityBound ∧ Json.SpellsRecord (fun s => s.tracking.name) fields j s := by
  constructor
  · intro h
    simp only [ofJson?, Option.bind_eq_bind, Option.bind_eq_some_iff] at h
    obtain ⟨values, hvalues, h⟩ := h
    split at h
    · next tracking ignoreLineBreaks capacity growable =>
        simp only [Option.bind_eq_some_iff, Json.bool?_eq_some_iff, Json.natBelow?_eq_some_iff] at h
        obtain ⟨mode, hmode, i, rfl, n, ⟨hcapacity, rfl⟩, g, rfl, ⟨⟩⟩ := h
        refine ⟨hcapacity, tracking, ?_, Json.recordForm_of_fields? hvalues⟩
        exact ((LineTracking.normalizes.reads_iff tracking mode).mp hmode).2
    · cases h
  · rintro ⟨hcapacity, tracking, hmode, hrecord⟩
    have hvalues :
        j.fields? ["line_tracking", "ignore_line_breaks", "buffer_capacity", "allow_buffer_growth"] =
          some [tracking, .bool s.ignoreLineBreaks, .ofNat s.capacity, .bool s.growable] :=
      Json.fields?_of_recordForm hrecord
    have hm := (LineTracking.normalizes.reads_iff tracking s.tracking).mpr ⟨trivial, hmode⟩
    rw [ofJson?, hvalues]
    simp only [Option.bind_eq_bind, Option.bind_some, hm, Json.bool?, Json.natBelow?_ofNat hcapacity]
    rfl

theorem ofJson?_eq_none_iff (j : Json) : ofJson? j = none ↔ Json.FlawedRecord flaws j := by
  refine Json.bind_fields?_eq_none_iff flaws fun values hlength => ?_
  match values, hlength with
  | [tracking, ignoreLineBreaks, capacity, growable], _ =>
      refine (Json.bind_eq_none_iff_or fun _ => Json.bind_eq_none_iff_or fun _ =>
        Json.bind_eq_none_iff_or fun _ =>
          Json.bind_eq_none_iff_or fun _ => iff_of_false (Option.some_ne_none _) id).trans ?_
      simp [flaws, LineTracking.normalizes.rejects_iff, Json.bool?_eq_none_iff,
        Json.natBelow?_eq_none_iff]

theorem normalizes :
    Json.NormalizesRecord toJson ofJson? (fun s => s.capacity < capacityBound)
      (fun s => s.tracking.name) fields (Json.FlawedRecord flaws) := by
  refine (Json.normalizes_of_reads_iff ?_ ofJson?_eq_some_iff ofJson?_eq_none_iff).record
  intro s
  refine ⟨s.tracking.toJson, .bare, .object ?_⟩
  exact fun f hf => Json.lastMember_of_mem hf (by simp)

end Settings

/-- Kinds, tokens, modes and settings are read from all of their forms and
written in one, and what has a flaw is refused. -/
theorem normalizes_all :
    Json.Normalizes Kind.toJson Kind.ofJson? (fun _ => True) (Json.SpellsVariant Kind.name)
        (Json.FlawedName Kind.name) ∧
      Json.NormalizesRecord Token.toJson Token.ofJson? (fun t => t.position.Fits)
        (fun t => t.kind.name) Token.fields (Json.FlawedRecord Token.flaws) ∧
      Json.Normalizes LineTracking.toJson LineTracking.ofJson? (fun _ => True)
        (Json.SpellsVariant LineTracking.name) (Json.FlawedName LineTracking.name) ∧
      Json.NormalizesRecord Settings.toJson Settings.ofJson?
        (fun s => s.capacity < Settings.capacityBound) (fun s => s.tracking.name) Settings.fields
        (Json.FlawedRecord Settings.flaws) :=
  ⟨Kind.normalizes, Token.normalizes, LineTracking.normalizes, Settings.normalizes⟩

/-- The members stand in another order, one is unknown, and the kind is tagged. -/
example :
    Token.ofJson? (.object [("offset", .ofNat 7), ("line", .ofNat 1), ("unit", .null),
      ("kind", .object [("Plus", .null)]), ("column", .ofNat 2), ("text", .string "+")]) =
      some ⟨.plus, "+", ⟨7, 1, 2⟩⟩ := by decide

end Lexing
