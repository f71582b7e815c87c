import Lexing.Proofs.Literals

/-!
# The reader of JSON

The reader accepts the documents of the grammar, and no others, and finds the
value of each: `Json.read?_eq_some_iff`. In particular no document has two
values. The first part shows that it takes what the grammar spells off the front
of any text, the second that what it takes is spelled so.
-/

namespace Lexing.Json

/-! ## What is spelled is read -/

theorem IsPadding.endsRun_append {pad rest : List Char} (h : IsPadding pad)
    (hrest : EndsRun continuesNumber rest) : EndsRun continuesNumber (pad ++ rest) := by
  cases pad with
  | nil => exact hrest
  | cons c pad =>
      have hc : isSpace c = true := h c List.mem_cons_self
      simp only [isSpace, Bool.or_eq_true, decide_eq_true_eq] at hc
      rw [List.cons_append, EndsRun.cons]
      rcases hc with ((rfl | rfl) | rfl) | rfl <;> rfl

/-- A character that a number begins with. -/
def OpensNumber (c : Char) : Prop := c = '-' ∨ c.isDigit = true

theorem OpensNumber.isSpace_eq_false {c : Char} (h : OpensNumber c) : isSpace c = false := by
  rw [Bool.eq_false_iff]
  intro hspace
  simp only [isSpace, Bool.or_eq_true, decide_eq_true_eq] at hspace
  rcases hspace with ((rfl | rfl) | rfl) | rfl <;> rcases h with h | h <;> cases h

section Dispatch

variable {fuel : Nat} {cs : List Char}

/-! What the first character decides, where the reader looks no further yet. -/

theorem readValue?_string :
    readValue? (fuel + 1) ('"' :: cs) =
      (readString? cs).map fun (s, rest) => (.string (String.ofList s), rest) := by
  change (readString? cs).bind _ = _
  cases readString? cs <;> rfl

theorem readValue?_bracket {c : Char} {ds : List Char} (hskip : skipSpace cs = c :: ds) :
    readValue? (fuel + 1) ('[' :: cs) =
      if c = ']' then some (.array [], ds)
      else (readItems? fuel (c :: ds)).map fun (items, rest) => (.array items, rest) := by
  rw [readValue?, skipSpace_cons rfl]
  simp only [hskip]
  split
  · next heq =>
      cases heq
      rfl
  · next hother =>
      rw [if_neg fun hc => hother ds (congrArg (· :: ds) hc)]
      cases readItems? fuel (c :: ds) <;> rfl

theorem readValue?_brace {c : Char} {ds : List Char} (hskip : skipSpace cs = c :: ds) :
    readValue? (fuel + 1) ('{' :: cs) =
      if c = '}' then some (.object [], ds)
      else (readMembers? fuel (c :: ds)).map fun (members, rest) => (.object members, rest) := by
  rw [readValue?, skipSpace_cons rfl]
  simp only [hskip]
  split
  · next heq =>
      cases heq
      rfl
  · next hother =>
      rw [if_neg fun hc => hother ds (congrArg (· :: ds) hc)]
      cases readMembers? fuel (c :: ds) <;> rfl

theorem readValue?_number {c : Char} (hc : OpensNumber c) :
    readValue? (fuel + 1) (c :: cs) = readNumber? (c :: cs) := by
  rw [readValue?, skipSpace_cons hc.isSpace_eq_false]
  -- Neither a minus sign nor a digit is one of the characters that open other values.
  split
  all_goals first
    | rfl
    | next heq =>
        cases heq
        rcases hc with hc | hc <;> cases hc

theorem readItems?_last {j : Json} {ds rest : List Char} (hread : readValue? fuel cs = some (j, ds))
    (hskip : skipSpace ds = ']' :: rest) : readItems? (fuel + 1) cs = some ([j], rest) := by
  change (readValue? fuel cs).bind _ = _
  rw [hread, Option.bind_some]
  simp only [hskip]
  rfl

theorem readItems?_more {j : Json} {ds rest : List Char} (hread : readValue? fuel cs = some (j, ds))
    (hskip : skipSpace ds = ',' :: rest) :
    readItems? (fuel + 1) cs =
      (readItems? fuel rest).map fun (items, rest) => (j :: items, rest) := by
  change (readValue? fuel cs).bind _ = _
  rw [hread, Option.bind_some]
  simp only [hskip]
  cases readItems? fuel rest <;> rfl

theorem readMembers?_last {name : String} {j : Json} {ds es rest : List Char}
    (hname : readName? cs = some (name, ds)) (hread : readValue? fuel ds = some (j, es))
    (hskip : skipSpace es = '}' :: rest) :
    readMembers? (fuel + 1) cs = some ([(name, j)], rest) := by
  change (readName? cs).bind _ = _
  rw [hname, Option.bind_some]
  change (readValue? fuel ds).bind _ = _
  rw [hread, Option.bind_some]
  simp only [hskip]
  rfl

theorem readMembers?_more {name : String} {j : Json} {ds es rest : List Char}
    (hname : readName? cs = some (name, ds)) (hread : readValue? fuel ds = some (j, es))
    (hskip : skipSpace es = ',' :: rest) :
    readMembers? (fuel + 1) cs =
      (readMembers? fuel rest).map fun (members, rest) => ((name, j) :: members, rest) := by
  change (readName? cs).bind _ = _
  rw [hname, Option.bind_some]
  change (readValue? fuel ds).bind _ = _
  rw [hread, Option.bind_some]
  simp only [hskip]
  cases readMembers? fuel rest <;> rfl

end Dispatch

theorem SpellsNumber.exists_cons {cs : List Char} {j : Json} (h : SpellsNumber cs j) :
    ∃ c ds, cs = c :: ds ∧ OpensNumber c := by
  cases h with
  | natural h =>
      obtain ⟨d, ds, rfl, hd⟩ := h.1.exists_cons
      exact ⟨d, ds, rfl, .inr hd⟩
  | negative => exact ⟨_, _, rfl, .inl rfl⟩
  | @decimal negative _ _ _ h =>
      obtain ⟨d, ds, rfl, hd⟩ := h.1.exists_cons
      cases negative with
      | true => exact ⟨_, _, rfl, .inl rfl⟩
      | false => exact ⟨d, _, rfl, .inr hd⟩

/-- A value begins with a character that is neither white space nor closes an array. -/
theorem Spells.exists_cons {cs : List Char} {j : Json} (h : Spells cs j) :
    ∃ c ds, cs = c :: ds ∧ isSpace c = false ∧ c ≠ ']' := by
  cases h with
  | number h =>
      obtain ⟨c, ds, rfl, hc⟩ := h.exists_cons
      refine ⟨c, ds, rfl, hc.isSpace_eq_false, ?_⟩
      rintro rfl
      rcases hc with hc | hc <;> cases hc
  | _ => exact ⟨_, _, rfl, rfl, by decide⟩

/-- The reader takes the value off the front of any text, whatever follows that does not go on
with a number. -/
def IsRead (cs : List Char) (j : Json) : Prop :=
  ∀ rest fuel, EndsRun continuesNumber rest → cs.length ≤ fuel →
    readValue? (fuel + 1) (cs ++ rest) = some (j, rest)

/-- White space in front is skipped, and what is behind is left. -/
theorem IsRead.item {item : Item} {rest : List Char} {fuel : Nat}
    (h : IsRead item.spelling item.value) (hpadded : item.IsPadded)
    (hrest : EndsRun continuesNumber rest) (hfuel : item.text.length < fuel) :
    readValue? fuel (item.text ++ rest) = some (item.value, item.after ++ rest) := by
  obtain ⟨fuel, rfl⟩ : ∃ n, fuel = n + 1 := ⟨fuel - 1, by omega⟩
  have hlength : item.spelling.length ≤ fuel := by
    rw [Item.text, List.length_append, List.length_append] at hfuel
    omega
  rw [Item.text, List.append_assoc, List.append_assoc, readValue?_padding_append hpadded.1,
    h _ _ (hpadded.2.endsRun_append hrest) hlength]

theorem readItems?_append {item : Item} {items : List Item} {rest : List Char} {fuel : Nat}
    (hpadded : ∀ i ∈ item :: items, i.IsPadded)
    (h : ∀ i ∈ item :: items, IsRead i.spelling i.value)
    (hfuel : item.text.length + (separated (items.map Item.text)).length < fuel) :
    readItems? (fuel + 1) (item.text ++ (separated (items.map Item.text) ++ ']' :: rest)) =
      some ((item :: items).map Item.value, rest) := by
  induction items generalizing item fuel with
  | nil =>
      have hend : EndsRun continuesNumber (']' :: rest) := EndsRun.cons.mpr rfl
      have hpad := hpadded item List.mem_cons_self
      have hvalue := (h item List.mem_cons_self).item hpad hend
        (Nat.lt_of_le_of_lt (Nat.le_add_right _ _) hfuel)
      exact readItems?_last hvalue (by rw [skipSpace_append hpad.2, skipSpace_cons rfl])
  | cons next items ih =>
      obtain ⟨hpad, hpads⟩ := List.forall_mem_cons.mp hpadded
      obtain ⟨hread, hreads⟩ := List.forall_mem_cons.mp h
      rw [List.map_cons, separated_cons, List.length_cons, List.length_append] at hfuel
      obtain ⟨fuel, rfl⟩ : ∃ n, fuel = n + 1 := ⟨fuel - 1, by omega⟩
      have hothers := @ih next fuel hpads hreads (by omega)
      rw [List.map_cons, separated_cons, List.cons_append, List.append_assoc]
      generalize next.text ++ (separated (items.map Item.text) ++ ']' :: rest) = more at hothers ⊢
      have hend : EndsRun continuesNumber (',' :: more) := EndsRun.cons.mpr rfl
      have hroom : item.text.length < fuel + 1 := by omega
      have hvalue := hread.item hpad hend hroom
      rw [readItems?_more hvalue (by rw [skipSpace_append hpad.2, skipSpace_cons rfl]), hothers]
      rfl

theorem expect?_append (xs cs : List Char) : expect? xs (xs ++ cs) = some cs := by
  induction xs with
  | nil => rfl
  | cons x xs ih => rw [List.cons_append, expect?, if_pos rfl, ih]

theorem expect?_cons (c : Char) (cs : List Char) : expect? [c] (c :: cs) = some cs :=
  expect?_append [c] cs

theorem readName?_append {member : Member} (hpadded : member.IsPadded)
    (hname : Quotes member.spelling member.name.toList) (rest : List Char) :
    readName? (member.text ++ rest) = some (member.name, member.item.text ++ rest) := by
  have htext : member.text ++ rest = member.before ++ ('"' :: (member.spelling ++
      '"' :: (member.after ++ ':' :: (member.item.text ++ rest)))) := by
    simp [Member.text]
  have hcolon : skipSpace (member.after ++ ':' :: (member.item.text ++ rest)) =
      ':' :: (member.item.text ++ rest) := by
    rw [skipSpace_append hpadded.after, skipSpace_cons rfl]
  rw [htext, readName?, skipSpace_append hpadded.before, skipSpace_cons rfl, expect?_cons]
  simp only [Option.bind_eq_bind, Option.bind_some, readString?_of_quotes hname, hcolon,
    expect?_cons, String.ofList_toList]
  rfl

theorem Member.length_item_text_le (member : Member) :
    member.item.text.length ≤ member.text.length := by
  simp only [Member.text, List.length_append, List.length_cons]
  omega

theorem readMembers?_append {member : Member} {members : List Member} {rest : List Char} {fuel : Nat}
    (hpadded : ∀ m ∈ member :: members, m.IsPadded)
    (hnames : ∀ m ∈ member :: members, Quotes m.spelling m.name.toList)
    (h : ∀ m ∈ member :: members, IsRead m.item.spelling m.item.value)
    (hfuel : member.text.length + (separated (members.map Member.text)).length < fuel) :
    readMembers? (fuel + 1) (member.text ++ (separated (members.map Member.text) ++ '}' :: rest)) =
      some ((member :: members).map fun m => (m.name, m.item.value), rest) := by
  induction members generalizing member fuel with
  | nil =>
      have hend : EndsRun continuesNumber ('}' :: rest) := EndsRun.cons.mpr rfl
      have hpad := hpadded member List.mem_cons_self
      have hname := readName?_append hpad (hnames member List.mem_cons_self) ('}' :: rest)
      have hroom : member.item.text.length < fuel :=
        Nat.lt_of_le_of_lt member.length_item_text_le
          (Nat.lt_of_le_of_lt (Nat.le_add_right _ _) hfuel)
      have hvalue := (h member List.mem_cons_self).item hpad.item hend hroom
      exact readMembers?_last hname hvalue
        (by rw [skipSpace_append hpad.item.2, skipSpace_cons rfl])
  | cons next members ih =>
      obtain ⟨hpad, hpads⟩ := List.forall_mem_cons.mp hpadded
      obtain ⟨hquotes, hquoteses⟩ := List.forall_mem_cons.mp hnames
      obtain ⟨hread, hreads⟩ := List.forall_mem_cons.mp h
      rw [List.map_cons, separated_cons, List.length_cons, List.length_append] at hfuel
      obtain ⟨fuel, rfl⟩ : ∃ n, fuel = n + 1 := ⟨fuel - 1, by omega⟩
      have hothers := @ih next fuel hpads hquoteses hreads (by omega)
      rw [List.map_cons, separated_cons, List.cons_append, List.append_assoc]
      generalize next.text ++ (separated (members.map Member.text) ++ '}' :: rest) = more
        at hothers ⊢
      have hend : EndsRun continuesNumber (',' :: more) := EndsRun.cons.mpr rfl
      have hname := readName?_append hpad hquotes (',' :: more)
      have hroom : member.item.text.length < fuel + 1 := by
        have hle := member.length_item_text_le
        omega
      have hvalue := hread.item hpad.item hend hroom
      rw [readMembers?_more hname hvalue
        (by rw [skipSpace_append hpad.item.2, skipSpace_cons rfl]), hothers]
      rfl

/-- Whether the reader sees the white space in front of a value makes no difference. -/
theorem skipSpace_item_append {item : Item} (hpadded : item.IsPadded)
    (h : Spells item.spelling item.value) (rest : List Char) :
    ∃ c ds, skipSpace (item.text ++ rest) = c :: ds ∧ c ≠ ']' ∧
      item.text ++ rest = item.before ++ c :: ds := by
  obtain ⟨c, ds, hspelling, hspace, hc⟩ := h.exists_cons
  have htext : item.text ++ rest = item.before ++ c :: (ds ++ (item.after ++ rest)) := by
    simp [Item.text, hspelling]
  refine ⟨c, _, ?_, hc, htext⟩
  rw [htext, skipSpace_append hpadded.1, skipSpace_cons hspace]

theorem skipSpace_member_append {member : Member} (hpadded : member.IsPadded) (rest : List Char) :
    ∃ ds, skipSpace (member.text ++ rest) = '"' :: ds ∧
      member.text ++ rest = member.before ++ '"' :: ds := by
  have htext : member.text ++ rest = member.before ++ '"' :: _ := List.append_assoc ..
  refine ⟨_, ?_, htext⟩
  rw [htext, skipSpace_append hpadded.before, skipSpace_cons rfl]

theorem isRead_of_spells {cs : List Char} {j : Json} (h : Spells cs j) : IsRead cs j := by
  induction h with
  | nullWord | trueWord | falseWord =>
      intro rest fuel _ _
      rw [List.cons_append, readValue?, skipSpace_cons rfl]
      simp only [expect?_append]
      rfl
  | number h =>
      intro rest fuel hrest _
      obtain ⟨c, ds, rfl, hc⟩ := h.exists_cons
      rw [List.cons_append, readValue?_number hc, ← List.cons_append,
        readNumber?_of_spellsNumber h hrest]
  | string h =>
      intro rest fuel _ _
      rw [List.cons_append, List.append_assoc, readValue?_string, List.singleton_append,
        readString?_of_quotes h]
      rfl
  | @emptyArray cs hcs =>
      intro rest fuel _ _
      have hskip : skipSpace (cs ++ ']' :: rest) = ']' :: rest := by
        rw [skipSpace_append hcs, skipSpace_cons rfl]
      rw [List.cons_append, List.append_assoc, List.singleton_append, readValue?_bracket hskip,
        if_pos rfl]
  | @array item items hpadded h ih =>
      intro rest fuel _ hfuel
      simp only [List.length_cons, List.length_append] at hfuel
      obtain ⟨fuel, rfl⟩ : ∃ n, fuel = n + 1 := ⟨fuel - 1, by omega⟩
      obtain ⟨c, ds, hskip, hc, htext⟩ := skipSpace_item_append (hpadded item List.mem_cons_self)
        (h item List.mem_cons_self) (separated (items.map Item.text) ++ ']' :: rest)
      have hitems := @readItems?_append item items rest fuel hpadded ih (by omega)
      rw [htext, readItems?_padding_append (hpadded item List.mem_cons_self).1] at hitems
      rw [List.cons_append, List.append_assoc, List.append_assoc, List.singleton_append,
        readValue?_bracket hskip, if_neg hc, hitems]
      rfl
  | @emptyObject cs hcs =>
      intro rest fuel _ _
      have hskip : skipSpace (cs ++ '}' :: rest) = '}' :: rest := by
        rw [skipSpace_append hcs, skipSpace_cons rfl]
      rw [List.cons_append, List.append_assoc, List.singleton_append, readValue?_brace hskip,
        if_pos rfl]
  | @object member members hpadded hnames h ih =>
      intro rest fuel _ hfuel
      simp only [List.length_cons, List.length_append] at hfuel
      obtain ⟨fuel, rfl⟩ : ∃ n, fuel = n + 1 := ⟨fuel - 1, by omega⟩
      obtain ⟨ds, hskip, htext⟩ := skipSpace_member_append (hpadded member List.mem_cons_self)
        (separated (members.map Member.text) ++ '}' :: rest)
      have hmembers := @readMembers?_append member members rest fuel hpadded hnames ih (by omega)
      rw [htext, readMembers?_padding_append (hpadded member List.mem_cons_self).before] at hmembers
      rw [List.cons_append, List.append_assoc, List.append_assoc, List.singleton_append,
        readValue?_brace hskip, if_neg (by decide), hmembers]
      rfl

/-! ## What is read is spelled -/

/-- What the reader takes as a value with this fuel is spelled so. -/
def TakesValues (fuel : Nat) : Prop :=
  ∀ cs j rest, readValue? fuel cs = some (j, rest) →
    ∃ pad spelling, cs = pad ++ (spelling ++ rest) ∧ IsPadding pad ∧ Spells spelling j

def TakesItems (fuel : Nat) : Prop :=
  ∀ cs js rest, readItems? fuel cs = some (js, rest) →
    ∃ text, cs = text ++ ']' :: rest ∧ SpellsItems text js

def TakesMembers (fuel : Nat) : Prop :=
  ∀ cs ms rest, readMembers? fuel cs = some (ms, rest) →
    ∃ text, cs = text ++ '}' :: rest ∧ SpellsMembers text ms

theorem eq_append_of_expect? {xs cs rest : List Char} (h : expect? xs cs = some rest) :
    cs = xs ++ rest := by
  induction xs generalizing cs with
  | nil =>
      cases h
      rfl
  | cons x xs ih =>
      cases cs with
      | nil => cases h
      | cons c cs =>
          rw [expect?] at h
          split at h
          · next hx => rw [hx, ih h, List.cons_append]
          · cases h

theorem takesValues_succ {fuel : Nat} (hitems : TakesItems fuel) (hmembers : TakesMembers fuel) :
    TakesValues (fuel + 1) := by
  intro cs j rest h
  obtain ⟨pad, hcs, hpad⟩ := exists_padding cs
  suffices hspells : ∃ spelling, skipSpace cs = spelling ++ rest ∧ Spells spelling j by
    obtain ⟨spelling, hskip, hspells⟩ := hspells
    exact ⟨pad, spelling, by rw [← hskip, ← hcs], hpad, hspells⟩
  rw [readValue?] at h
  generalize skipSpace cs = ds at h
  split at h
  · next ds =>
      obtain ⟨⟨s, ds'⟩, hread, hvalue⟩ := Option.bind_eq_some_iff.mp h
      obtain ⟨qs, hds, hquotes⟩ := quotes_of_readString? hread
      cases hvalue
      exact ⟨_, by rw [hds]; simp, .string hquotes⟩
  · next ds =>
      obtain ⟨pad', hds, hpad'⟩ := exists_padding ds
      split at h
      · next es hskip =>
          cases h
          rw [hskip] at hds
          exact ⟨_, by rw [hds]; simp, .emptyArray hpad'⟩
      · obtain ⟨⟨js, ds'⟩, hread, hvalue⟩ := Option.bind_eq_some_iff.mp h
        rw [← readItems?_padding_append hpad', ← hds] at hread
        obtain ⟨text, hds, htext⟩ := hitems _ _ _ hread
        cases hvalue
        exact ⟨_, by rw [hds]; simp, htext.array⟩
  · next ds =>
      obtain ⟨pad', hds, hpad'⟩ := exists_padding ds
      split at h
      · next es hskip =>
          cases h
          rw [hskip] at hds
          exact ⟨_, by rw [hds]; simp, .emptyObject hpad'⟩
      · obtain ⟨⟨ms, ds'⟩, hread, hvalue⟩ := Option.bind_eq_some_iff.mp h
        rw [← readMembers?_padding_append hpad', ← hds] at hread
        obtain ⟨text, hds, htext⟩ := hmembers _ _ _ hread
        cases hvalue
        exact ⟨_, by rw [hds]; simp, htext.object⟩
  · next ds =>
      obtain ⟨ds', hexpect, hvalue⟩ := Option.bind_eq_some_iff.mp h
      cases hvalue
      exact ⟨_, by rw [eq_append_of_expect? hexpect]; rfl, .nullWord⟩
  · next ds =>
      obtain ⟨ds', hexpect, hvalue⟩ := Option.bind_eq_some_iff.mp h
      cases hvalue
      exact ⟨_, by rw [eq_append_of_expect? hexpect]; rfl, .trueWord⟩
  · next ds =>
      obtain ⟨ds', hexpect, hvalue⟩ := Option.bind_eq_some_iff.mp h
      cases hvalue
      exact ⟨_, by rw [eq_append_of_expect? hexpect]; rfl, .falseWord⟩
  · obtain ⟨ns, hds, hnumber⟩ := spellsNumber_of_readNumber? h
    exact ⟨ns, hds, .number hnumber⟩

/-- A value with the white space around it, as far as the reader looks behind it. -/
theorem TakesValues.exists_item {fuel : Nat} (hvalues : TakesValues fuel) {cs ds : List Char}
    {j : Json} (h : readValue? fuel cs = some (j, ds)) :
    ∃ item : Item, cs = item.text ++ skipSpace ds ∧ item.value = j ∧ item.IsPadded ∧
      Spells item.spelling item.value := by
  obtain ⟨pad, spelling, hcs, hpad, hspells⟩ := hvalues _ _ _ h
  obtain ⟨pad', hds, hpad'⟩ := exists_padding ds
  refine ⟨⟨pad, spelling, pad', j⟩, ?_, rfl, ⟨hpad, hpad'⟩, hspells⟩
  rw [hcs, Item.text, List.append_assoc, List.append_assoc, ← hds]

theorem takesItems_succ {fuel : Nat} (hvalues : TakesValues fuel) (hitems : TakesItems fuel) :
    TakesItems (fuel + 1) := by
  intro cs js rest h
  rw [readItems?] at h
  obtain ⟨⟨j, ds⟩, hread, hbehind⟩ := Option.bind_eq_some_iff.mp h
  obtain ⟨item, hcs, rfl, hpadded, hspells⟩ := hvalues.exists_item hread
  clear h hread
  dsimp only at hbehind
  generalize skipSpace ds = es at hbehind hcs
  split at hbehind
  · next es =>
      obtain ⟨⟨js', es'⟩, hread, hlist⟩ := Option.bind_eq_some_iff.mp hbehind
      obtain ⟨text, hes, htext⟩ := hitems _ _ _ hread
      cases hlist
      exact ⟨_, by rw [hcs, hes]; simp, .cons hpadded hspells htext⟩
  · next es =>
      cases hbehind
      exact ⟨_, hcs, .single hpadded hspells⟩
  · cases hbehind

/-- A name with the colon behind it. The value is read from there. -/
theorem exists_name_of_readName? {cs ds : List Char} {name : String}
    (h : readName? cs = some (name, ds)) :
    ∃ pad spelling pad', cs = pad ++ ('"' :: (spelling ++ ('"' :: (pad' ++ (':' :: ds))))) ∧
      IsPadding pad ∧ Quotes spelling name.toList ∧ IsPadding pad' := by
  obtain ⟨pad, hcs, hpad⟩ := exists_padding cs
  rw [readName?] at h
  obtain ⟨cs₁, hquote, h₁⟩ := Option.bind_eq_some_iff.mp h
  obtain ⟨⟨s, cs₂⟩, hread, h₂⟩ := Option.bind_eq_some_iff.mp h₁
  obtain ⟨cs₃, hcolon, h₃⟩ := Option.bind_eq_some_iff.mp h₂
  obtain ⟨spelling, hcs₁, hquotes⟩ := quotes_of_readString? hread
  obtain ⟨pad', hcs₂, hpad'⟩ := exists_padding cs₂
  cases h₃
  refine ⟨pad, spelling, pad', ?_, hpad, by rwa [String.toList_ofList], hpad'⟩
  rw [eq_append_of_expect? hcolon] at hcs₂
  rw [hcs, eq_append_of_expect? hquote, hcs₁, hcs₂]
  rfl

theorem takesMembers_succ {fuel : Nat} (hvalues : TakesValues fuel) (hmembers : TakesMembers fuel) :
    TakesMembers (fuel + 1) := by
  intro cs ms rest h
  rw [readMembers?] at h
  obtain ⟨⟨name, cs'⟩, hname, h'⟩ := Option.bind_eq_some_iff.mp h
  obtain ⟨⟨j, ds⟩, hread, hbehind⟩ := Option.bind_eq_some_iff.mp h'
  obtain ⟨pad, spelling, pad', hcs, hpad, hquotes, hpad'⟩ := exists_name_of_readName? hname
  obtain ⟨item, hcs', rfl, hpadded, hspells⟩ := hvalues.exists_item hread
  clear h h' hname hread
  dsimp only at hbehind
  rw [hcs'] at hcs
  generalize skipSpace ds = es at hbehind hcs
  split at hbehind
  · next es =>
      obtain ⟨⟨ms', es'⟩, hread, hlist⟩ := Option.bind_eq_some_iff.mp hbehind
      obtain ⟨text, hes, htext⟩ := hmembers _ _ _ hread
      cases hlist
      have hcons := @SpellsMembers.cons ⟨pad, spelling, pad', name, item⟩ _ _
        ⟨hpad, hpad', hpadded⟩ hquotes hspells htext
      exact ⟨_, by rw [hcs, hes]; simp [Member.text], hcons⟩
  · next es =>
      cases hbehind
      have hsingle := @SpellsMembers.single ⟨pad, spelling, pad', name, item⟩
        ⟨hpad, hpad', hpadded⟩ hquotes hspells
      exact ⟨_, by rw [hcs]; simp [Member.text], hsingle⟩
  · cases hbehind

theorem takes (fuel : Nat) : TakesValues fuel ∧ TakesItems fuel ∧ TakesMembers fuel := by
  induction fuel with
  | zero =>
      refine ⟨?_, ?_, ?_⟩
      all_goals
        intro _ _ _ h
        cases h
  | succ fuel ih =>
      obtain ⟨hvalues, hitems, hmembers⟩ := ih
      exact ⟨takesValues_succ hitems hmembers, takesItems_succ hvalues hitems,
        takesMembers_succ hvalues hmembers⟩

/-! ## Documents -/

/-- The reader finds the value of every document. -/
theorem read?_of_document {text : String} {j : Json} (h : Document text j) :
    read? text = some j := by
  obtain ⟨item, htext, rfl, hpadded, hspells⟩ := h
  have hroom : item.text.length < 2 * text.length + 2 := by
    rw [← htext, String.length_toList]
    omega
  have hvalue := (isRead_of_spells hspells).item hpadded (EndsRun.nil _) hroom
  have hend : skipSpace item.after = [] := by
    rw [← List.append_nil item.after, skipSpace_append hpadded.2]
    rfl
  rw [List.append_nil, List.append_nil] at hvalue
  rw [read?, htext, hvalue]
  simp only [hend]
  rfl

theorem document_of_read? {text : String} {j : Json} (h : read? text = some j) :
    Document text j := by
  rw [read?] at h
  split at h
  · next value rest hvalue =>
      split at h
      · next hend =>
          cases h
          obtain ⟨item, htext, hj, hpadded, hspells⟩ := (takes _).1.exists_item hvalue
          rw [List.isEmpty_iff.mp hend, List.append_nil] at htext
          exact ⟨item, htext, hj, hpadded, hspells⟩
      · cases h
  · cases h

/-- The documents, with their values, are what the reader accepts. -/
theorem read?_eq_some_iff {text : String} {j : Json} : read? text = some j ↔ Document text j :=
  ⟨document_of_read?, read?_of_document⟩

/-- A text is a document with one value only. -/
theorem Document.unique {text : String} {j j' : Json} (h : Document text j)
    (h' : Document text j') : j' = j := by
  rw [← Option.some.injEq, ← read?_of_document h, ← read?_of_document h']

end Lexing.Json
