import Lexing.Json.Reader

/-!
# JSON documents

The grammar of RFC 8259, apart from how a reader finds its way: which texts
spell a string, a number or a value, and which value that is. White space may
surround every value, and every name of a member. Code units, escapes and what
is white space are taken from the tables that the reader looks them up in.
-/

namespace Lexing.Json

/-- White space only, possibly none: what may surround values and names. -/
def IsPadding (cs : List Char) : Prop := ∀ c ∈ cs, isSpace c = true

/-! ## The grammar -/

/-- How the characters of a string are written between its quotation marks. A
character outside of the basic plane may be written as a pair of surrogates. -/
inductive Quotes : (cs s : List Char) → Prop
  | nil : Quotes [] []
  | raw {c : Char} {cs s : List Char} (hc : 0x20 ≤ c.toNat) (hquote : c ≠ '"') (hslash : c ≠ '\\')
      (h : Quotes cs s) : Quotes (c :: cs) (c :: s)
  | letter {letter c : Char} {cs s : List Char} (hletter : ofEscape? letter = some c)
      (h : Quotes cs s) : Quotes ('\\' :: letter :: cs) (c :: s)
  | unit {a b c d char : Char} {cs s : List Char} (hunit : codeUnit? a b c d = some char.toNat)
      (h : Quotes cs s) : Quotes ('\\' :: 'u' :: a :: b :: c :: d :: cs) (char :: s)
  | surrogates {a b c d e f g h char : Char} {high low : Nat} {cs s : List Char}
      (hunit : codeUnit? a b c d = some (0xD800 + high))
      (hunit' : codeUnit? e f g h = some (0xDC00 + low)) (hhigh : high < 0x400) (hlow : low < 0x400)
      (hchar : char.toNat = 0x10000 + high * 0x400 + low) (hs : Quotes cs s) :
      Quotes ('\\' :: 'u' :: a :: b :: c :: d :: '\\' :: 'u' :: e :: f :: g :: h :: cs) (char :: s)

def IsDigits (cs : List Char) : Prop := cs ≠ [] ∧ ∀ c ∈ cs, c.isDigit = true

/-- The digits in front of the fraction, where a zero stands alone. -/
def IsWhole (cs : List Char) : Prop := IsDigits cs ∧ (cs.head? = some '0' → cs = ['0'])

def IsFraction (cs : List Char) : Prop := cs = [] ∨ ∃ digits, IsDigits digits ∧ cs = '.' :: digits

def IsExponent (cs : List Char) : Prop :=
  cs = [] ∨ ∃ e ∈ ['e', 'E'], ∃ sign ∈ [[], ['+'], ['-']], ∃ digits, IsDigits digits ∧
    cs = e :: (sign ++ digits)

/-- Numbers and their values. A number with a fraction or an exponent is its own
value, and so is minus zero, which is no integer. -/
inductive SpellsNumber : List Char → Json → Prop
  | natural {whole : List Char} (h : IsWhole whole) :
      SpellsNumber whole (.integer (Nat.ofDigitChars 10 whole 0))
  | negative {whole : List Char} (h : IsWhole whole) (hzero : Nat.ofDigitChars 10 whole 0 ≠ 0) :
      SpellsNumber ('-' :: whole) (.integer (-Nat.ofDigitChars 10 whole 0))
  | decimal {negative : Bool} {whole fraction exponent : List Char} (h : IsWhole whole)
      (hfraction : IsFraction fraction) (hexponent : IsExponent exponent)
      (hkept : fraction ≠ [] ∨ exponent ≠ [] ∨ negative = true ∧ Nat.ofDigitChars 10 whole 0 = 0) :
      SpellsNumber ((if negative then ['-'] else []) ++ (whole ++ (fraction ++ exponent)))
        (.decimal (String.ofList ((if negative then ['-'] else []) ++ (whole ++ (fraction ++ exponent)))))

/-- A value as it stands in a text: how it is spelled, and what surrounds it. -/
structure Item where
  before : List Char
  spelling : List Char
  after : List Char
  value : Json

def Item.text (item : Item) : List Char := item.before ++ (item.spelling ++ item.after)

def Item.IsPadded (item : Item) : Prop := IsPadding item.before ∧ IsPadding item.after

/-- A member as it stands in a text: its name, how the name is spelled and what surrounds it,
and the value behind the colon. -/
structure Member where
  before : List Char
  spelling : List Char
  after : List Char
  name : String
  item : Item

def Member.text (member : Member) : List Char :=
  member.before ++ ('"' :: (member.spelling ++ ('"' :: (member.after ++ (':' :: member.item.text)))))

structure Member.IsPadded (member : Member) : Prop where
  before : IsPadding member.before
  after : IsPadding member.after
  item : member.item.IsPadded

/-- The texts of further items, each behind a comma. -/
def separated (texts : List (List Char)) : List Char := texts.flatMap (',' :: ·)

/-- How values are spelled. -/
inductive Spells : List Char → Json → Prop
  | nullWord : Spells ['n', 'u', 'l', 'l'] .null
  | trueWord : Spells ['t', 'r', 'u', 'e'] (.bool true)
  | falseWord : Spells ['f', 'a', 'l', 's', 'e'] (.bool false)
  | number {cs : List Char} {j : Json} (h : SpellsNumber cs j) : Spells cs j
  | string {cs s : List Char} (h : Quotes cs s) :
      Spells ('"' :: (cs ++ ['"'])) (.string (String.ofList s))
  | emptyArray {cs : List Char} (hcs : IsPadding cs) : Spells ('[' :: (cs ++ [']'])) (.array [])
  | array {item : Item} {items : List Item} (hpadded : ∀ i ∈ item :: items, i.IsPadded)
      (h : ∀ i ∈ item :: items, Spells i.spelling i.value) :
      Spells ('[' :: (item.text ++ (separated (items.map Item.text) ++ [']'])))
        (.array ((item :: items).map Item.value))
  | emptyObject {cs : List Char} (hcs : IsPadding cs) : Spells ('{' :: (cs ++ ['}'])) (.object [])
  | object {member : Member} {members : List Member}
      (hpadded : ∀ m ∈ member :: members, m.IsPadded)
      (hnames : ∀ m ∈ member :: members, Quotes m.spelling m.name.toList)
      (h : ∀ m ∈ member :: members, Spells m.item.spelling m.item.value) :
      Spells ('{' :: (member.text ++ (separated (members.map Member.text) ++ ['}'])))
        (.object ((member :: members).map fun m => (m.name, m.item.value)))

/-- The text is a document with this value. -/
def Document (text : String) (j : Json) : Prop :=
  ∃ item : Item, text.toList = item.text ∧ item.value = j ∧ item.IsPadded ∧
    Spells item.spelling item.value

theorem isPadding_nil : IsPadding [] := by simp [IsPadding]

@[simp] theorem separated_cons (text : List Char) (texts : List (List Char)) :
    separated (text :: texts) = ',' :: (text ++ separated texts) := rfl

/-! ## Items and members, one behind the other -/

/-- One or more values with commas between them. -/
def SpellsItems (cs : List Char) (js : List Json) : Prop :=
  ∃ item items, cs = item.text ++ separated (items.map Item.text) ∧
    (item :: items).map Item.value = js ∧
    ∀ i ∈ item :: items, i.IsPadded ∧ Spells i.spelling i.value

namespace SpellsItems

variable {item : Item} {cs : List Char} {js : List Json}

theorem single (hpadded : item.IsPadded) (h : Spells item.spelling item.value) :
    SpellsItems item.text [item.value] := by
  refine ⟨item, [], (List.append_nil _).symm, rfl, ?_⟩
  intro i hi
  obtain rfl := List.mem_singleton.mp hi
  exact ⟨hpadded, h⟩

theorem cons (hpadded : item.IsPadded) (h : Spells item.spelling item.value)
    (hothers : SpellsItems cs js) : SpellsItems (item.text ++ ',' :: cs) (item.value :: js) := by
  obtain ⟨next, items, rfl, rfl, hitems⟩ := hothers
  refine ⟨item, next :: items, rfl, rfl, ?_⟩
  rw [List.forall_mem_cons]
  exact ⟨⟨hpadded, h⟩, hitems⟩

theorem array (h : SpellsItems cs js) : Spells ('[' :: (cs ++ [']'])) (.array js) := by
  obtain ⟨item, items, rfl, rfl, hitems⟩ := h
  rw [List.append_assoc]
  exact .array (fun i hi => (hitems i hi).1) fun i hi => (hitems i hi).2

end SpellsItems

/-- One or more members with commas between them. -/
def SpellsMembers (cs : List Char) (ms : List (String × Json)) : Prop :=
  ∃ member members, cs = member.text ++ separated (members.map Member.text) ∧
    (member :: members).map (fun m => (m.name, m.item.value)) = ms ∧
    ∀ m ∈ member :: members, m.IsPadded ∧ Quotes m.spelling m.name.toList ∧
      Spells m.item.spelling m.item.value

namespace SpellsMembers

variable {member : Member} {cs : List Char} {ms : List (String × Json)}

theorem single (hpadded : member.IsPadded) (hname : Quotes member.spelling member.name.toList)
    (h : Spells member.item.spelling member.item.value) :
    SpellsMembers member.text [(member.name, member.item.value)] := by
  refine ⟨member, [], (List.append_nil _).symm, rfl, ?_⟩
  intro m hm
  obtain rfl := List.mem_singleton.mp hm
  exact ⟨hpadded, hname, h⟩

theorem cons (hpadded : member.IsPadded) (hname : Quotes member.spelling member.name.toList)
    (h : Spells member.item.spelling member.item.value) (hothers : SpellsMembers cs ms) :
    SpellsMembers (member.text ++ ',' :: cs) ((member.name, member.item.value) :: ms) := by
  obtain ⟨next, members, rfl, rfl, hmembers⟩ := hothers
  refine ⟨member, next :: members, rfl, rfl, ?_⟩
  rw [List.forall_mem_cons]
  exact ⟨⟨hpadded, hname, h⟩, hmembers⟩

theorem object (h : SpellsMembers cs ms) : Spells ('{' :: (cs ++ ['}'])) (.object ms) := by
  obtain ⟨member, members, rfl, rfl, hmembers⟩ := h
  rw [List.append_assoc]
  exact .object (fun m hm => (hmembers m hm).1) (fun m hm => (hmembers m hm).2.1)
    fun m hm => (hmembers m hm).2.2

end SpellsMembers

end Lexing.Json
