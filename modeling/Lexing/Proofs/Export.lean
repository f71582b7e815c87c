import Lexing.Proofs.Decoding
import Lexing.Token.Listing

/-!
# Tokens written as JSON

The writer follows the grammar of documents: whatever characters the strings of
a value hold, the text that it is written as is a document with this value.
Therefore a listing of tokens as JSON tells them apart, and reading it gives
the same tokens again.
-/

namespace Lexing

namespace Json

/-! ## Strings and numbers -/

theorem hexValue?_hexDigit {n : Nat} (h : n < 16) : hexValue? (hexDigit n) = some n := by
  have hall : ∀ n < 16, hexValue? (hexDigit n) = some n := by decide
  exact hall n h

/-- A control character is written as its number. -/
theorem codeUnit?_hexDigit {n : Nat} (h : n < 0x20) :
    codeUnit? '0' '0' (hexDigit (n / 16)) (hexDigit (n % 16)) = some n := by
  have hzero : hexValue? '0' = some 0 := by decide
  have hhigh : n / 16 < 16 := by omega
  have hlow : n % 16 < 16 := Nat.mod_lt n (by decide)
  have hvalue : ((0 * 16 + 0) * 16 + n / 16) * 16 + n % 16 = n := by omega
  simp only [codeUnit?, hzero, hexValue?_hexDigit hhigh, hexValue?_hexDigit hlow,
    Option.bind_eq_bind, Option.bind_some, hvalue]
  rfl

theorem quotes_escapeChar_append (c : Char) {cs s : List Char} (h : Quotes cs s) :
    Quotes (escapeChar c ++ cs) (c :: s) := by
  unfold escapeChar
  repeat' split
  -- Seven characters have a letter of their own.
  iterate 7
    next hc =>
      subst hc
      exact .letter rfl h
  · next hcontrol => exact .unit (codeUnit?_hexDigit hcontrol) h
  · next hquote hslash _ _ _ _ _ hcontrol => exact .raw (Nat.not_lt.mp hcontrol) hquote hslash h

theorem quotes_flatMap_escapeChar (s : List Char) : Quotes (s.flatMap escapeChar) s := by
  induction s with
  | nil => exact .nil
  | cons c s ih =>
      rw [List.flatMap_cons]
      exact quotes_escapeChar_append c ih

theorem spells_writeString (s : String) : Spells (writeString s) (.string s) := by
  have hquotes := Spells.string (quotes_flatMap_escapeChar s.toList)
  rwa [String.ofList_toList] at hquotes

/-- Only zero is written with a zero in front. -/
theorem eq_zero_of_head?_digits {n : Nat} (h : (Decimal.digits n).head? = some '0') : n = 0 := by
  induction n using Nat.strongRecOn with
  | ind n ih =>
      by_cases hsmall : n < 10
      · have hdigit : ∀ n < 10, n.digitChar = '0' → n = 0 := by decide
        rw [Decimal.digits, Nat.toDigits_of_lt_base hsmall] at h
        exact hdigit n hsmall (Option.some.inj h)
      · -- The first digit is that of a tenth of the number, which is not zero.
        have hlarge := Nat.not_lt.mp hsmall
        have hfront := List.exists_cons_of_ne_nil (Nat.toDigits_ne_nil (n := n / 10) (b := 10))
        obtain ⟨d, ds, hdigits⟩ := hfront
        rw [Decimal.digits, Nat.toDigits_of_base_le (by decide) hlarge, hdigits] at h
        have htenth := ih (n / 10) (by omega) (by rw [Decimal.digits, hdigits]; exact h)
        omega

theorem isWhole_digits (n : Nat) : IsWhole (Decimal.digits n) := by
  refine ⟨⟨Nat.toDigits_ne_nil, ?_⟩, ?_⟩
  · exact fun c hc => Nat.isDigit_of_mem_toDigits (by decide) (by decide) hc
  · intro hhead
    rw [eq_zero_of_head?_digits hhead]
    rfl

theorem spellsNumber_writeInteger (n : Int) : SpellsNumber (writeInteger n) (.integer n) := by
  cases n with
  | ofNat n =>
      have hnatural := SpellsNumber.natural (isWhole_digits n)
      rw [Decimal.digits, Nat.ofDigitChars_ten_toDigits] at hnatural
      exact hnatural
  | negSucc n =>
      have hvalue : Nat.ofDigitChars 10 (Decimal.digits (n + 1)) 0 = n + 1 :=
        Nat.ofDigitChars_ten_toDigits
      have hnegative := SpellsNumber.negative (isWhole_digits (n + 1))
        (by rw [hvalue]; exact Nat.succ_ne_zero n)
      rw [hvalue] at hnegative
      exact hnegative

/-! ## Values -/

/-- A value whose numbers are numbers as they stand. -/
inductive Writable : Json → Prop
  | null : Writable .null
  | bool (b : Bool) : Writable (.bool b)
  | integer (n : Int) : Writable (.integer n)
  | decimal {literal : String} (h : SpellsNumber literal.toList (.decimal literal)) :
      Writable (.decimal literal)
  | string (s : String) : Writable (.string s)
  | array {items : List Json} (h : ∀ j ∈ items, Writable j) : Writable (.array items)
  | object {members : List (String × Json)} (h : ∀ m ∈ members, Writable m.2) :
      Writable (.object members)

/-- A layout puts nothing but white space between what it lays out. -/
structure Layout.Pads (layout : Layout) : Prop where
  lineStart : ∀ depth, IsPadding (layout.lineStart depth)
  afterColon : IsPadding layout.afterColon

theorem Layout.pads_indented : Layout.indented.Pads where
  lineStart := by
    intro depth c hc
    rcases List.mem_cons.mp hc with rfl | hc
    · rfl
    · rw [List.eq_of_mem_replicate hc]
      rfl
  afterColon := by simp [Layout.indented, IsPadding, isSpace]

section Write

variable {layout : Layout} (hlayout : layout.Pads)
include hlayout

/-- The items of an array, with `last` between the last of them and the bracket. -/
theorem spellsItems_write {depth : Nat} {last : List Char} (hlast : IsPadding last) {j : Json}
    {js : List Json} (h : ∀ k ∈ j :: js, Spells (write layout depth k) k) :
    SpellsItems
      (layout.lineStart depth ++ (write layout depth j ++ (writeItems layout depth js ++ last)))
      (j :: js) := by
  have hstart := hlayout.lineStart depth
  obtain ⟨hfirst, hothers⟩ := List.forall_mem_cons.mp h
  induction js generalizing j with
  | nil => exact @SpellsItems.single ⟨_, _, last, j⟩ ⟨hstart, hlast⟩ hfirst
  | cons next js ih =>
      obtain ⟨hnext, hrest⟩ := List.forall_mem_cons.mp hothers
      have hitems := @SpellsItems.cons ⟨layout.lineStart depth, write layout depth j, [], j⟩ _ _
        ⟨hstart, isPadding_nil⟩ hfirst (ih hothers hnext hrest)
      simpa [Item.text, writeItems] using hitems

/-- The members of an object, with `last` between the last of them and the bracket. -/
theorem spellsMembers_write {depth : Nat} {last : List Char} (hlast : IsPadding last)
    {m : String × Json} {ms : List (String × Json)}
    (h : ∀ n ∈ m :: ms, Spells (write layout depth n.2) n.2) :
    SpellsMembers
      (layout.lineStart depth ++ (writeString m.1 ++ (':' :: (layout.afterColon ++
        (write layout depth m.2 ++ (writeMembers layout depth ms ++ last))))))
      (m :: ms) := by
  have hstart := hlayout.lineStart depth
  obtain ⟨hfirst, hothers⟩ := List.forall_mem_cons.mp h
  have hname := quotes_flatMap_escapeChar m.1.toList
  induction ms generalizing m with
  | nil =>
      have hmembers := @SpellsMembers.single
        ⟨layout.lineStart depth, m.1.toList.flatMap escapeChar, [], m.1,
          ⟨layout.afterColon, write layout depth m.2, last, m.2⟩⟩
        ⟨hstart, isPadding_nil, hlayout.afterColon, hlast⟩ hname hfirst
      simpa [Member.text, Item.text, writeString, writeMembers] using hmembers
  | cons next ms ih =>
      obtain ⟨hnext, hrest⟩ := List.forall_mem_cons.mp hothers
      have hmembers := @SpellsMembers.cons
        ⟨layout.lineStart depth, m.1.toList.flatMap escapeChar, [], m.1,
          ⟨layout.afterColon, write layout depth m.2, [], m.2⟩⟩ _ _
        ⟨hstart, isPadding_nil, hlayout.afterColon, isPadding_nil⟩ hname hfirst
        (ih hothers hnext hrest (quotes_flatMap_escapeChar next.1.toList))
      simpa [Member.text, Item.text, writeString, writeMembers] using hmembers

theorem spells_write {j : Json} (h : Writable j) (depth : Nat) :
    Spells (write layout depth j) j := by
  induction h generalizing depth with
  | null => exact .nullWord
  | bool b =>
      cases b with
      | true => exact .trueWord
      | false => exact .falseWord
  | integer n => exact .number (spellsNumber_writeInteger n)
  | @decimal literal h => exact .number h
  | string s => exact spells_writeString s
  | @array items _ ih =>
      cases items with
      | nil => exact .emptyArray isPadding_nil
      | cons j js =>
          have hitems := spellsItems_write hlayout (hlayout.lineStart depth)
            fun k hk => ih k hk (depth + 1)
          simpa [write] using hitems.array
  | @object members _ ih =>
      cases members with
      | nil => exact .emptyObject isPadding_nil
      | cons m ms =>
          have hmembers := spellsMembers_write hlayout (hlayout.lineStart depth)
            fun n hn => ih n hn (depth + 1)
          obtain ⟨name, j⟩ := m
          simpa [write] using hmembers.object

end Write

/-- The text of a value is a document with this value. -/
theorem document_pretty {j : Json} (h : Writable j) : Document j.pretty j :=
  ⟨⟨[], write .indented 0 j, [], j⟩, by simp [pretty, Item.text], rfl,
    ⟨isPadding_nil, isPadding_nil⟩, spells_write Layout.pads_indented h 0⟩

end Json

/-! ## Tokens -/

namespace Token

theorem writable_toJson (t : Token) : t.toJson.Writable := by
  apply Json.Writable.object
  simp only [List.forall_mem_cons, List.not_mem_nil, false_implies, implies_true, and_true]
  exact ⟨.string _, .string _, .integer _, .integer _, .integer _⟩

/-- The record of a token is read field by field. -/
theorem ofJson?_toJson {t : Token} (h : t.position.Fits) : ofJson? t.toJson = some t := by
  obtain ⟨hoffset, hline, hcolumn⟩ := h
  have hkind : Kind.ofJson? t.kind.toJson = some t.kind := Kind.ofName?_name t.kind
  have hfields : t.toJson.fields? ["kind", "text", "line", "column", "offset"] =
      some [t.kind.toJson, .string t.text, .ofNat t.position.line, .ofNat t.position.column,
        .ofNat t.position.offset] := rfl
  rw [ofJson?, hfields]
  simp only [Option.bind_eq_bind, Option.bind_some, hkind, Json.string?, Json.natBelow?_ofNat hline,
    Json.natBelow?_ofNat hcolumn, Json.natBelow?_ofNat hoffset]
  rfl

/-- The tokens of an array, if it is one and all of its items are tokens. -/
def listOfJson? (j : Json) : Option (List Token) := j.array?.bind fun items => items.mapM ofJson?

theorem listOfJson?_map_toJson {tokens : List Token} (h : ∀ t ∈ tokens, t.position.Fits) :
    listOfJson? (.array (tokens.map toJson)) = some tokens := by
  show (tokens.map toJson).mapM ofJson? = some tokens
  induction tokens with
  | nil => rfl
  | cons t tokens ih =>
      obtain ⟨ht, htokens⟩ := List.forall_mem_cons.mp h
      rw [List.map_cons, List.mapM_cons, ofJson?_toJson ht, ih htokens]
      rfl

theorem document_jsonListing (tokens : List Token) :
    Json.Document (jsonListing tokens) (.array (tokens.map toJson)) := by
  apply Json.document_pretty
  apply Json.Writable.array
  intro j hj
  obtain ⟨t, -, rfl⟩ := List.mem_map.mp hj
  exact t.writable_toJson

/-- The text is a listing that gives the tokens again. -/
structure Carries (text : String) (tokens : List Token) : Prop where
  document : ∃ j, Json.Document text j
  /-- However the document is read, its value is an array of these tokens. -/
  decodes : ∀ j, Json.Document text j → listOfJson? j = some tokens
  reads : (Json.read? text).bind listOfJson? = some tokens
  /-- No other tokens are listed so. -/
  unique : ∀ others : List Token, (∀ t ∈ others, t.position.Fits) →
    listingAs true others = text → others = tokens

theorem carries_listingAs_true {tokens : List Token} (h : ∀ t ∈ tokens, t.position.Fits) :
    Carries (listingAs true tokens) tokens := by
  have hdocument := document_jsonListing tokens
  have hdecodes : ∀ j, Json.Document (jsonListing tokens) j → listOfJson? j = some tokens := by
    intro j hj
    rw [hdocument.unique hj, listOfJson?_map_toJson h]
  refine ⟨⟨_, hdocument⟩, hdecodes, ?_, ?_⟩
  · show (Json.read? (jsonListing tokens)).bind listOfJson? = some tokens
    rw [Json.read?_of_document hdocument]
    exact hdecodes _ hdocument
  · intro others hothers hsame
    have hother := document_jsonListing others
    rw [show jsonListing others = jsonListing tokens from hsame] at hother
    have hvalue := hdecodes _ hother
    rw [listOfJson?_map_toJson hothers] at hvalue
    exact Option.some.inj hvalue

/-- A text with characters to escape and one that reads like a member, and the largest position. -/
theorem carries_listingAs_true_member :
    (∀ t ∈ [⟨.string, "\"text\": \\\n\x01é", ⟨0, 0, 0⟩⟩,
        (⟨.endOfFile, "", ⟨4294967295, 4294967295, 4294967295⟩⟩ : Token)], t.position.Fits) ∧
    Carries (listingAs true [⟨.string, "\"text\": \\\n\x01é", ⟨0, 0, 0⟩⟩,
        ⟨.endOfFile, "", ⟨4294967295, 4294967295, 4294967295⟩⟩])
      [⟨.string, "\"text\": \\\n\x01é", ⟨0, 0, 0⟩⟩,
        ⟨.endOfFile, "", ⟨4294967295, 4294967295, 4294967295⟩⟩] ∧
    listingAs true [⟨.string, "\"text\": \\\n\x01é", ⟨0, 0, 0⟩⟩] =
      "[\n  \x7b\n    \"kind\": \"String\",\n    \"text\": \"\\\"text\\\": \\\\\\n\\u0001é\",\n" ++
        "    \"line\": 0,\n    \"column\": 0,\n    \"offset\": 0\n  \x7d\n]" := by
  have hfits : ∀ t ∈ [⟨.string, "\"text\": \\\n\x01é", ⟨0, 0, 0⟩⟩,
      (⟨.endOfFile, "", ⟨4294967295, 4294967295, 4294967295⟩⟩ : Token)], t.position.Fits := by
    simp [Position.Fits, Position.bound]
  exact ⟨hfits, carries_listingAs_true hfits, by decide +kernel⟩

end Token

end Lexing
