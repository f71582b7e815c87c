import Lexing.Proofs.Unescaping
import Lexing.Token.Listing

/-!
# Tokens read back from a listing

A line of a listing is split from both ends: the name of the kind ends at the
first square bracket, and the line and the column are the last two numbers, so
whatever the text between them looks like, it is taken as a whole. A listing
therefore tells the tokens that it was made of, but for their offsets, and which
characters were escaped does not matter to the reader.
-/

namespace Lexing

namespace Token

/-- What a listing shows of a token. -/
structure Shown where
  kind : Kind
  text : String
  line : Nat
  column : Nat
  deriving DecidableEq, Repr

def shown (t : Token) : Shown :=
  { kind := t.kind, text := t.text, line := t.position.line, column := t.position.column }

/-- Tokens that differ in their offsets at most. -/
structure SameButOffset (t u : Token) : Prop where
  kind : t.kind = u.kind
  text : t.text = u.text
  line : t.position.line = u.position.line
  column : t.position.column = u.position.column

theorem shown_eq_iff {t u : Token} : t.shown = u.shown ↔ SameButOffset t u := by
  constructor
  · intro h
    obtain ⟨hkind, htext, hline, hcolumn⟩ := Shown.mk.inj h
    exact ⟨hkind, htext, hline, hcolumn⟩
  · rintro ⟨hkind, htext, hline, hcolumn⟩
    rw [shown, hkind, htext, hline, hcolumn, shown]

/-! ## The end of a line -/

/-- Reads the number at the end of a text that is given backwards. -/
def readBack? (back : List Char) : Option (Nat × List Char) :=
  (Decimal.ofDigits? (back.takeWhile Char.isDigit).reverse).map
    fun n => (n, back.dropWhile Char.isDigit)

theorem readBack?_append (n : Nat) {back : List Char} (hend : EndsRun Char.isDigit back) :
    readBack? ((Decimal.digits n).reverse ++ back) = some (n, back) := by
  have hdigits : ∀ c ∈ (Decimal.digits n).reverse, c.isDigit = true := by
    intro c hc
    exact Nat.isDigit_of_mem_toDigits (by decide) (by decide) (List.mem_reverse.mp hc)
  rw [readBack?, takeWhile_append_of_endsRun hdigits hend,
    dropWhile_append_of_endsRun hdigits hend, List.reverse_reverse, Decimal.ofDigits?_digits]
  rfl

/-- Splits off the line and the column at the end of a text. -/
def splitPlace? (cs : List Char) : Option (List Char × Nat × Nat) :=
  match readBack? cs.reverse with
  | some (column, ':' :: back) =>
      match readBack? back with
      | some (line, ' ' :: '@' :: ' ' :: back) => some (back.reverse, line, column)
      | _ => none
  | _ => none

theorem splitPlace?_append (cs : List Char) (line column : Nat) :
    splitPlace? (cs ++ [' ', '@', ' '] ++ Decimal.digits line ++ ':' :: Decimal.digits column) =
      some (cs, line, column) := by
  have hback : (cs ++ [' ', '@', ' '] ++ Decimal.digits line ++
        ':' :: Decimal.digits column).reverse =
      (Decimal.digits column).reverse ++
        ':' :: ((Decimal.digits line).reverse ++ ' ' :: '@' :: ' ' :: cs.reverse) := by
    simp
  have hcolumn : ∀ back, EndsRun Char.isDigit (':' :: back) := fun _ => EndsRun.cons.mpr (by decide)
  have hline : ∀ back, EndsRun Char.isDigit (' ' :: back) := fun _ => EndsRun.cons.mpr (by decide)
  rw [splitPlace?, hback, readBack?_append column (hcolumn _)]
  simp only [readBack?_append line (hline _), List.reverse_reverse]

/-! ## Lines -/

/-- The line that shows it, without the line feed that ends the line. -/
def Shown.write (classes : Text.CharClasses) (s : Shown) : List Char :=
  '[' :: (s.kind.name.toList ++ ']' :: ' ' ::
    (Text.escapeWith classes .bare s.text.toList ++ [' ', '@', ' '] ++ Decimal.digits s.line ++
      ':' :: Decimal.digits s.column))

theorem listingLine_eq (classes : Text.CharClasses) (t : Token) :
    listingLine classes t = t.shown.write classes ++ ['\n'] := by
  simp [listingLine, Shown.write, shown]

def readLine? : List Char → Option Shown
  | '[' :: cs =>
      match cs.dropWhile (· != ']') with
      | ']' :: ' ' :: rest => do
          let kind ← Kind.ofName? (String.ofList (cs.takeWhile (· != ']')))
          let (escaped, line, column) ← splitPlace? rest
          let text ← Text.unescape? escaped
          pure { kind, text := String.ofList text, line, column }
      | _ => none
  | _ => none

theorem readLine?_write (classes : Text.CharClasses) (s : Shown) :
    readLine? (s.write classes) = some s := by
  have hname : ∀ c ∈ s.kind.name.toList, (c != ']') = true := by
    rw [← List.all_eq_true]
    cases s.kind <;> rfl
  have hbracket : ∀ rest, EndsRun (· != ']') (']' :: rest) := fun _ => EndsRun.cons.mpr rfl
  rw [Shown.write, readLine?, dropWhile_append_of_endsRun hname (hbracket _),
    takeWhile_append_of_endsRun hname (hbracket _), String.ofList_toList]
  simp only [Kind.ofName?_name, splitPlace?_append, Text.unescape?_escapeWith,
    Option.bind_eq_bind, Option.bind_some, String.ofList_toList]
  rfl

theorem lineFeed_notMem_write (classes : Text.CharClasses) (s : Shown) :
    '\n' ∉ s.write classes := by
  have hname : '\n' ∉ s.kind.name.toList := by
    cases s.kind <;> decide
  have hdigits : ∀ n, '\n' ∉ Decimal.digits n := by
    intro n hmem
    exact absurd (Nat.isDigit_of_mem_toDigits (by decide) (by decide) hmem) (by decide)
  simp [Shown.write, hname, hdigits, Text.lineFeed_notMem_escapeWith]

/-! ## Listings -/

/-- Reads a text line by line, each of which a line feed ends. -/
def readListing? (cs : List Char) : Option (List Shown) := (cs.splitOn '\n').dropLast.mapM readLine?

/-- Lines that each end with a line feed are found again. -/
theorem splitOn_flatMap {lines : List (List Char)} (h : ∀ line ∈ lines, '\n' ∉ line) :
    (lines.flatMap (· ++ ['\n'])).splitOn '\n' = lines ++ [[]] := by
  induction lines with
  | nil => rfl
  | cons line lines ih =>
      obtain ⟨hline, hlines⟩ := List.forall_mem_cons.mp h
      rw [List.flatMap_cons, List.append_assoc, List.singleton_append,
        List.splitOn_append_cons_self, List.splitOn_eq_singleton hline, ih hlines]
      rfl

section Listing

variable (classes : Text.CharClasses)

/-- A listing depends on what it shows of the tokens, and on nothing else. -/
theorem listingWith_eq (tokens : List Token) :
    listingWith classes tokens =
      ((tokens.map shown).map (Shown.write classes)).flatMap (· ++ ['\n']) := by
  rw [listingWith, List.map_map, List.flatMap_map]
  congr 1
  funext t
  exact listingLine_eq classes t

theorem lineFeed_notMem_of_mem_map_write {all : List Shown} {line : List Char}
    (h : line ∈ all.map (Shown.write classes)) : '\n' ∉ line := by
  obtain ⟨s, -, rfl⟩ := List.mem_map.mp h
  exact lineFeed_notMem_write classes s

theorem readListing?_listingWith (tokens : List Token) :
    readListing? (listingWith classes tokens) = some (tokens.map shown) := by
  rw [readListing?, listingWith_eq,
    splitOn_flatMap fun _ hline => lineFeed_notMem_of_mem_map_write classes hline,
    List.dropLast_concat]
  induction tokens.map shown with
  | nil => rfl
  | cons s all ih =>
      rw [List.map_cons, List.mapM_cons, readLine?_write, ih]
      rfl

end Listing

theorem map_shown_eq_iff {tokens others : List Token} :
    others.map shown = tokens.map shown ↔
      others.length = tokens.length ∧ ∀ pair ∈ others.zip tokens, SameButOffset pair.1 pair.2 := by
  induction tokens generalizing others with
  | nil => simp
  | cons t tokens ih =>
      cases others with
      | nil => simp
      | cons u others =>
          rw [List.map_cons, List.map_cons, List.cons.injEq, ih, shown_eq_iff, List.zip_cons_cons,
            List.forall_mem_cons, List.length_cons, List.length_cons, Nat.succ_inj]
          constructor
          · rintro ⟨hsame, hlength, hothers⟩
            exact ⟨hlength, hsame, hothers⟩
          · rintro ⟨hlength, hsame, hothers⟩
            exact ⟨hsame, hlength, hothers⟩

/-- The listing of the tokens, where `classes` says which characters are escaped. -/
structure Recoverable (classes : Text.CharClasses) (tokens : List Token) : Prop where
  /-- There is a line for each token, in order, and a line feed behind each line. -/
  lines : ∃ lines : List (List Char), listingWith classes tokens = lines.flatMap (· ++ ['\n']) ∧
    (∀ line ∈ lines, '\n' ∉ line) ∧ lines.map readLine? = tokens.map (some ·.shown)
  /-- The reader does not know the classes. -/
  reads : readListing? (listingWith classes tokens) = some (tokens.map shown)
  /-- Only tokens that agree with these one by one are listed so. -/
  unique : ∀ others : List Token,
    listingWith classes others = listingWith classes tokens ↔
      others.length = tokens.length ∧ ∀ pair ∈ others.zip tokens, SameButOffset pair.1 pair.2

theorem recoverable (classes : Text.CharClasses) (tokens : List Token) :
    Recoverable classes tokens := by
  refine ⟨⟨_, listingWith_eq classes tokens, ?_, ?_⟩, readListing?_listingWith classes tokens, ?_⟩
  · exact fun line hline => lineFeed_notMem_of_mem_map_write classes hline
  · rw [List.map_map, List.map_map]
    apply List.map_congr_left
    intro t _
    exact readLine?_write classes t.shown
  · intro others
    rw [← map_shown_eq_iff]
    constructor
    · intro h
      have hread := readListing?_listingWith classes others
      rw [h, readListing?_listingWith] at hread
      exact (Option.some.inj hread).symm
    · intro h
      rw [listingWith_eq, listingWith_eq, h]

/-- Listings are lossless but for the offsets, whatever the classes are, and so are those
by the Unicode tables. -/
theorem recoverable_listingAs_false :
    (∀ (classes : Text.CharClasses) (tokens : List Token), Recoverable classes tokens) ∧
      ∀ tokens : List Token,
        readListing? (listingAs false tokens).toList = some (tokens.map shown) ∧
          ∀ others : List Token, listingAs false others = listingAs false tokens ↔
            others.length = tokens.length ∧
              ∀ pair ∈ others.zip tokens, SameButOffset pair.1 pair.2 := by
  refine ⟨recoverable, fun tokens => ⟨?_, fun others => ?_⟩⟩
  · have htext : (listingAs false tokens).toList = listingWith .unicode tokens :=
      String.toList_ofList
    rw [htext]
    exact (recoverable .unicode tokens).reads
  · rw [← (recoverable .unicode tokens).unique]
    show String.ofList _ = String.ofList _ ↔ _
    rw [String.ofList_inj]

/-- A text that looks like the end of its line, and one that looks escaped. -/
example : listingAs false [⟨.string, "] @ 1:2\n", ⟨0, 3, 4⟩⟩, ⟨.string, "\\u\x7b41\x7d", ⟨9, 4, 0⟩⟩] =
    "[String] ] @ 1:2\\n @ 3:4\n[String] \\\\u\x7b41\x7d @ 4:0\n" := by
  decide +kernel

end Token

end Lexing
