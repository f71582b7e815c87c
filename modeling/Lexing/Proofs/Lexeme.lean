import Lexing.Proofs.Reading
import Lexing.Scan

/-!
# Lexemes

A lexeme is a token without its place: a kind and a text. This module holds
the grammar of lexemes, independently of how a scan finds them: how a lexeme
is spelled, which texts fit which kind, and which characters directly behind
a lexeme would belong to it. `begins` sorts every text by what it begins with.
-/

namespace Lexing

structure Lexeme where
  kind : Kind
  text : String
  deriving DecidableEq, Repr

def Token.lexeme (t : Token) : Lexeme := { kind := t.kind, text := t.text }

/-- Blanks only, possibly none: what may stand between lexemes. -/
def IsGap (cs : List Char) : Prop := ∀ c ∈ cs, isBlank c = true

theorem isGap_nil : IsGap [] := by simp [IsGap]

/-- The punctuation that a scan knows, in the order of `Kind.ofSymbol?`. -/
def symbols : List Char :=
  ['-', '+', '*', '/', ':', ';', '?', '!', '<', '>', '(', ')', '[', ']', '{', '}']

/-- A character that no lexeme begins with and no gap contains. -/
structure Foreign (c : Char) : Prop where
  not_blank : isBlank c = false
  not_lineFeed : c ≠ '\n'
  not_quote : c ≠ '"'
  /-- No letter, no digit and no underscore. -/
  not_part : isIdentifierPart c = false
  not_symbol : c ∉ symbols

namespace Lexeme

/-- The characters that a lexeme is read from. The quotation marks are not
part of the text of a string. -/
def spelling (l : Lexeme) : List Char :=
  if l.kind = .string then '"' :: l.text.toList ++ ['"'] else l.text.toList

/-- The text fits the kind, and the kind is one that a scan delivers. -/
inductive WellFormed : Lexeme → Prop
  | integer {digits : List Char} (hne : digits ≠ []) (hdigits : ∀ c ∈ digits, c.isDigit = true) :
      WellFormed ⟨.integer, String.ofList digits⟩
  | identifier {c : Char} {cs : List Char} (hc : isIdentifierStart c = true)
      (hcs : ∀ d ∈ cs, isIdentifierPart d = true) :
      WellFormed ⟨.identifier, String.ofList (c :: cs)⟩
  | string {body : List Char} (hbody : '"' ∉ body) : WellFormed ⟨.string, String.ofList body⟩
  | lineFeed : WellFormed ⟨.lineBreak, "\n"⟩
  | lineFeedReturn : WellFormed ⟨.lineBreak, "\n\r"⟩
  | symbol {kind : Kind} {c : Char} (hc : kind.symbol? = some c) (hdot : kind ≠ .dot)
      (hcomma : kind ≠ .comma) : WellFormed ⟨kind, String.singleton c⟩

/-- Whether a character directly behind the lexeme would belong to it. -/
def extendedBy (l : Lexeme) (c : Char) : Bool :=
  match l.kind with
  | .integer => c.isDigit
  | .identifier => isIdentifierPart c
  | .lineBreak => l.text = "\n" && c = '\r'
  | _ => false

/-- Whether the text is gathered in the buffer. -/
def isGathered (l : Lexeme) : Bool := l.kind = .identifier || l.kind = .string

@[simp] theorem spelling_string (body : List Char) :
    (⟨.string, String.ofList body⟩ : Lexeme).spelling = '"' :: body ++ ['"'] := by
  simp [spelling]

@[simp] theorem spelling_of_ne_string {kind : Kind} (cs : List Char) (h : kind ≠ .string) :
    (⟨kind, String.ofList cs⟩ : Lexeme).spelling = cs := by
  simp [spelling, h]

theorem spelling_symbol {kind : Kind} {c : Char} (h : kind.symbol? = some c) :
    (⟨kind, String.singleton c⟩ : Lexeme).spelling = [c] := by
  have hkind : kind ≠ .string := by
    rintro rfl
    cases h
  simp [spelling, hkind]

@[simp] theorem extendedBy_string (text : String) (c : Char) :
    (⟨.string, text⟩ : Lexeme).extendedBy c = false := rfl

@[simp] theorem extendedBy_lineFeed (c : Char) :
    (⟨.lineBreak, "\n"⟩ : Lexeme).extendedBy c = decide (c = '\r') := by
  simp [extendedBy]

@[simp] theorem extendedBy_lineFeedReturn (c : Char) :
    (⟨.lineBreak, "\n\r"⟩ : Lexeme).extendedBy c = false := by
  simp [extendedBy]

theorem extendedBy_symbol {kind : Kind} {c : Char} (h : kind.symbol? = some c) (text : String)
    (d : Char) : (⟨kind, text⟩ : Lexeme).extendedBy d = false := by
  cases kind <;> cases h <;> rfl

end Lexeme

/-! ## The character that opens a lexeme -/

/-- Every letter comes behind the digits. -/
theorem lt_toNat_of_isAlpha {c : Char} (h : c.isAlpha = true) : '9'.toNat < c.toNat := by
  rcases (Bool.or_eq_true ..).mp h with hupper | hlower
  · have hrange : decide (c.val ≥ 'A'.val ∧ c.val ≤ 'Z'.val) = true := hupper
    exact Nat.lt_of_lt_of_le (by decide) (UInt32.le_iff_toNat_le.mp (of_decide_eq_true hrange).1)
  · have hrange : (decide (c.val ≥ 'a'.val) && decide (c.val ≤ 'z'.val)) = true := hlower
    rw [Bool.and_eq_true, decide_eq_true_eq] at hrange
    exact Nat.lt_of_lt_of_le (by decide) (UInt32.le_iff_toNat_le.mp hrange.1)

theorem isDigit_eq_false_of_isIdentifierStart {c : Char} (h : isIdentifierStart c = true) :
    c.isDigit = false := by
  rw [Bool.eq_false_iff]
  intro hdigit
  obtain ⟨-, hle⟩ := Char.isDigit_iff_toNat.mp hdigit
  rw [isIdentifierStart, Bool.or_eq_true, decide_eq_true_eq] at h
  rcases h with halpha | rfl
  · exact Nat.not_lt.mpr hle (lt_toNat_of_isAlpha halpha)
  · exact absurd hdigit (by decide)

theorem isIdentifierPart_of_isDigit {c : Char} (h : c.isDigit = true) :
    isIdentifierPart c = true := by
  simp [isIdentifierPart, Char.isAlphanum, h]

theorem isIdentifierPart_iff {c : Char} :
    isIdentifierPart c = true ↔ isIdentifierStart c = true ∨ c.isDigit = true := by
  simp only [isIdentifierPart, isIdentifierStart, Char.isAlphanum, Bool.or_eq_true]
  exact or_right_comm

theorem isBlank_iff {c : Char} : isBlank c = true ↔ c = ' ' ∨ c = '\t' ∨ c = '\r' := by
  simp [isBlank, or_assoc]

theorem isBlank_eq_false_of_isIdentifierPart {c : Char} (h : isIdentifierPart c = true) :
    isBlank c = false := by
  rw [Bool.eq_false_iff, ne_eq, isBlank_iff]
  rintro (rfl | rfl | rfl) <;> revert h <;> decide

theorem ofSymbol?_eq_none_iff {c : Char} : Kind.ofSymbol? c = none ↔ c ∉ symbols := by
  unfold Kind.ofSymbol?
  split <;> simp_all [symbols]

namespace Opening

theorem ofChar?_of_isDigit {c : Char} (h : c.isDigit = true) : ofChar? c = some .integer := by
  simp [ofChar?, h]

theorem ofChar?_of_isIdentifierStart {c : Char} (h : isIdentifierStart c = true) :
    ofChar? c = some .identifier := by
  have hdigit := isDigit_eq_false_of_isIdentifierStart h
  have hquote : c ≠ '"' := by rintro rfl; revert h; decide
  have hfeed : c ≠ '\n' := by rintro rfl; revert h; decide
  simp [ofChar?, h, hdigit, hquote, hfeed]

theorem ofChar?_of_symbol {kind : Kind} {c : Char} (hc : kind.symbol? = some c)
    (hdot : kind ≠ .dot) (hcomma : kind ≠ .comma) : ofChar? c = some (.symbol kind) := by
  cases kind <;> cases hc <;> first | decide | contradiction

/-- A character other than a blank is foreign exactly if it opens nothing. -/
theorem ofChar?_eq_none_iff {c : Char} (hblank : isBlank c = false) :
    ofChar? c = none ↔ Foreign c := by
  constructor
  · intro h
    unfold ofChar? at h
    repeat' split at h
    all_goals try cases h
    next hdigit hquote hfeed hstart =>
      refine ⟨hblank, hfeed, hquote, ?_, ofSymbol?_eq_none_iff.mp (by simpa using h)⟩
      rw [Bool.eq_false_iff, ne_eq, isIdentifierPart_iff]
      exact not_or.mpr ⟨hstart, hdigit⟩
  · intro h
    have hpart : ¬ (isIdentifierStart c = true ∨ c.isDigit = true) := by
      rw [← isIdentifierPart_iff, h.not_part]
      simp
    obtain ⟨hstart, hdigit⟩ := not_or.mp hpart
    simp [ofChar?, hstart, hdigit, h.not_lineFeed, h.not_quote,
      ofSymbol?_eq_none_iff.mpr h.not_symbol]

theorem symbol_of_ofChar? {c : Char} {kind : Kind} (h : ofChar? c = some (.symbol kind)) :
    kind.symbol? = some c ∧ kind ≠ .dot ∧ kind ≠ .comma := by
  unfold ofChar? at h
  repeat' split at h
  all_goals try cases h
  exact Kind.ofSymbol?_eq_some_iff.mp (by simpa using h)

theorem eq_quote_of_ofChar? {c : Char} (h : ofChar? c = some .string) : c = '"' := by
  unfold ofChar? at h
  repeat' split at h
  all_goals simp_all

theorem eq_lineFeed_of_ofChar? {c : Char} (h : ofChar? c = some .lineBreak) : c = '\n' := by
  unfold ofChar? at h
  repeat' split at h
  all_goals simp_all

end Opening

namespace Lexeme

/-- What a lexeme of this kind is opened by. -/
def opening (l : Lexeme) : Opening :=
  match l.kind with
  | .integer => .integer
  | .identifier => .identifier
  | .string => .string
  | .lineBreak => .lineBreak
  | kind => .symbol kind

/-- The spelling of a lexeme begins with a character that opens its kind. -/
theorem WellFormed.exists_spelling_eq_cons {l : Lexeme} (hl : l.WellFormed) :
    ∃ c cs, l.spelling = c :: cs ∧ isBlank c = false ∧ Opening.ofChar? c = some l.opening := by
  cases hl with
  | @integer digits hne hdigits =>
      obtain ⟨c, cs, rfl⟩ := List.exists_cons_of_ne_nil hne
      have hc : c.isDigit = true := hdigits c List.mem_cons_self
      exact ⟨c, cs, spelling_of_ne_string _ (by decide),
        isBlank_eq_false_of_isIdentifierPart (isIdentifierPart_of_isDigit hc),
        Opening.ofChar?_of_isDigit hc⟩
  | @identifier c cs hc hcs =>
      exact ⟨c, cs, spelling_of_ne_string _ (by decide),
        isBlank_eq_false_of_isIdentifierPart (isIdentifierPart_iff.mpr (.inl hc)),
        Opening.ofChar?_of_isIdentifierStart hc⟩
  | @string body hbody => exact ⟨'"', body ++ ['"'], spelling_string body, by decide, by rfl⟩
  | lineFeed => exact ⟨'\n', [], by decide, by decide, by decide⟩
  | lineFeedReturn => exact ⟨'\n', ['\r'], by decide, by decide, by decide⟩
  | @symbol kind c hc hdot hcomma =>
      refine ⟨c, [], spelling_symbol hc, ?_, ?_⟩
      · cases kind <;> cases hc <;> decide
      · rw [Opening.ofChar?_of_symbol hc hdot hcomma]
        cases kind <;> cases hc <;> rfl

/-- A scan delivers neither of these as a lexeme. -/
theorem WellFormed.kind_notMem {l : Lexeme} (hl : l.WellFormed) :
    l.kind ∉ [.undefined, .endOfFile, .float, .dot, .comma] := by
  cases hl with
  | @symbol kind c hc hdot hcomma =>
      simp only [List.mem_cons, List.not_mem_nil, or_false, not_or]
      refine ⟨?_, ?_, ?_, hdot, hcomma⟩ <;> rintro rfl <;> cases hc
  | _ => simp

end Lexeme

/-! ## What a text begins with -/

/-- The ways in which a text without blanks in front can go on. A lexeme is
the longest of its kind: what follows does not extend it. -/
inductive Begins (cs : List Char) : Prop
  | nothing (hcs : cs = [])
  | foreign {c : Char} {rest : List Char} (hcs : cs = c :: rest) (hc : Foreign c)
  | openString {body : List Char} (hcs : cs = '"' :: body) (hbody : '"' ∉ body)
  | lexeme {l : Lexeme} {rest : List Char} (hcs : cs = l.spelling ++ rest) (hl : l.WellFormed)
      (hrest : EndsRun l.extendedBy rest)

namespace Begins

variable {c : Char} {cs : List Char}

theorem of_isDigit (hc : c.isDigit = true) : Begins (c :: cs) := by
  obtain ⟨digits, rest, hcs, hdigits, hrest⟩ := exists_run Char.isDigit (c :: cs)
  have hne : digits ≠ [] := by
    rintro rfl
    rw [List.nil_append] at hcs
    rw [← hcs, EndsRun.cons, hc] at hrest
    cases hrest
  refine .lexeme ?_ (.integer hne hdigits) hrest
  rwa [Lexeme.spelling_of_ne_string _ (by decide)]

theorem of_isIdentifierStart (hc : isIdentifierStart c = true) : Begins (c :: cs) := by
  obtain ⟨word, rest, hcs, hword, hrest⟩ := exists_run isIdentifierPart cs
  refine .lexeme ?_ (.identifier hc hword) hrest
  rw [Lexeme.spelling_of_ne_string _ (by decide), hcs, List.cons_append]

theorem quote : Begins ('"' :: cs) := by
  obtain ⟨body, rest, hcs, hbody, hrest⟩ := exists_run (· != '"') cs
  have hmem : '"' ∉ body := fun h => by simpa using hbody _ h
  cases rest with
  | nil =>
      rw [List.append_nil] at hcs
      exact .openString rfl (hcs ▸ hmem)
  | cons d rest =>
      have hd : d = '"' := by simpa using hrest
      refine .lexeme ?_ (.string hmem) (EndsRun.of_forall rest fun c => Lexeme.extendedBy_string _ c)
      rw [Lexeme.spelling_string, hcs, hd]
      simp

theorem lineFeed : Begins ('\n' :: cs) := by
  cases cs with
  | nil => exact .lexeme rfl .lineFeed (EndsRun.nil _)
  | cons d cs =>
      by_cases hreturn : d = '\r'
      · subst hreturn
        exact .lexeme rfl .lineFeedReturn (.of_forall cs Lexeme.extendedBy_lineFeedReturn)
      · exact .lexeme rfl .lineFeed (by simpa using hreturn)

theorem of_symbol {kind : Kind} (hc : kind.symbol? = some c) (hdot : kind ≠ .dot)
    (hcomma : kind ≠ .comma) : Begins (c :: cs) := by
  refine .lexeme ?_ (.symbol hc hdot hcomma) (.of_forall cs (Lexeme.extendedBy_symbol hc _))
  rw [Lexeme.spelling_symbol hc]
  rfl

end Begins

theorem begins {cs : List Char} (h : EndsRun isBlank cs) : Begins cs := by
  cases cs with
  | nil => exact .nothing rfl
  | cons c cs =>
      rw [EndsRun.cons] at h
      cases hopen : Opening.ofChar? c with
      | none => exact .foreign rfl ((Opening.ofChar?_eq_none_iff h).mp hopen)
      | some opening =>
          cases opening with
          | integer => exact .of_isDigit (Opening.isDigit_of_ofChar? hopen)
          | identifier => exact .of_isIdentifierStart (Opening.isIdentifierStart_of_ofChar? hopen)
          | string =>
              rw [Opening.eq_quote_of_ofChar? hopen]
              exact .quote
          | lineBreak =>
              rw [Opening.eq_lineFeed_of_ofChar? hopen]
              exact .lineFeed
          | symbol kind =>
              obtain ⟨hc, hdot, hcomma⟩ := Opening.symbol_of_ofChar? hopen
              exact .of_symbol hc hdot hcomma

end Lexing
