import Lexing.Proofs.Calls
import Lexing.Proofs.Document
import Mathlib.Algebra.Group.Nat.Defs

/-!
# Integers read from their digits

A numeral is one digit or more, with one plus sign in front at most. What it
stands for is the sum of its digits, each by its place. An integer token has
this value if it is below `2 ^ 64`, and none otherwise; how many zeros lead does
not matter. The digits may also be taken one by one, and the first number that
is too large be refused: no number on the way is larger than the value.

The text of an integer token that a scan delivers is a numeral without a sign.
-/

namespace Lexing

namespace Decimal

open Json (IsDigits)

/-! ## The value of digits -/

def digitValue (c : Char) : Nat := c.toNat - '0'.toNat

/-- The sum of the digits, each ten times what it would count one place later. -/
def placeValue : List Char → Nat
  | [] => 0
  | c :: cs => digitValue c * 10 ^ cs.length + placeValue cs

/-- A digit behind a number, and then more digits. -/
theorem add_placeValue_cons (n : Nat) (c : Char) (cs : List Char) :
    n * 10 ^ (c :: cs).length + placeValue (c :: cs) =
      (n * 10 + digitValue c) * 10 ^ cs.length + placeValue cs := by
  rw [placeValue, List.length_cons, Nat.pow_succ', Nat.add_mul, Nat.mul_assoc, Nat.add_assoc]

/-- Digits behind a number move it by as many places. -/
theorem ofDigitChars_eq_add_placeValue (cs : List Char) (n : Nat) :
    Nat.ofDigitChars 10 cs n = n * 10 ^ cs.length + placeValue cs := by
  induction cs generalizing n with
  | nil => exact (Nat.mul_one n).symm
  | cons c cs ih => rw [Nat.ofDigitChars_cons, ih, add_placeValue_cons, Nat.mul_comm 10, digitValue]

theorem placeValue_zeros_append (k : Nat) (cs : List Char) :
    placeValue (List.replicate k '0' ++ cs) = placeValue cs := by
  induction k with
  | zero => rfl
  | succ k ih =>
      have hzero : digitValue '0' = 0 := rfl
      rw [List.replicate_succ, List.cons_append, placeValue, hzero, ih, Nat.zero_mul, Nat.zero_add]

/-! ## Numerals -/

/-- The characters are a numeral, and the number is its value. -/
inductive Numeral : List Char → Nat → Prop
  | plain {cs : List Char} (h : IsDigits cs) : Numeral cs (placeValue cs)
  | signed {cs : List Char} (h : IsDigits cs) : Numeral ('+' :: cs) (placeValue cs)

theorem isDigits_zeros_append {cs : List Char} (h : IsDigits cs) (k : Nat) :
    IsDigits (List.replicate k '0' ++ cs) := by
  refine ⟨List.append_ne_nil_of_right_ne_nil _ h.1, ?_⟩
  intro c hc
  rcases List.mem_append.mp hc with hc | hc
  · rw [List.eq_of_mem_replicate hc]
    rfl
  · exact h.2 c hc

theorem ofDigits?_eq_some_iff {cs : List Char} {n : Nat} :
    ofDigits? cs = some n ↔ IsDigits cs ∧ placeValue cs = n := by
  simp [ofDigits?, IsDigits, ofDigitChars_eq_add_placeValue, and_assoc]

theorem dropPlus_of_isDigits {cs : List Char} (h : IsDigits cs) : dropPlus cs = cs := by
  unfold dropPlus
  split
  · exact absurd (h.2 '+' List.mem_cons_self) (by decide)
  · rfl

/-- A sign is dropped once, and a second one is no digit. -/
theorem ofDigits?_dropPlus_eq_some_iff {cs : List Char} {n : Nat} :
    ofDigits? (dropPlus cs) = some n ↔ Numeral cs n := by
  rw [ofDigits?_eq_some_iff]
  constructor
  · rintro ⟨h, rfl⟩
    revert h
    unfold dropPlus
    split
    · exact .signed
    · exact .plain
  · intro h
    cases h with
    | plain h =>
        rw [dropPlus_of_isDigits h]
        exact ⟨h, rfl⟩
    | signed h => exact ⟨h, rfl⟩

theorem parse?_eq_some_iff {bound n : Nat} {s : String} :
    parse? bound s = some n ↔ Numeral s.toList n ∧ n < bound := by
  rw [parse?, Option.filter_eq_some_iff, ofDigits?_dropPlus_eq_some_iff, decide_eq_true_eq]

theorem parse?_eq_none_iff {bound : Nat} {s : String} :
    parse? bound s = none ↔ ∀ n < bound, ¬ Numeral s.toList n := by
  rw [Option.eq_none_iff_forall_ne_some]
  constructor
  · exact fun h n hn hs => h n (parse?_eq_some_iff.mpr ⟨hs, hn⟩)
  · intro h n hsome
    obtain ⟨hs, hn⟩ := parse?_eq_some_iff.mp hsome
    exact h n hn hs

theorem parse?_of_isDigits {bound : Nat} {s : String} (h : IsDigits s.toList) :
    parse? bound s =
      if placeValue s.toList < bound then some (placeValue s.toList) else none := by
  have hvalue := ofDigits?_eq_some_iff.mpr ⟨h, rfl⟩
  rw [parse?, dropPlus_of_isDigits h, hvalue, Option.filter_some]
  simp only [decide_eq_true_eq]

/-! ## One digit after the other -/

/-- Puts a digit behind a number, unless it is no digit or the number gets too large. -/
def pushDigit? (bound n : Nat) (c : Char) : Option Nat :=
  if c.isDigit ∧ n * 10 + digitValue c < bound then some (n * 10 + digitValue c) else none

/-- Reads digits from the left, and refuses where a number on the way is too large. -/
def accumulate? (bound : Nat) (cs : List Char) : Option Nat :=
  if cs.isEmpty then none else cs.foldlM (pushDigit? bound) 0

/-- The numbers on the way grow, so that the last one decides. -/
theorem foldlM_pushDigit?_eq_some_iff {bound n m : Nat} {cs : List Char} (hn : n < bound) :
    cs.foldlM (pushDigit? bound) n = some m ↔
      (∀ c ∈ cs, c.isDigit = true) ∧ n * 10 ^ cs.length + placeValue cs = m ∧ m < bound := by
  induction cs generalizing n with
  | nil =>
      have hempty : n * 10 ^ ([] : List Char).length + placeValue [] = n := Nat.mul_one n
      rw [hempty, List.foldlM_nil]
      constructor
      · rintro ⟨⟩
        exact ⟨by simp, rfl, hn⟩
      · rintro ⟨-, rfl, -⟩
        rfl
  | cons c cs ih =>
      rw [List.foldlM_cons, add_placeValue_cons, List.forall_mem_cons, pushDigit?]
      by_cases hstep : c.isDigit ∧ n * 10 + digitValue c < bound
      · rw [if_pos hstep, Option.bind_eq_bind, Option.bind_some, ih hstep.2]
        simp [hstep.1]
      · rw [if_neg hstep, Option.bind_eq_bind, Option.bind_none]
        simp only [reduceCtorEq, false_iff]
        rintro ⟨⟨hc, -⟩, rfl, hlt⟩
        have hplaces : 0 < 10 ^ cs.length := Nat.pow_pos (by decide)
        have hgrows := Nat.le_mul_of_pos_right (n * 10 + digitValue c) hplaces
        exact hstep ⟨hc, by omega⟩

theorem accumulate?_dropPlus_eq_parse? {bound : Nat} (hbound : 0 < bound) (s : String) :
    accumulate? bound (dropPlus s.toList) = parse? bound s := by
  apply Option.ext
  intro n
  rw [parse?, Option.filter_eq_some_iff, ofDigits?_eq_some_iff, decide_eq_true_eq, accumulate?]
  cases hdigits : dropPlus s.toList with
  | nil => simp [IsDigits]
  | cons c cs =>
      rw [List.isEmpty_cons, if_neg Bool.false_ne_true, foldlM_pushDigit?_eq_some_iff hbound,
        Nat.zero_mul, Nat.zero_add]
      simp [IsDigits, and_assoc]

end Decimal

/-! ## Tokens -/

namespace Token

theorem integer_eq_typeMismatch_iff {t : Token} {kind : Kind} :
    t.integer = .error (.typeMismatch kind) ↔ t.kind ≠ .integer ∧ kind = t.kind := by
  rw [integer]
  by_cases hkind : t.kind = .integer
  · rw [if_pos hkind]
    cases Decimal.parse? integerBound t.text <;> simp [hkind]
  · rw [if_neg hkind]
    simp [hkind, eq_comm]

theorem integer_eq_ok_iff {t : Token} {n : Nat} :
    t.integer = .ok n ↔ t.kind = .integer ∧ Decimal.parse? integerBound t.text = some n := by
  rw [integer]
  by_cases hkind : t.kind = .integer
  · rw [if_pos hkind]
    cases Decimal.parse? integerBound t.text <;> simp [hkind]
  · rw [if_neg hkind]
    simp [hkind]

theorem integer_eq_outOfRange_iff {t : Token} {text : String} :
    t.integer = .error (.outOfRange text) ↔
      t.kind = .integer ∧ text = t.text ∧ Decimal.parse? integerBound t.text = none := by
  rw [integer]
  by_cases hkind : t.kind = .integer
  · rw [if_pos hkind]
    cases Decimal.parse? integerBound t.text <;> simp [hkind, eq_comm]
  · rw [if_neg hkind]
    simp [hkind]

/-- The token with zeros in front of its text. -/
def padded (t : Token) (k : Nat) : Token :=
  { t with text := String.ofList (List.replicate k '0' ++ t.text.toList) }

theorem integer_padded_eq_ok_iff {t : Token} (h : Json.IsDigits t.text.toList) (k n : Nat) :
    (t.padded k).integer = .ok n ↔ t.integer = .ok n := by
  have hpadded : (t.padded k).text.toList = List.replicate k '0' ++ t.text.toList :=
    String.toList_ofList
  have hdigits : Json.IsDigits (t.padded k).text.toList := by
    rw [hpadded]
    exact Decimal.isDigits_zeros_append h k
  rw [integer_eq_ok_iff, integer_eq_ok_iff, Decimal.parse?_of_isDigits hdigits,
    Decimal.parse?_of_isDigits h, hpadded, Decimal.placeValue_zeros_append]
  rfl

/-- What decoding a token gives, by its kind and its text. -/
structure DecodesExactly (t : Token) : Prop where
  typeMismatch : ∀ kind,
    t.integer = .error (.typeMismatch kind) ↔ t.kind ≠ .integer ∧ kind = t.kind
  ok : ∀ n, t.integer = .ok n ↔
    t.kind = .integer ∧ Decimal.Numeral t.text.toList n ∧ n < 2 ^ 64
  outOfRange : ∀ text, t.integer = .error (.outOfRange text) ↔
    t.kind = .integer ∧ text = t.text ∧ ∀ n < 2 ^ 64, ¬ Decimal.Numeral t.text.toList n
  /-- Zeros in front of digits do not make a number too large. -/
  zeros : Json.IsDigits t.text.toList → ∀ k n, (t.padded k).integer = .ok n ↔ t.integer = .ok n
  /-- Digit by digit, with no number of more than 64 bits on the way, the same comes out. -/
  stepwise : t.kind = .integer → ∀ n,
    t.integer = .ok n ↔ Decimal.accumulate? (2 ^ 64) (Decimal.dropPlus t.text.toList) = some n

theorem decodesExactly (t : Token) : DecodesExactly t where
  typeMismatch _ := integer_eq_typeMismatch_iff
  ok n := by
    rw [integer_eq_ok_iff, Decimal.parse?_eq_some_iff]
    rfl
  outOfRange text := by
    rw [integer_eq_outOfRange_iff, Decimal.parse?_eq_none_iff]
    rfl
  zeros h := integer_padded_eq_ok_iff h
  stepwise hkind n := by
    rw [Decimal.accumulate?_dropPlus_eq_parse? (by decide), integer_eq_ok_iff]
    exact and_iff_right hkind

/-- What decoding a token of digits gives. -/
structure DecodesDigits (t : Token) : Prop where
  isDigits : Json.IsDigits t.text.toList
  integer : t.integer =
    if Decimal.placeValue t.text.toList < 2 ^ 64 then .ok (Decimal.placeValue t.text.toList)
    else .error (.outOfRange t.text)

theorem decodesDigits {t : Token} (hkind : t.kind = .integer)
    (h : Json.IsDigits t.text.toList) : DecodesDigits t := by
  have hparse : Decimal.parse? integerBound t.text =
      if Decimal.placeValue t.text.toList < 2 ^ 64 then some (Decimal.placeValue t.text.toList)
      else none := Decimal.parse?_of_isDigits h
  refine ⟨h, ?_⟩
  rw [integer, if_pos hkind, hparse]
  by_cases hlt : Decimal.placeValue t.text.toList < 2 ^ 64
  · rw [if_pos hlt, if_pos hlt]
  · rw [if_neg hlt, if_neg hlt]

end Token

/-- The text of a lexeme of this kind has no sign. -/
theorem Lexeme.WellFormed.isDigits {l : Lexeme} (hl : l.WellFormed) (hkind : l.kind = .integer) :
    Json.IsDigits l.text.toList := by
  cases hl with
  | integer hne hdigits =>
      rw [String.toList_ofList]
      exact ⟨hne, hdigits⟩
  | @symbol kind c hc hdot hcomma =>
      have hinteger : kind = .integer := hkind
      rw [hinteger] at hc
      cases hc
  | _ => cases hkind

theorem Scan.isDigits_of_nextToken {s : Scan} {t : Token} (h : s.nextToken.result = .ok t)
    (hkind : t.kind = .integer) : Json.IsDigits t.text.toList := by
  have hmore : t.isEndOfFile = false := by simp [Token.isEndOfFile, hkind]
  obtain ⟨gap, l, rest, -, hl, -, -, -, hstep⟩ := exists_lexeme_of_nextToken h hmore
  rw [hstep] at h
  cases h
  exact hl.isDigits hkind

/-- Whatever its kind and its text are, a token is decoded exactly. An integer token of
a scan is decoded to the value of its digits, unless this is too large. -/
theorem integer_decodesExactly :
    (∀ t : Token, t.DecodesExactly) ∧
      ∀ (settings : Settings) (source : String) (scan : Scan),
        Scan.start? source settings = some scan →
        ∀ (history : List Call), ∀ a ∈ (scan.calls history).result, ∀ t : Token,
          .ok t ∈ a.results → t.kind = .integer → t.DecodesDigits := by
  refine ⟨Token.decodesExactly, ?_⟩
  intro settings source scan _ history a ha t ht hkind
  obtain ⟨u, -, hu⟩ := Scan.keep_mem_calls (P := fun _ => True) (fun _ _ => trivial)
    (fun _ _ _ => trivial) trivial ha ht
  exact Token.decodesDigits hkind (Scan.isDigits_of_nextToken hu hkind)

/-- Zeros in front, and the first number that is too large. -/
theorem integer_decodesExactly_twoPow :
    ∃ scan, Scan.start? "007 18446744073709551616" { capacity := 4 } = some scan ∧
      (scan.calls [.nextToken, .next]).result =
        [.token (.ok ⟨.integer, "007", ⟨0, 0, 0⟩⟩),
          .item (some (.ok ⟨.integer, "18446744073709551616", ⟨4, 1, 0⟩⟩))] ∧
      Token.DecodesDigits ⟨.integer, "007", ⟨0, 0, 0⟩⟩ ∧
      Token.DecodesDigits ⟨.integer, "18446744073709551616", ⟨4, 1, 0⟩⟩ ∧
      Token.integer ⟨.integer, "007", ⟨0, 0, 0⟩⟩ = .ok 7 ∧
      Token.integer ⟨.integer, "18446744073709551616", ⟨4, 1, 0⟩⟩ =
        .error (.outOfRange "18446744073709551616") ∧
      Token.DecodesExactly ⟨.integer, "+18446744073709551615", ⟨0, 0, 0⟩⟩ ∧
      Token.integer ⟨.integer, "+18446744073709551615", ⟨0, 0, 0⟩⟩ = .ok 18446744073709551615 := by
  obtain ⟨hexact, hscan⟩ := integer_decodesExactly
  refine ⟨_, rfl, rfl, ?_, ?_, rfl, rfl, hexact _, rfl⟩
  · exact hscan { capacity := 4 } "007 18446744073709551616" _ rfl [.nextToken, .next] _
      List.mem_cons_self _ (List.mem_singleton_self _) rfl
  · exact hscan { capacity := 4 } "007 18446744073709551616" _ rfl [.nextToken, .next] _
      (List.mem_cons_of_mem _ List.mem_cons_self) _ (List.mem_singleton_self _) rfl

end Lexing
