import Lexing.Proofs.Document
import Lexing.Proofs.Reading

/-!
# Reading the white space, strings and numbers of JSON

White space in front of what is read makes no difference. The reader takes every
string and every number of the grammar off the front of a text, whatever follows
the quotation mark, and whatever follows a number that does not go on with it.
What it takes is a string or a number of the grammar.
-/

namespace Lexing.Json

/-! ## White space -/

theorem skipSpace_append {pad : List Char} (h : IsPadding pad) (cs : List Char) :
    skipSpace (pad ++ cs) = skipSpace cs :=
  List.dropWhile_append_of_pos h

theorem skipSpace_cons {c : Char} (h : isSpace c = false) (cs : List Char) :
    skipSpace (c :: cs) = c :: cs :=
  List.dropWhile_cons_of_neg (by rw [h]; exact Bool.false_ne_true)

theorem exists_padding (cs : List Char) : ∃ pad, cs = pad ++ skipSpace cs ∧ IsPadding pad :=
  ⟨cs.takeWhile isSpace, List.takeWhile_append_dropWhile.symm, List.all_eq_true.mp List.all_takeWhile⟩

section Padding

/-! White space in front of a value, an item or a name is not seen by the reader. -/

variable {fuel : Nat} {pad cs : List Char}

theorem readValue?_padding_append (h : IsPadding pad) :
    readValue? fuel (pad ++ cs) = readValue? fuel cs := by
  cases fuel with
  | zero => rfl
  | succ fuel => rw [readValue?, readValue?, skipSpace_append h]

theorem readItems?_padding_append (h : IsPadding pad) :
    readItems? fuel (pad ++ cs) = readItems? fuel cs := by
  cases fuel with
  | zero => rfl
  | succ fuel => rw [readItems?, readItems?, readValue?_padding_append h]

theorem readName?_padding_append (h : IsPadding pad) :
    readName? (pad ++ cs) = readName? cs := by
  rw [readName?, readName?, skipSpace_append h]

theorem readMembers?_padding_append (h : IsPadding pad) :
    readMembers? fuel (pad ++ cs) = readMembers? fuel cs := by
  cases fuel with
  | zero => rfl
  | succ fuel => rw [readMembers?, readMembers?, readName?_padding_append h]

end Padding

/-! ## Strings -/

theorem ofCodePoint?_toNat (c : Char) : ofCodePoint? c.toNat = some c := by
  have hvalid : c.toNat.isValidChar := c.valid
  rw [ofCodePoint?, if_pos hvalid, Char.ofNat_toNat]

theorem isHighSurrogate_toNat (c : Char) : isHighSurrogate c.toNat = false := by
  have hvalid : c.toNat.isValidChar := c.valid
  rw [Nat.isValidChar] at hvalid
  rw [isHighSurrogate, Bool.and_eq_false_iff, decide_eq_false_iff_not, decide_eq_false_iff_not]
  omega

section Steps

variable {cs : List Char}

theorem readString?_raw {c : Char} (hc : 0x20 ≤ c.toNat) (hquote : c ≠ '"') (hslash : c ≠ '\\') :
    readString? (c :: cs) = (readString? cs).map fun (s, rest) => (c :: s, rest) := by
  rw [readString?.eq_def]
  split
  · next heq => cases heq
  · next heq =>
      cases heq
      exact absurd rfl hquote
  · next heq =>
      cases heq
      exact absurd rfl hslash
  · next heq =>
      cases heq
      exact absurd rfl hslash
  · next heq =>
      cases heq
      rw [if_neg (Nat.not_lt.mpr hc)]
      cases readString? cs <;> rfl

theorem readString?_letter {letter c : Char} (hletter : ofEscape? letter = some c) :
    readString? ('\\' :: letter :: cs) =
      (readString? cs).map fun (s, rest) => (c :: s, rest) := by
  have hunit : letter ≠ 'u' := by
    rintro rfl
    cases hletter
  rw [readString?.eq_def]
  split
  · next heq => cases heq
  · next heq => cases heq
  · next heq =>
      cases heq
      exact absurd rfl hunit
  · next heq =>
      cases heq
      rw [hletter]
      cases readString? cs <;> rfl
  · next hother heq =>
      cases heq
      exact absurd rfl (hother letter cs rfl)

theorem readString?_unit {a b c d char : Char} (hunit : codeUnit? a b c d = some char.toNat) :
    readString? ('\\' :: 'u' :: a :: b :: c :: d :: cs) =
      (readString? cs).map fun (s, rest) => (char :: s, rest) := by
  rw [readString?.eq_def]
  simp only [hunit, Option.bind_eq_bind, Option.bind_some, isHighSurrogate_toNat,
    Bool.false_eq_true, if_false, ofCodePoint?_toNat]
  cases readString? cs <;> rfl

theorem readString?_surrogates {a b c d e f g h char : Char} {high low : Nat}
    (hunit : codeUnit? a b c d = some (0xD800 + high))
    (hunit' : codeUnit? e f g h = some (0xDC00 + low)) (hhigh : high < 0x400) (hlow : low < 0x400)
    (hchar : char.toNat = 0x10000 + high * 0x400 + low) :
    readString? ('\\' :: 'u' :: a :: b :: c :: d :: '\\' :: 'u' :: e :: f :: g :: h :: cs) =
      (readString? cs).map fun (s, rest) => (char :: s, rest) := by
  have hisHigh : isHighSurrogate (0xD800 + high) = true := by
    rw [isHighSurrogate, Bool.and_eq_true, decide_eq_true_eq, decide_eq_true_eq]
    omega
  have hpair : ofSurrogates? (0xD800 + high) (0xDC00 + low) = some char := by
    have hisLow : (0xDC00 ≤ 0xDC00 + low && 0xDC00 + low < 0xE000) = true := by
      rw [Bool.and_eq_true, decide_eq_true_eq, decide_eq_true_eq]
      omega
    rw [ofSurrogates?, if_pos hisLow, Nat.add_sub_cancel_left, Nat.add_sub_cancel_left, ← hchar,
      ofCodePoint?_toNat]
  rw [readString?.eq_def]
  simp only [hunit, hunit', Option.bind_eq_bind, Option.bind_some, hisHigh, if_true, hpair]
  cases readString? cs <;> rfl

end Steps

theorem readString?_of_quotes {cs s : List Char} (h : Quotes cs s) (rest : List Char) :
    readString? (cs ++ '"' :: rest) = some (s, rest) := by
  induction h with
  | nil => rfl
  | raw hc hquote hslash _ ih =>
      rw [List.cons_append, readString?_raw hc hquote hslash, ih]
      rfl
  | letter hletter _ ih =>
      rw [List.cons_append, List.cons_append, readString?_letter hletter, ih]
      rfl
  | unit hunit _ ih =>
      simp only [List.cons_append]
      rw [readString?_unit hunit, ih]
      rfl
  | surrogates hunit hunit' hhigh hlow hchar _ ih =>
      simp only [List.cons_append]
      rw [readString?_surrogates hunit hunit' hhigh hlow hchar, ih]
      rfl

/-! ### What is read is a string -/

theorem toNat_of_ofCodePoint? {n : Nat} {c : Char} (h : ofCodePoint? n = some c) : c.toNat = n := by
  rw [ofCodePoint?] at h
  split at h
  · next hvalid =>
      cases h
      rw [Char.ofNat, dif_pos hvalid]
      rfl
  · cases h

theorem exists_surrogates {high low : Nat} {c : Char} (hhigh : isHighSurrogate high = true)
    (h : ofSurrogates? high low = some c) :
    ∃ h' l', high = 0xD800 + h' ∧ low = 0xDC00 + l' ∧ h' < 0x400 ∧ l' < 0x400 ∧
      c.toNat = 0x10000 + h' * 0x400 + l' := by
  rw [isHighSurrogate, Bool.and_eq_true, decide_eq_true_eq, decide_eq_true_eq] at hhigh
  rw [ofSurrogates?] at h
  split at h
  · next hlow =>
      rw [Bool.and_eq_true, decide_eq_true_eq, decide_eq_true_eq] at hlow
      exact ⟨high - 0xD800, low - 0xDC00, by omega, by omega, by omega, by omega,
        toNat_of_ofCodePoint? h⟩
  · cases h

theorem quotes_of_readString? {cs s rest : List Char} (h : readString? cs = some (s, rest)) :
    ∃ qs, cs = qs ++ '"' :: rest ∧ Quotes qs s := by
  fun_induction readString? cs generalizing s rest with
  | case1 => cases h
  | case2 cs =>
      cases h
      exact ⟨[], rfl, .nil⟩
  | case3 a b c d cs ihpair ih =>
      obtain ⟨n, hunit, h⟩ := Option.bind_eq_some_iff.mp h
      split at h
      · next hhigh =>
          split at h
          · next e f g i cs' =>
            obtain ⟨m, hunit', h⟩ := Option.bind_eq_some_iff.mp h
            obtain ⟨char, hchar, h⟩ := Option.bind_eq_some_iff.mp h
            obtain ⟨⟨s', rest'⟩, hread, h⟩ := Option.bind_eq_some_iff.mp h
            cases h
            obtain ⟨qs, rfl, hquotes⟩ := ihpair hread
            obtain ⟨high, low, rfl, rfl, hhigh, hlow, hchar⟩ := exists_surrogates hhigh hchar
            exact ⟨_, rfl, .surrogates hunit hunit' hhigh hlow hchar hquotes⟩
          · cases h
      · obtain ⟨char, hchar, h⟩ := Option.bind_eq_some_iff.mp h
        obtain ⟨⟨s', rest'⟩, hread, h⟩ := Option.bind_eq_some_iff.mp h
        cases h
        obtain ⟨qs, rfl, hquotes⟩ := ih hread
        rw [← toNat_of_ofCodePoint? hchar] at hunit
        exact ⟨_, rfl, .unit hunit hquotes⟩
  | case4 letter cs _ ih =>
      obtain ⟨char, hletter, h⟩ := Option.bind_eq_some_iff.mp h
      obtain ⟨⟨s', rest'⟩, hread, h⟩ := Option.bind_eq_some_iff.mp h
      cases h
      obtain ⟨qs, rfl, hquotes⟩ := ih hread
      exact ⟨_, rfl, .letter hletter hquotes⟩
  | case5 => cases h
  | case6 c cs hquote _ hslash hc ih =>
      obtain ⟨⟨s', rest'⟩, hread, h⟩ := Option.bind_eq_some_iff.mp h
      cases h
      obtain ⟨qs, hcs, hquotes⟩ := ih hread
      refine ⟨c :: qs, by rw [hcs]; rfl, .raw (Nat.not_lt.mp hc) hquote ?_ hquotes⟩
      -- A backslash with nothing behind it has been followed by a quotation mark.
      intro hbackslash
      cases qs with
      | nil => exact hslash _ _ hbackslash hcs
      | cons q qs => exact hslash _ _ hbackslash hcs

/-! ## Numbers -/

/-- Whether a number might go on with the character. -/
def continuesNumber (c : Char) : Bool := c.isDigit || c = '.' || c = 'e' || c = 'E'

section Number

variable {rest : List Char}

theorem readDigits?_append {digits : List Char} (h : IsDigits digits)
    (hrest : EndsRun Char.isDigit rest) : readDigits? (digits ++ rest) = some (digits, rest) := by
  have hsome : digits.isEmpty = false := List.isEmpty_eq_false_iff.mpr h.1
  rw [readDigits?, takeWhile_append_of_endsRun h.2 hrest, dropWhile_append_of_endsRun h.2 hrest]
  simp only [hsome, Bool.false_eq_true, if_false]

theorem readWhole?_append {whole : List Char} (h : IsWhole whole)
    (hrest : EndsRun Char.isDigit rest) : readWhole? (whole ++ rest) = some (whole, rest) := by
  have hzero : ¬ (whole.head? = some '0' ∧ whole ≠ ['0']) := by
    rintro ⟨hhead, hne⟩
    exact hne (h.2 hhead)
  rw [readWhole?, readDigits?_append h.1 hrest]
  exact if_neg hzero

theorem readFraction?_append {fraction : List Char} (h : IsFraction fraction)
    (hrest : EndsRun (fun c => c.isDigit || c = '.') rest) :
    readFraction? (fraction ++ rest) = some (fraction, rest) := by
  rcases h with rfl | ⟨digits, hdigits, rfl⟩
  · cases rest with
    | nil => rfl
    | cons c rest =>
        rw [EndsRun.cons, Bool.or_eq_false_iff, decide_eq_false_iff_not] at hrest
        rw [List.nil_append, readFraction?.eq_2 _ fun _ heq => hrest.2 (List.cons.inj heq).1]
  · have hend : EndsRun Char.isDigit rest :=
      hrest.mono fun c hc => (Bool.or_eq_false_iff.mp hc).1
    rw [List.cons_append, readFraction?, readDigits?_append hdigits hend]
    rfl

/-- Digits begin with no other character. -/
theorem IsDigits.exists_cons {digits : List Char} (h : IsDigits digits) :
    ∃ d ds, digits = d :: ds ∧ d.isDigit = true := by
  obtain ⟨d, ds, rfl⟩ := List.exists_cons_of_ne_nil h.1
  exact ⟨d, ds, rfl, h.2 d List.mem_cons_self⟩

theorem splitSign_append {sign digits : List Char} (hsign : sign ∈ [[], ['+'], ['-']])
    (hdigits : IsDigits digits) :
    splitSign (sign ++ (digits ++ rest)) = (sign, digits ++ rest) := by
  obtain ⟨d, ds, rfl, hd⟩ := hdigits.exists_cons
  have hplus : d ≠ '+' := by
    rintro rfl
    cases hd
  have hminus : d ≠ '-' := by
    rintro rfl
    cases hd
  simp only [List.mem_cons, List.not_mem_nil, or_false] at hsign
  rcases hsign with rfl | rfl | rfl
  · rw [List.nil_append, List.cons_append, splitSign.eq_3]
    · exact fun _ heq => hplus (List.cons.inj heq).1
    · exact fun _ heq => hminus (List.cons.inj heq).1
  · rfl
  · rfl

theorem readExponent?_append {exponent : List Char} (h : IsExponent exponent)
    (hrest : EndsRun continuesNumber rest) :
    readExponent? (exponent ++ rest) = some (exponent, rest) := by
  rcases h with rfl | ⟨e, he, sign, hsign, digits, hdigits, rfl⟩
  · cases rest with
    | nil => rfl
    | cons c rest =>
        have hletter : ¬ (c = 'e' ∨ c = 'E') := by
          rintro (rfl | rfl) <;> cases EndsRun.cons.mp hrest
        rw [List.nil_append, readExponent?, if_neg hletter]
  · have hend : EndsRun Char.isDigit rest := by
      refine hrest.mono fun c hc => ?_
      simp only [continuesNumber, Bool.or_eq_false_iff] at hc
      exact hc.1.1.1
    have hletter : e = 'e' ∨ e = 'E' := by simpa using he
    rw [List.cons_append, List.append_assoc, readExponent?, if_pos hletter]
    simp only [splitSign_append hsign hdigits, readDigits?_append hdigits hend]
    rfl

/-- What stands behind the digits before the fraction, and what stands behind the fraction. -/
theorem endsRun_exponent_append {exponent : List Char} (h : IsExponent exponent)
    (hrest : EndsRun continuesNumber rest) :
    EndsRun (fun c => c.isDigit || c = '.') (exponent ++ rest) := by
  rcases h with rfl | ⟨e, he, sign, -, digits, -, rfl⟩
  · refine hrest.mono fun c hc => ?_
    simp only [continuesNumber, Bool.or_eq_false_iff] at hc
    rw [hc.1.1.1, hc.1.1.2]
    rfl
  · have hletter : e = 'e' ∨ e = 'E' := by simpa using he
    rw [List.cons_append, EndsRun.cons]
    rcases hletter with rfl | rfl <;> rfl

theorem endsRun_fraction_append {fraction : List Char} (h : IsFraction fraction)
    (hrest : EndsRun (fun c => c.isDigit || c = '.') rest) :
    EndsRun Char.isDigit (fraction ++ rest) := by
  rcases h with rfl | ⟨digits, -, rfl⟩
  · exact hrest.mono fun c hc => (Bool.or_eq_false_iff.mp hc).1
  · rw [List.cons_append, EndsRun.cons]
    rfl

theorem splitMinus_append (negative : Bool) {whole : List Char} (h : IsWhole whole) :
    splitMinus ((if negative then ['-'] else []) ++ (whole ++ rest)) = (negative, whole ++ rest) := by
  obtain ⟨d, ds, rfl, hd⟩ := h.1.exists_cons
  have hminus : d ≠ '-' := by
    rintro rfl
    cases hd
  cases negative with
  | true => rfl
  | false => exact splitMinus.eq_2 _ fun _ heq => hminus (List.cons.inj heq).1

theorem readNumber?_append (negative : Bool) {whole fraction exponent : List Char}
    (h : IsWhole whole) (hfraction : IsFraction fraction) (hexponent : IsExponent exponent)
    (hrest : EndsRun continuesNumber rest) :
    readNumber? ((if negative then ['-'] else []) ++
        (whole ++ (fraction ++ (exponent ++ rest)))) =
      some (if fraction.isEmpty && exponent.isEmpty &&
            !(negative && Nat.ofDigitChars 10 whole 0 = 0) then
          .integer (if negative then -Nat.ofDigitChars 10 whole 0 else Nat.ofDigitChars 10 whole 0)
        else
          .decimal (String.ofList
            ((if negative then ['-'] else []) ++ (whole ++ (fraction ++ exponent)))), rest) := by
  have hbehind := endsRun_exponent_append hexponent hrest
  rw [readNumber?]
  simp only [splitMinus_append negative h, Option.bind_eq_bind, Option.bind_some,
    readWhole?_append h (endsRun_fraction_append hfraction hbehind),
    readFraction?_append hfraction hbehind, readExponent?_append hexponent hrest]
  split <;> simp

theorem readNumber?_of_spellsNumber {cs : List Char} {j : Json} (h : SpellsNumber cs j)
    (hrest : EndsRun continuesNumber rest) : readNumber? (cs ++ rest) = some (j, rest) := by
  cases h with
  | @natural whole h =>
      have hread := readNumber?_append false h (.inl rfl) (.inl rfl) hrest
      simpa using hread
  | @negative whole h hzero =>
      have hread := readNumber?_append true h (.inl rfl) (.inl rfl) hrest
      simpa [hzero] using hread
  | @decimal negative whole fraction exponent h hfraction hexponent hkept =>
      have hread := readNumber?_append negative h hfraction hexponent hrest
      have hdecimal : (fraction.isEmpty && exponent.isEmpty &&
          !(negative && Nat.ofDigitChars 10 whole 0 = 0)) = false := by
        rcases hkept with hne | hne | ⟨hnegative, hzero⟩
        · simp [hne]
        · simp [hne]
        · simp [hnegative, hzero]
      rw [hdecimal] at hread
      simpa using hread

end Number

/-! ### What is read is a number -/

section Numbers

variable {cs rest : List Char}

theorem isDigits_of_readDigits? {digits : List Char} (h : readDigits? cs = some (digits, rest)) :
    cs = digits ++ rest ∧ IsDigits digits := by
  rw [readDigits?] at h
  split at h
  · cases h
  · next hsome =>
      cases h
      exact ⟨List.takeWhile_append_dropWhile.symm, by simpa using hsome,
        List.all_eq_true.mp List.all_takeWhile⟩

theorem isWhole_of_readWhole? {whole : List Char} (h : readWhole? cs = some (whole, rest)) :
    cs = whole ++ rest ∧ IsWhole whole := by
  obtain ⟨⟨digits, rest'⟩, hread, hwhole⟩ := Option.bind_eq_some_iff.mp h
  obtain ⟨hcs, hdigits⟩ := isDigits_of_readDigits? hread
  dsimp only at hwhole
  split at hwhole
  · cases hwhole
  · next hzero =>
      cases hwhole
      exact ⟨hcs, hdigits, fun hhead => Decidable.not_not.mp fun hne => hzero ⟨hhead, hne⟩⟩

theorem isFraction_of_readFraction? {fraction : List Char}
    (h : readFraction? cs = some (fraction, rest)) :
    cs = fraction ++ rest ∧ IsFraction fraction := by
  rw [readFraction?.eq_def] at h
  split at h
  · obtain ⟨⟨digits, rest'⟩, hread, hfraction⟩ := Option.bind_eq_some_iff.mp h
    obtain ⟨hcs, hdigits⟩ := isDigits_of_readDigits? hread
    cases hfraction
    exact ⟨by rw [hcs]; rfl, .inr ⟨digits, hdigits, rfl⟩⟩
  · cases h
    exact ⟨rfl, .inl rfl⟩

theorem eq_append_splitSign (cs : List Char) :
    cs = (splitSign cs).1 ++ (splitSign cs).2 ∧ (splitSign cs).1 ∈ [[], ['+'], ['-']] := by
  rw [splitSign.eq_def]
  split <;> simp

theorem isExponent_of_readExponent? {exponent : List Char}
    (h : readExponent? cs = some (exponent, rest)) :
    cs = exponent ++ rest ∧ IsExponent exponent := by
  rw [readExponent?.eq_def] at h
  split at h
  · cases h
    exact ⟨rfl, .inl rfl⟩
  · next e cs =>
      obtain ⟨hcs, hsign⟩ := eq_append_splitSign cs
      generalize splitSign cs = split at h hcs hsign
      obtain ⟨sign, cs'⟩ := split
      split at h
      · next he =>
          obtain ⟨⟨digits, rest'⟩, hread, hexponent⟩ := Option.bind_eq_some_iff.mp h
          obtain ⟨hrest, hdigits⟩ := isDigits_of_readDigits? hread
          cases hexponent
          rw [hrest] at hcs
          exact ⟨by rw [hcs]; simp, .inr ⟨e, by simpa using he, _, hsign, digits, hdigits, rfl⟩⟩
      · cases h
        exact ⟨rfl, .inl rfl⟩

theorem eq_append_splitMinus (cs : List Char) :
    cs = (if (splitMinus cs).1 then ['-'] else []) ++ (splitMinus cs).2 := by
  rw [splitMinus.eq_def]
  split <;> rfl

theorem spellsNumber_of_readNumber? {j : Json} (h : readNumber? cs = some (j, rest)) :
    ∃ ns, cs = ns ++ rest ∧ SpellsNumber ns j := by
  rw [readNumber?] at h
  have hcs := eq_append_splitMinus cs
  generalize splitMinus cs = minus at h hcs
  obtain ⟨negative, cs'⟩ := minus
  obtain ⟨⟨whole, cs₁⟩, hreadWhole, hbehind⟩ := Option.bind_eq_some_iff.mp h
  obtain ⟨⟨fraction, cs₂⟩, hreadFraction, hbehind⟩ := Option.bind_eq_some_iff.mp hbehind
  obtain ⟨⟨exponent, cs₃⟩, hreadExponent, hvalue⟩ := Option.bind_eq_some_iff.mp hbehind
  obtain ⟨hcs', hwhole⟩ := isWhole_of_readWhole? hreadWhole
  obtain ⟨hcs₁, hfraction⟩ := isFraction_of_readFraction? hreadFraction
  obtain ⟨hcs₂, hexponent⟩ := isExponent_of_readExponent? hreadExponent
  have htext : cs =
      ((if negative then ['-'] else []) ++ (whole ++ (fraction ++ exponent))) ++ cs₃ := by
    rw [hcs, hcs', hcs₁, hcs₂]
    simp
  clear h hbehind hreadWhole hreadFraction hreadExponent
  dsimp only at hvalue
  split at hvalue
  · next hinteger =>
      simp only [Bool.and_eq_true, List.isEmpty_iff, Bool.not_eq_true', Bool.and_eq_false_iff,
        decide_eq_false_iff_not] at hinteger
      obtain ⟨⟨rfl, rfl⟩, hzero⟩ := hinteger
      cases hvalue
      refine ⟨_, htext, ?_⟩
      cases negative with
      | false => simpa using SpellsNumber.natural hwhole
      | true => simpa using SpellsNumber.negative hwhole (hzero.resolve_left (by decide))
  · next hdecimal =>
      have hkept : fraction ≠ [] ∨ exponent ≠ [] ∨
          negative = true ∧ Nat.ofDigitChars 10 whole 0 = 0 := by
        cases fraction with
        | cons => exact .inl (List.cons_ne_nil _ _)
        | nil =>
            cases exponent with
            | cons => exact .inr (.inl (List.cons_ne_nil _ _))
            | nil => exact .inr (.inr (by simpa using hdecimal))
      cases hvalue
      refine ⟨_, htext, ?_⟩
      simpa using SpellsNumber.decimal hwhole hfraction hexponent hkept

end Numbers

end Lexing.Json
