import Lexing.Proofs.Literals
import Lexing.Text.Escaped

/-!
# Reading escaped text

Escaped text can be read back without knowing which characters the writer could
not show: a backslash begins a letter or a code point, and whatever stands
without one is itself. So the character classes decide how a text is written,
but never what it says (`unescape?_escapeWith`).
-/

namespace Lexing.Text

/-! ## Hexadecimal numbers -/

def isHexDigit (c : Char) : Bool := (Json.hexValue? c).isSome

/-- The number that hexadecimal digits stand for. -/
def hexNumber? (cs : List Char) : Option Nat :=
  cs.foldlM (fun n c => (Json.hexValue? c).map (16 * n + ·)) 0

theorem hexValue?_digitChar {n : Nat} (h : n < 16) : Json.hexValue? n.digitChar = some n := by
  have hall : ∀ n < 16, Json.hexValue? n.digitChar = some n := by decide
  exact hall n h

theorem hexNumber?_toDigits (n : Nat) : hexNumber? (Nat.toDigits 16 n) = some n := by
  induction n using Nat.strongRecOn with
  | ind n ih =>
      by_cases hsmall : n < 16
      · rw [Nat.toDigits_of_lt_base hsmall]
        simp [hexNumber?, hexValue?_digitChar hsmall]
      · have hlarge := Nat.not_lt.mp hsmall
        have hfront := ih (n / 16) (by omega)
        have hlast : n % 16 < 16 := Nat.mod_lt n (by decide)
        have hvalue : 16 * (n / 16) + n % 16 = n := Nat.div_add_mod n 16
        rw [hexNumber?] at hfront
        rw [Nat.toDigits_of_base_le (by decide) hlarge, hexNumber?, List.foldlM_append, hfront]
        simp [hexValue?_digitChar hlast, hvalue]

theorem isHexDigit_of_mem_toDigits {n : Nat} {c : Char} (h : c ∈ Nat.toDigits 16 n) :
    isHexDigit c = true := by
  induction n using Nat.strongRecOn with
  | ind n ih =>
      have hdigit : ∀ m < 16, isHexDigit m.digitChar = true := by decide
      by_cases hsmall : n < 16
      · rw [Nat.toDigits_of_lt_base hsmall] at h
        rw [List.mem_singleton.mp h]
        exact hdigit n hsmall
      · have hlarge := Nat.not_lt.mp hsmall
        rw [Nat.toDigits_of_base_le (by decide) hlarge] at h
        rcases List.mem_append.mp h with h | h
        · exact ih (n / 16) (by omega) h
        · rw [List.mem_singleton.mp h]
          exact hdigit (n % 16) (Nat.mod_lt n (by decide))

/-! ## One character -/

/-- The character that a letter behind a backslash stands for. -/
def ofLetter? : Char → Option Char
  | '0' => some '\x00'
  | 't' => some '\t'
  | 'n' => some '\n'
  | 'r' => some '\r'
  | '\\' => some '\\'
  | '\'' => some '\''
  | '"' => some '"'
  | _ => none

/-- The ways in which a character can be shown. -/
inductive Shows (c : Char) : List Char → Prop
  | letter {l : Char} (h : ofLetter? l = some c) : Shows c ['\\', l]
  | codePoint : Shows c (escapeCodePoint c)
  | raw (hslash : c ≠ '\\') (hfeed : c ≠ '\n') : Shows c [c]

theorem shows_escapeChar (classes : CharClasses) (escapeExtending : Bool) (c : Char) :
    Shows c (escapeChar classes EscapeStyle.bare.quotes escapeExtending c) := by
  unfold escapeChar
  repeat' split
  -- The first four have a letter of their own.
  iterate 4
    next hc =>
      subst hc
      exact .letter rfl
  · next hc =>
      have hcases : c = '\\' ∨ c = '\'' ∨ c = '"' := by simpa [EscapeStyle.bare] using hc
      rcases hcases with rfl | rfl | rfl
      · exact .letter rfl
      · exact .letter rfl
      · exact .letter rfl
  · exact .codePoint
  · next hfeed _ hc _ =>
      have hslash : c ≠ '\\' := by
        rintro rfl
        simp at hc
      exact .raw hslash hfeed

/-- Reads the first character of an escaped text and leaves the rest. -/
def readEscaped? : List Char → Option (Char × List Char)
  | [] => none
  | '\\' :: 'u' :: '{' :: cs =>
      match cs.dropWhile isHexDigit with
      | '}' :: rest => do
          let n ← hexNumber? (cs.takeWhile isHexDigit)
          let c ← Json.ofCodePoint? n
          pure (c, rest)
      | _ => none
  | '\\' :: c :: cs => (ofLetter? c).map (·, cs)
  | c :: cs => if c = '\\' then none else some (c, cs)

theorem readEscaped?_letter {l c : Char} (h : ofLetter? l = some c) (cs : List Char) :
    readEscaped? ('\\' :: l :: cs) = some (c, cs) := by
  unfold ofLetter? at h
  split at h <;> cases h <;> rfl

theorem readEscaped?_raw {c : Char} (h : c ≠ '\\') (cs : List Char) :
    readEscaped? (c :: cs) = some (c, cs) := by
  unfold readEscaped?
  split
  · next heq => cases heq
  · next heq => exact absurd (List.cons.inj heq).1 h
  · next heq => exact absurd (List.cons.inj heq).1 h
  · next heq =>
      obtain ⟨rfl, rfl⟩ := List.cons.inj heq
      exact if_neg h

theorem readEscaped?_escapeCodePoint (c : Char) (cs : List Char) :
    readEscaped? (escapeCodePoint c ++ cs) = some (c, cs) := by
  have hdigits : ∀ d ∈ Nat.toDigits 16 c.toNat, isHexDigit d = true :=
    fun _ hd => isHexDigit_of_mem_toDigits hd
  have hend : EndsRun isHexDigit ('}' :: cs) := EndsRun.cons.mpr (by decide)
  have htext : escapeCodePoint c ++ cs =
      '\\' :: 'u' :: '{' :: (Nat.toDigits 16 c.toNat ++ '}' :: cs) := by
    simp [escapeCodePoint]
  rw [htext, readEscaped?, dropWhile_append_of_endsRun hdigits hend,
    takeWhile_append_of_endsRun hdigits hend, hexNumber?_toDigits]
  simp [Json.ofCodePoint?_toNat]

/-- However it is shown, a character is read as itself. -/
theorem Shows.readEscaped? {c : Char} {written : List Char} (h : Shows c written)
    (cs : List Char) : readEscaped? (written ++ cs) = some (c, cs) := by
  cases h with
  | letter hl => exact readEscaped?_letter hl cs
  | codePoint => exact readEscaped?_escapeCodePoint c cs
  | raw hslash hfeed => exact readEscaped?_raw hslash cs

theorem Shows.lineFeed_notMem {c : Char} {written : List Char} (h : Shows c written) :
    '\n' ∉ written := by
  cases h with
  | letter hl =>
      unfold ofLetter? at hl
      split at hl <;> cases hl <;> decide
  | codePoint =>
      intro hmem
      have hdigit : '\n' ∈ Nat.toDigits 16 c.toNat := by simpa [escapeCodePoint] using hmem
      exact absurd (isHexDigit_of_mem_toDigits hdigit) (by decide)
  | raw hslash hfeed =>
      rw [List.mem_singleton]
      exact hfeed.symm

theorem length_lt_of_readEscaped? {cs rest : List Char} {c : Char}
    (h : readEscaped? cs = some (c, rest)) : rest.length < cs.length := by
  unfold readEscaped? at h
  split at h
  · cases h
  · next cs =>
      split at h
      · next rest' hdrop =>
          have hlength := (List.dropWhile_suffix (l := cs) isHexDigit).length_le
          rw [hdrop, List.length_cons] at hlength
          simp only [Option.bind_eq_bind, Option.bind_eq_some_iff, Option.pure_def,
            Option.some.injEq, Prod.mk.injEq] at h
          obtain ⟨_, _, _, _, _, rfl⟩ := h
          simp only [List.length_cons]
          omega
      · cases h
  · obtain ⟨_, _, hpair⟩ := Option.map_eq_some_iff.mp h
    cases hpair
    simp only [List.length_cons]
    omega
  · split at h
    · cases h
    · cases h
      simp

/-! ## Whole texts -/

/-- Reads an escaped text. -/
def unescape? (cs : List Char) : Option (List Char) :=
  if cs = [] then some []
  else
    match _h : readEscaped? cs with
    | none => none
    | some (c, rest) => (unescape? rest).map (c :: ·)
  termination_by cs.length
  decreasing_by exact length_lt_of_readEscaped? _h

theorem unescape?_nil : unescape? [] = some [] := by
  rw [unescape?, if_pos rfl]

theorem unescape?_of_readEscaped? {cs rest : List Char} {c : Char}
    (h : readEscaped? cs = some (c, rest)) : unescape? cs = (unescape? rest).map (c :: ·) := by
  have hne : cs ≠ [] := by
    rintro rfl
    cases h
  rw [unescape?, if_neg hne]
  split
  · next hnone =>
      rw [h] at hnone
      cases hnone
  · next hsome =>
      rw [h] at hsome
      cases hsome
      rfl

section Escape

variable (classes : CharClasses)

theorem Shows.unescape? {c : Char} {cs written rest : List Char} (h : Shows c written)
    (hrest : unescape? rest = some cs) : unescape? (written ++ rest) = some (c :: cs) := by
  rw [unescape?_of_readEscaped? (h.readEscaped? rest), hrest]
  rfl

theorem unescape?_flatMap_escapeChar (escapeExtending : Bool) (cs : List Char) :
    unescape? (cs.flatMap (escapeChar classes EscapeStyle.bare.quotes escapeExtending)) =
      some cs := by
  induction cs with
  | nil => exact unescape?_nil
  | cons c cs ih =>
      rw [List.flatMap_cons]
      exact (shows_escapeChar classes escapeExtending c).unescape? ih

theorem unescape?_escapeWith (cs : List Char) :
    unescape? (escapeWith classes .bare cs) = some cs := by
  cases cs with
  | nil => exact unescape?_nil
  | cons c cs =>
      exact (shows_escapeChar classes true c).unescape? (unescape?_flatMap_escapeChar classes _ cs)

/-- Escaped text stays on its line. -/
theorem lineFeed_notMem_escapeWith (cs : List Char) : '\n' ∉ escapeWith classes .bare cs := by
  cases cs with
  | nil => exact List.not_mem_nil
  | cons c cs =>
      rw [escapeWith, List.mem_append, not_or]
      refine ⟨(shows_escapeChar classes true c).lineFeed_notMem, ?_⟩
      intro hmem
      obtain ⟨d, -, hd⟩ := List.mem_flatMap.mp hmem
      exact (shows_escapeChar classes _ d).lineFeed_notMem hd

end Escape

end Lexing.Text
