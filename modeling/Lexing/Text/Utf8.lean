/-!
# Lengths and slices in bytes

Offsets into a text count the bytes of its UTF-8 encoding, while the text itself is read character by
character. A slice between two offsets exists exactly when both lie on character boundaries within the text
and the first is not past the second. A text that is cut off after a number of bytes keeps whole characters
only.
-/

namespace Lexing.Text

/-- Number of bytes that encode the characters. -/
def utf8Length : List Char → Nat
  | [] => 0
  | c :: cs => c.utf8Size + utf8Length cs

@[simp] theorem utf8Length_nil : utf8Length [] = 0 := rfl

@[simp] theorem utf8Length_cons (c : Char) (cs : List Char) :
    utf8Length (c :: cs) = c.utf8Size + utf8Length cs := rfl

@[simp] theorem utf8Length_append (cs ds : List Char) :
    utf8Length (cs ++ ds) = utf8Length cs + utf8Length ds := by
  induction cs with
  | nil => simp
  | cons c cs ih => simp only [List.cons_append, utf8Length_cons, ih, Nat.add_assoc]

theorem utf8Length_replicate (n : Nat) (c : Char) :
    utf8Length (List.replicate n c) = n * c.utf8Size := by
  induction n with
  | zero => simp
  | succ n ih => simp only [List.replicate_succ, utf8Length_cons, ih, Nat.succ_mul]; omega

theorem length_le_utf8Length (cs : List Char) : cs.length ≤ utf8Length cs := by
  induction cs with
  | nil => simp
  | cons c cs ih =>
      have := c.utf8Size_pos
      simp only [List.length_cons, utf8Length_cons]
      omega

/-- The bytes that a string takes are those of its characters. -/
theorem utf8Length_toList (s : String) : utf8Length s.toList = s.utf8ByteSize := by
  obtain ⟨cs, rfl⟩ : ∃ cs, s = String.ofList cs := ⟨s.toList, String.ofList_toList.symm⟩
  rw [String.toList_ofList]
  induction cs with
  | nil => rfl
  | cons c cs ih =>
      rw [utf8Length_cons, ih, String.ofList_cons, String.utf8ByteSize_append,
        String.utf8ByteSize_singleton]

/-- The characters from the start of a text that `n` bytes encode, without one that is cut. -/
def takeBytes : Nat → List Char → List Char
  | _, [] => []
  | n, c :: cs => if c.utf8Size ≤ n then c :: takeBytes (n - c.utf8Size) cs else []

theorem takeBytes_prefix (n : Nat) (cs : List Char) : takeBytes n cs <+: cs := by
  induction cs generalizing n with
  | nil => exact List.nil_prefix
  | cons c cs ih =>
      rw [takeBytes]
      split
      · exact List.cons_prefix_cons.mpr ⟨rfl, ih _⟩
      · exact List.nil_prefix

theorem utf8Length_takeBytes_le (n : Nat) (cs : List Char) : utf8Length (takeBytes n cs) ≤ n := by
  induction cs generalizing n with
  | nil => exact Nat.zero_le n
  | cons c cs ih =>
      rw [takeBytes]
      split
      · next hfit =>
          have hothers := ih (n - c.utf8Size)
          rw [utf8Length_cons]
          omega
      · exact Nat.zero_le n

/-- What fits is kept, and leaves the other bytes to what follows. -/
theorem takeBytes_append {n : Nat} {cs : List Char} (h : utf8Length cs ≤ n) (ds : List Char) :
    takeBytes n (cs ++ ds) = cs ++ takeBytes (n - utf8Length cs) ds := by
  induction cs generalizing n with
  | nil => rfl
  | cons c cs ih =>
      rw [utf8Length_cons] at h ⊢
      rw [List.cons_append, takeBytes, if_pos (by omega), ih (by omega), Nat.sub_sub, List.cons_append]

theorem takeBytes_of_utf8Length_le {n : Nat} {cs : List Char} (h : utf8Length cs ≤ n) :
    takeBytes n cs = cs := by
  have happend := takeBytes_append h []
  rwa [List.append_nil, takeBytes, List.append_nil] at happend

/-- Behind a text that is cut off nothing is kept. -/
theorem takeBytes_append_of_lt {n : Nat} {cs : List Char} (h : n < utf8Length cs) (ds : List Char) :
    takeBytes n (cs ++ ds) = takeBytes n cs := by
  induction cs generalizing n with
  | nil => exact absurd h (Nat.not_lt_zero n)
  | cons c cs ih =>
      rw [utf8Length_cons] at h
      rw [List.cons_append, takeBytes, takeBytes]
      split
      · rw [ih (by omega)]
      · rfl

/-- No longer part from the start of a text has at most `n` bytes. -/
theorem utf8Length_le_takeBytes {n : Nat} {cs front : List Char} (hstarts : front <+: cs)
    (h : utf8Length front ≤ n) : utf8Length front ≤ utf8Length (takeBytes n cs) := by
  obtain ⟨back, rfl⟩ := hstarts
  rw [takeBytes_append h, utf8Length_append]
  exact Nat.le_add_right _ _

/-- Divides a text after its first `n` bytes, or fails if that is past the end or inside a character. -/
def splitAtByte? : List Char → Nat → Option (List Char × List Char)
  | cs, 0 => some ([], cs)
  | [], _ + 1 => none
  | c :: cs, n + 1 =>
      if c.utf8Size ≤ n + 1 then
        (splitAtByte? cs (n + 1 - c.utf8Size)).map fun (front, back) => (c :: front, back)
      else none

theorem splitAtByte?_append (front back : List Char) :
    splitAtByte? (front ++ back) (utf8Length front) = some (front, back) := by
  induction front with
  | nil => cases back <;> rfl
  | cons c front ih =>
      have hpos := c.utf8Size_pos
      obtain ⟨n, hn⟩ : ∃ n, c.utf8Size + utf8Length front = n + 1 :=
        ⟨c.utf8Size + utf8Length front - 1, by omega⟩
      have hrest : n + 1 - c.utf8Size = utf8Length front := by omega
      simp only [utf8Length_cons, List.cons_append, hn, splitAtByte?, hrest, ih]
      simp only [Option.map_some, ite_eq_left_iff]
      omega

theorem eq_append_of_splitAtByte? {cs front back : List Char} {n : Nat}
    (h : splitAtByte? cs n = some (front, back)) : cs = front ++ back ∧ utf8Length front = n := by
  fun_induction splitAtByte? cs n generalizing front with
  | case1 cs => simp_all
  | case2 n => simp at h
  | case3 c cs n hfit ih =>
      simp only [Option.map_eq_some_iff, Prod.exists, Prod.mk.injEq] at h
      obtain ⟨mid, back', hsplit, rfl, rfl⟩ := h
      obtain ⟨rfl, hlen⟩ := ih hsplit
      exact ⟨rfl, by simp only [utf8Length_cons]; omega⟩
  | case4 c cs n hfit => simp at h

/-- A text is divided in one way at a byte. -/
theorem append_inj_of_utf8Length_eq {front front' back back' : List Char}
    (h : front ++ back = front' ++ back') (hlength : utf8Length front = utf8Length front') :
    front = front' ∧ back = back' := by
  have hsplit := splitAtByte?_append front back
  rw [h, hlength, splitAtByte?_append, Option.some.injEq, Prod.mk.injEq] at hsplit
  exact ⟨hsplit.1.symm, hsplit.2.symm⟩

/-- The characters of a text from byte `start` up to byte `stop`. -/
def slice? (cs : List Char) (start stop : Nat) : Option (List Char) :=
  if start ≤ stop then do
    let (_, later) ← splitAtByte? cs start
    let (middle, _) ← splitAtByte? later (stop - start)
    pure middle
  else none

theorem slice?_append (front middle back : List Char) :
    slice? (front ++ (middle ++ back)) (utf8Length front) (utf8Length front + utf8Length middle) =
      some middle := by
  rw [slice?, if_pos (Nat.le_add_right _ _), splitAtByte?_append]
  simp only [Option.bind_eq_bind, Option.bind_some, Nat.add_sub_cancel_left, splitAtByte?_append]
  rfl

end Lexing.Text
