import Lexing.Position

/-!
# Reading a text forward

A reader stands before the next character of a text and moves only forward. Its position follows the
characters it has read, so that a slice of the text between the offsets of two readers is what was read
between them. Of a source with more bytes than offsets can count, only a part from its start is read.
-/

namespace Lexing

structure Reader where
  /-- What has not been read yet. -/
  rest : List Char
  position : Position
  tracking : LineTracking
  deriving DecidableEq, Repr

namespace Reader

/-- The part of a source that is read: all of it if offsets can count its bytes, and otherwise as many whole
characters from its start as have offsets. -/
def readable (source : String) : String :=
  if source.utf8ByteSize < Position.bound then source
  else String.ofList (Text.takeBytes (Position.bound - 1) source.toList)

/-- Stands before the first character. -/
def ofString (source : String) (tracking : LineTracking) : Reader :=
  { rest := (readable source).toList, position := {}, tracking }

def peek? (r : Reader) : Option Char := r.rest.head?

/-- The character `n` places after the next one. -/
def peekNth? (r : Reader) (n : Nat) : Option Char := r.rest[n]?

/-- Reads one character; at the end of the text there is none, and nothing moves. -/
def next? (r : Reader) : Option (Char × Reader) :=
  match r.rest with
  | [] => none
  | c :: rest => some (c, { r with rest, position := r.position.advance r.tracking c })

/-- Reads `n` characters, or all that are left if there are fewer. -/
def skip (r : Reader) (n : Nat) : Reader :=
  { r with
    rest := r.rest.drop n
    position := r.position.advanceOver r.tracking (r.rest.take n) }

/-- Reads the longest run of characters that all satisfy `p`. -/
def takeWhile (r : Reader) (p : Char → Bool) : List Char × Reader :=
  let run := r.rest.takeWhile p
  (run, r.skip run.length)

def startLineAfter (r : Reader) (line : Nat) : Reader :=
  { r with position := r.position.startLineAfter line }

theorem readable_of_lt {source : String} (h : source.utf8ByteSize < Position.bound) :
    readable source = source :=
  if_pos h

theorem readable_of_utf8Length_lt {source : String}
    (h : Text.utf8Length source.toList < Position.bound) : readable source = source :=
  readable_of_lt (Text.utf8Length_toList source ▸ h)

/-- A source that is read as a whole is not cut off either way. -/
theorem toList_readable (source : String) :
    (readable source).toList = Text.takeBytes (Position.bound - 1) source.toList := by
  unfold readable
  split
  · next h =>
      rw [Text.takeBytes_of_utf8Length_le]
      rw [Text.utf8Length_toList]
      exact Nat.le_sub_one_of_lt h
  · exact String.toList_ofList

/-- What is read of a text with something behind it: that text and a part of what is behind, unless the text
is too long itself. -/
theorem toList_readable_append_of_lt {front : String}
    (h : Text.utf8Length front.toList < Position.bound) (back : String) :
    ∃ more, (readable (front ++ back)).toList = front.toList ++ more := by
  rw [toList_readable, String.toList_append, Text.takeBytes_append (Nat.le_sub_one_of_lt h)]
  exact ⟨_, rfl⟩

theorem toList_readable_append_of_le {front : String}
    (h : Position.bound ≤ Text.utf8Length front.toList) (back : String) :
    (readable (front ++ back)).toList = (readable front).toList := by
  rw [toList_readable, toList_readable, String.toList_append]
  exact Text.takeBytes_append_of_lt (Nat.lt_of_lt_of_le (by decide) h) _

theorem utf8ByteSize_readable_lt (source : String) :
    (readable source).utf8ByteSize < Position.bound := by
  rw [← Text.utf8Length_toList, toList_readable]
  exact Nat.lt_of_le_of_lt (Text.utf8Length_takeBytes_le _ _) (by decide)

theorem readable_prefix (source : String) : (readable source).toList <+: source.toList := by
  rw [toList_readable]
  exact Text.takeBytes_prefix _ _

theorem toList_readable_ofList {cs : List Char} (h : Text.utf8Length cs < Position.bound) :
    (readable (String.ofList cs)).toList = cs := by
  rw [readable_of_utf8Length_lt, String.toList_ofList]
  rwa [String.toList_ofList]

/-- Parts of a text that is read could be read on their own. -/
theorem utf8Length_lt_of_readable {source : String} {front back : List Char}
    (h : (readable source).toList = front ++ back) :
    Text.utf8Length front < Position.bound ∧ Text.utf8Length back < Position.bound := by
  have hlt := utf8ByteSize_readable_lt source
  rw [← Text.utf8Length_toList, h, Text.utf8Length_append] at hlt
  omega

@[simp] theorem rest_skip (r : Reader) (n : Nat) : (r.skip n).rest = r.rest.drop n := rfl

@[simp] theorem rest_startLineAfter (r : Reader) (line : Nat) :
    (r.startLineAfter line).rest = r.rest := rfl

@[simp] theorem skip_zero (r : Reader) : r.skip 0 = r := by
  simp [skip]

theorem skip_add (r : Reader) (m n : Nat) : r.skip (m + n) = (r.skip m).skip n := by
  simp [skip, List.take_add]

theorem next?_eq (r : Reader) : r.next? = r.peek?.map fun c => (c, r.skip 1) := by
  unfold next? peek? skip
  cases r.rest <;> simp

@[simp] theorem rest_takeWhile (r : Reader) (p : Char → Bool) :
    (r.takeWhile p).2.rest = r.rest.dropWhile p := by
  have h : (r.rest.takeWhile p ++ r.rest.dropWhile p).drop (r.rest.takeWhile p).length =
      r.rest.dropWhile p := List.drop_left
  rwa [List.takeWhile_append_dropWhile] at h

end Reader

end Lexing
