import Lexing.Proofs.NextToken
import Lexing.Scan.Tokens

/-!
# Calls that deliver, one after another

`Scan.Delivers` is a run of calls, each of which delivers a token other than
the end of the file. `Scan.tokens` is such a run with one call behind it: the
one that delivers the end of the file or stops at a fault.

`ScansTo` says that a whole text scans without a fault.
-/

namespace Lexing

namespace Scan

/-- Calls on a scan that deliver the tokens `ts`, leave the events `log` and
lead to the scan `last`. -/
inductive Delivers : Scan → List Token → List Event → Scan → Prop
  | nil (s : Scan) : Delivers s [] [] s
  | cons {s last : Scan} {t : Token} {ts : List Token} {log : List Event}
      (ht : s.nextToken.result = .ok t) (hmore : t.isEndOfFile = false)
      (h : Delivers s.nextToken.scan ts log last) :
      Delivers s (t :: ts) (s.nextToken.events ++ log) last

/-- The next call does not deliver a token to go on after. -/
def Stops (s : Scan) : Prop := ∀ t, s.nextToken.result = .ok t → t.isEndOfFile = true

/-! ## One turn of the loop -/

section Turn

variable {s : Scan} {ignore : Bool} {kept : List Token} {log : List Event}

theorem go_of_error {e : Fault} (h : s.nextToken.result = .error e) :
    tokens.go ignore s kept log =
      { result := .error e
        scan := s.nextToken.scan
        events := log.reverse ++ s.nextToken.events } := by
  rw [tokens.go]
  split
  · next e' he =>
      rw [h] at he
      cases he
      simp
  · next t ht =>
      rw [h] at ht
      cases ht

theorem go_of_token {t : Token} (h : s.nextToken.result = .ok t) (hmore : t.isEndOfFile = false) :
    tokens.go ignore s kept log =
      tokens.go ignore s.nextToken.scan ([t].filter (keeps ignore) ++ kept)
        (s.nextToken.events.reverse ++ log) := by
  rw [tokens.go]
  split
  · next e he =>
      rw [h] at he
      cases he
  · next t' ht =>
      rw [h] at ht
      cases ht
      rw [dif_neg (by simp [hmore])]
      cases hkeep : keeps ignore t <;> simp [hkeep]

theorem go_of_endOfFile {t : Token} (h : s.nextToken.result = .ok t) (hend : t.isEndOfFile = true) :
    tokens.go ignore s kept log =
      { result := .ok (kept.reverse ++ [t])
        scan := s.nextToken.scan
        events := log.reverse ++ s.nextToken.events ++ [.scanComplete (kept.length + 1)] } := by
  have hkeep : keeps ignore t = true := by
    have hkind : t.kind = .endOfFile := by simpa [Token.isEndOfFile] using hend
    simp [keeps, hkind]
  rw [tokens.go]
  split
  · next e he =>
      rw [h] at he
      cases he
  · next t' ht =>
      rw [h] at ht
      cases ht
      rw [dif_pos hend]
      simp [hkeep]

end Turn

/-! ## The loop -/

theorem go_of_delivers {s last : Scan} {ts : List Token} {log : List Event}
    (h : s.Delivers ts log last) (ignore : Bool) (kept : List Token) (before : List Event) :
    tokens.go ignore s kept before =
      tokens.go ignore last ((ts.filter (keeps ignore)).reverse ++ kept) (log.reverse ++ before) := by
  induction h generalizing kept before with
  | nil s => rfl
  | @cons s last t ts log ht hmore _ ih =>
      rw [go_of_token ht hmore, ih]
      cases hkeep : keeps ignore t <;> simp [hkeep]

variable {s last : Scan} {ts : List Token} {log : List Event}

theorem tokens_of_delivers_of_error {e : Fault} (h : s.Delivers ts log last)
    (he : last.nextToken.result = .error e) (ignore : Bool) :
    s.tokens ignore =
      { result := .error e, scan := last.nextToken.scan, events := log ++ last.nextToken.events } := by
  rw [tokens, go_of_delivers h, go_of_error he]
  simp

theorem tokens_of_delivers_of_endOfFile {t : Token} (h : s.Delivers ts log last)
    (ht : last.nextToken.result = .ok t) (hend : t.isEndOfFile = true) (ignore : Bool) :
    s.tokens ignore =
      { result := .ok (ts.filter (keeps ignore) ++ [t])
        scan := last.nextToken.scan
        events :=
          log ++ last.nextToken.events ++ [.scanComplete ((ts.filter (keeps ignore)).length + 1)] } := by
  rw [tokens, go_of_delivers h, go_of_endOfFile ht hend]
  simp

/-- Calls can be made until one stops: each delivered token leaves less to read. -/
theorem exists_delivers (s : Scan) : ∃ ts log last, s.Delivers ts log last ∧ last.Stops := by
  by_cases hstop : s.Stops
  · exact ⟨[], [], s, .nil s, hstop⟩
  · simp only [Stops, Classical.not_forall, Bool.not_eq_true] at hstop
    obtain ⟨t, ht, hmore⟩ := hstop
    have hless := length_rest_nextToken_lt ht hmore
    obtain ⟨ts, log, last, hrun, hlast⟩ := exists_delivers s.nextToken.scan
    exact ⟨t :: ts, _, last, .cons ht hmore hrun, hlast⟩
termination_by s.reader.rest.length

/-- Whether or not it is a fault, what stops the calls is the last of them. -/
theorem scan_tokens_of_delivers (h : s.Delivers ts log last) (hstop : last.Stops)
    (ignore : Bool) : (s.tokens ignore).scan = last.nextToken.scan := by
  cases hlast : last.nextToken.result with
  | error e => rw [tokens_of_delivers_of_error h hlast]
  | ok t => rw [tokens_of_delivers_of_endOfFile h hlast (hstop t hlast)]

@[simp] theorem filter_keeps_false (ts : List Token) : ts.filter (keeps false) = ts := by
  simp [keeps]

theorem filter_keeps_true (ts : List Token) :
    ts.filter (keeps true) = ts.filter (·.kind ≠ .lineBreak) := by
  apply List.filter_congr
  intro t _
  simp [keeps]

/-- The end of the file comes last, behind the delivered tokens that are kept. -/
theorem tokens_eq_ok_iff {out : List Token} {ignore : Bool} :
    (s.tokens ignore).result = .ok out ↔
      ∃ ts log last t, s.Delivers ts log last ∧ last.nextToken.result = .ok t ∧
        t.isEndOfFile = true ∧ out = ts.filter (keeps ignore) ++ [t] := by
  constructor
  · intro h
    obtain ⟨ts, log, last, hrun, hstop⟩ := exists_delivers s
    cases hlast : last.nextToken.result with
    | error e =>
        rw [tokens_of_delivers_of_error hrun hlast] at h
        cases h
    | ok t =>
        have hend := hstop t hlast
        rw [tokens_of_delivers_of_endOfFile hrun hlast hend] at h
        cases h
        exact ⟨ts, log, last, t, hrun, hlast, hend, rfl⟩
  · rintro ⟨ts, log, last, t, hrun, hlast, hend, rfl⟩
    rw [tokens_of_delivers_of_endOfFile hrun hlast hend]

theorem tokens_eq_error_iff {e : Fault} {ignore : Bool} :
    (s.tokens ignore).result = .error e ↔
      ∃ ts log last, s.Delivers ts log last ∧ last.nextToken.result = .error e := by
  constructor
  · intro h
    obtain ⟨ts, log, last, hrun, hstop⟩ := exists_delivers s
    cases hlast : last.nextToken.result with
    | error e' =>
        rw [tokens_of_delivers_of_error hrun hlast] at h
        cases h
        exact ⟨ts, log, last, hrun, hlast⟩
    | ok t =>
        rw [tokens_of_delivers_of_endOfFile hrun hlast (hstop t hlast)] at h
        cases h
  · rintro ⟨ts, log, last, hrun, hlast⟩
    rw [tokens_of_delivers_of_error hrun hlast]

/-! ## Whole texts -/

/-- A scan begins at the start of the text, with the buffer that the settings
ask for, unless storage for it cannot be requested. -/
theorem start?_eq_some_iff {source : String} {settings : Settings} :
    start? source settings = some s ↔
      settings.capacity ≤ TextBuffer.maxCapacity ∧
        s = startWith (.withCapacity settings.capacity settings.growable) source settings := by
  by_cases hcapacity : settings.capacity ≤ TextBuffer.maxCapacity
  · simp [start?, TextBuffer.withCapacity?, hcapacity, eq_comm]
  · simp [start?, TextBuffer.withCapacity?, hcapacity]

end Scan

/-- The settings ask for fewer than `2 ^ 61` characters, so storage for the
buffer can be requested. -/
def Settings.Storable (settings : Settings) : Prop := settings.capacity < 0x2000000000000000

instance (settings : Settings) : Decidable settings.Storable :=
  inferInstanceAs (Decidable (settings.capacity < 0x2000000000000000))

theorem Settings.storable_iff {settings : Settings} :
    settings.Storable ↔ settings.capacity ≤ TextBuffer.maxCapacity :=
  Nat.lt_succ_iff

/-- The buffer that a scan with these settings begins with. -/
def Settings.buffer (settings : Settings) : TextBuffer :=
  .withCapacity settings.capacity settings.growable

theorem Settings.Storable.start?_eq {settings : Settings} (h : settings.Storable)
    (source : String) :
    Scan.start? source settings = some (.startWith settings.buffer source settings) :=
  Scan.start?_eq_some_iff.mpr ⟨Settings.storable_iff.mp h, rfl⟩

/-- A scan of the text can begin, and it delivers all of the tokens. -/
def ScansTo (settings : Settings) (source : String) (tokens : List Token) : Prop :=
  ∃ scan, Scan.start? source settings = some scan ∧ (scan.tokens false).result = .ok tokens

end Lexing
