import Lexing.Log.Record
import Lexing.Proofs.Calls
import Lexing.Proofs.Logging

/-!
# The log of a scan that a fault stops

The tokens before a fault leave their entries in the log, in order, and behind
them stand the changes of storage for the text that the fault cuts short. What
comes last depends on the fault: a character that belongs to no token and a
string without an end are reported, but a character that the buffer refuses is
not, so that the log of such a scan ends like that of one that still goes on
(`not_forall_reportsFault`).
-/

namespace Lexing

/-- What a fault leaves in the log itself. -/
def Fault.report : Fault → List Event
  | .bufferExhausted _ => []
  | e => [.scanAborted e]

theorem Fault.report_of_ne_bufferExhausted {e : Fault}
    (h : ∀ capacity, e ≠ .bufferExhausted capacity) : e.report = [.scanAborted e] := by
  cases e with
  | bufferExhausted capacity => exact absurd rfl (h capacity)
  | unexpectedCharacter => rfl
  | unterminatedString => rfl

namespace Scan

variable {s : Scan} {e : Fault}

/-- A call that meets a fault delivers nothing, and reports no fault of the buffer. -/
theorem exists_growths_of_nextToken (h : s.nextToken.result = .error e) :
    ∃ growths, s.nextToken.events = growths.map .bufferGrown ++ e.report ∧
      TextBuffer.Chain s.buffer.capacity growths s.nextToken.scan.buffer.capacity := by
  have hout := s.nextToken_outcome
  generalize s.nextToken = step at h hout ⊢
  cases hout with
  | foreign =>
      cases h
      exact ⟨[], rfl, .nil _⟩
  | @openString gap body =>
      cases h
      exact ⟨_, rfl, TextBuffer.chain_fill s.buffer.reset body⟩
  | @refusal gap text front run =>
      cases h
      exact ⟨_, (List.append_nil _).symm, TextBuffer.chain_fill s.buffer.reset run⟩
  | endOfFile => cases h
  | lexeme => cases h

/-- Only a buffer of fixed capacity refuses a character. -/
theorem growable_of_bufferExhausted {capacity : Nat}
    (h : s.nextToken.result = .error (.bufferExhausted capacity)) : s.buffer.growable = false := by
  have hout := s.nextToken_outcome
  generalize s.nextToken = step at h hout ⊢
  cases hout with
  | refusal _ _ hfault => exact (TextBuffer.refused_fill hfault).1
  | foreign => cases h
  | openString => cases h
  | endOfFile => cases h
  | lexeme => cases h

theorem wantedTokens_of_delivers_of_error {last : Scan} {ts : List Token} {log : List Event}
    (h : s.Delivers ts log last) (he : last.nextToken.result = .error e) :
    s.wantedTokens =
      { result := .error e, scan := last.nextToken.scan, events := log ++ last.nextToken.events } :=
  tokens_of_delivers_of_error h he s.ignoreLineBreaks

/-- A scan that such a fault stops leaves the storage as it was. -/
theorem capacity_wantedTokens_of_bufferExhausted {capacity : Nat}
    (h : s.wantedTokens.result = .error (.bufferExhausted capacity)) :
    s.wantedTokens.scan.buffer.capacity = s.buffer.capacity := by
  obtain ⟨ts, log, last, hrun, he⟩ := tokens_eq_error_iff.mp h
  have hlimit : s.buffer.SameLimit last.buffer :=
    keep_delivers (P := fun u => s.buffer.SameLimit u.buffer)
      (fun u hu => hu.trans u.sameLimit_nextToken) hrun (.refl _)
  have hfixed : s.buffer.growable = false :=
    hlimit.growable.symm.trans (growable_of_bufferExhausted he)
  rw [wantedTokens_of_delivers_of_error hrun he]
  exact (hlimit.trans last.sameLimit_nextToken).capacity hfixed

end Scan

/-! ## Whole scans -/

/-- The calls of `nextToken` deliver the tokens `ts`, and the next one meets the fault. -/
structure StopsBehind (scan : Scan) (ts : List Token) (e : Fault) : Prop where
  tokens : (List.range ts.length).map scan.resultAt = ts.map .ok
  more : ∀ t ∈ ts, t.isEndOfFile = false
  fault : scan.resultAt ts.length = .error e

/-- A log tells of a fault that stopped a scan behind the tokens `ts`. -/
structure ReportsFault (log : List Event) (ts : List Token) (e : Fault) : Prop where
  /-- The report is the only one and stands last. -/
  last : ∃ before, log = before ++ [.scanAborted e] ∧ ∀ e', .scanAborted e' ∉ before
  record : (log.map Log.Record.ofEvent).getLast? =
    some ⟨.debug, "lexis_core::scanner", "scan aborted", [("err", e.message)]⟩
  /-- Before it, every token is logged once. -/
  delivered : delivered log = ts
  incomplete : ∀ count, .scanComplete count ∉ log

/-- What a scan of the source logs that began with these settings and stopped at the fault `e`.
The `growths` come behind the entries, from the text that was not delivered. -/
structure LogsFault (settings : Settings) (source : String) (scan : Scan) (e : Fault)
    (entries : List Entry) (growths : List Growth) : Prop where
  stops : StopsBehind scan (entries.map Entry.token) e
  events : scan.wantedTokens.events =
    entries.flatMap Entry.events ++ (growths.map .bufferGrown ++ e.report)
  chain : TextBuffer.Chain settings.capacity (entries.flatMap Entry.growths ++ growths)
    scan.wantedTokens.scan.buffer.capacity
  reported : (∀ capacity, e ≠ .bufferExhausted capacity) →
    ReportsFault scan.wantedTokens.events (entries.map Entry.token) e
  /-- A warning that the source is too long comes before all that. -/
  reportedFromStart : (∀ capacity, e ≠ .bufferExhausted capacity) →
    ReportsFault (Scan.startEvents source ++ scan.wantedTokens.events) (entries.map Entry.token) e
  /-- A refused character leaves the tokens before it, and nothing else. -/
  unreported : ∀ capacity, e = .bufferExhausted capacity →
    scan.wantedTokens.events = (entries.map Entry.token).map .tokenScanned

section Log

variable {entries : List Entry} {growths : List Growth} {e : Fault}

theorem delivered_flatMap_events (entries : List Entry) :
    delivered (entries.flatMap Entry.events) = entries.map Entry.token := by
  induction entries with
  | nil => rfl
  | cons entry entries ih =>
      rw [List.flatMap_cons, delivered_append, ih, Entry.events, delivered_append,
        delivered_map_bufferGrown]
      rfl

/-- Nothing but growths and tokens stands before the report. -/
theorem mem_flatMap_events_append {event : Event}
    (h : event ∈ entries.flatMap Entry.events ++ growths.map .bufferGrown) :
    (∃ growth, event = .bufferGrown growth) ∨ ∃ t, event = .tokenScanned t := by
  rcases List.mem_append.mp h with h | h
  · obtain ⟨entry, -, h⟩ := List.mem_flatMap.mp h
    rcases List.mem_append.mp h with h | h
    · obtain ⟨growth, -, rfl⟩ := List.mem_map.mp h
      exact .inl ⟨growth, rfl⟩
    · exact .inr ⟨_, List.mem_singleton.mp h⟩
  · obtain ⟨growth, -, rfl⟩ := List.mem_map.mp h
    exact .inl ⟨growth, rfl⟩

theorem reportsFault_append (entries : List Entry) (growths : List Growth) (e : Fault) :
    ReportsFault (entries.flatMap Entry.events ++ growths.map .bufferGrown ++ [.scanAborted e])
      (entries.map Entry.token) e where
  last := by
    refine ⟨_, rfl, ?_⟩
    intro e' hmem
    rcases mem_flatMap_events_append hmem with ⟨_, h⟩ | ⟨_, h⟩
    · cases h
    · cases h
  record := by
    rw [List.map_append, List.map_singleton, List.getLast?_concat]
    rfl
  delivered := by
    rw [delivered_append, delivered_append, delivered_flatMap_events, delivered_map_bufferGrown,
      List.append_nil]
    exact List.append_nil _
  incomplete := by
    intro count hmem
    rcases List.mem_append.mp hmem with hmem | hmem
    · rcases mem_flatMap_events_append hmem with ⟨_, h⟩ | ⟨_, h⟩
      · cases h
      · cases h
    · cases List.mem_singleton.mp hmem

theorem delivered_startEvents (source : String) : delivered (Scan.startEvents source) = [] := by
  unfold Scan.startEvents
  split
  · rfl
  · rfl

/-- A warning in front reports neither a token nor a fault. -/
theorem ReportsFault.behind_startEvents {log : List Event} {ts : List Token}
    (h : ReportsFault log ts e) (source : String) :
    ReportsFault (Scan.startEvents source ++ log) ts e where
  last := by
    obtain ⟨before, rfl, hbefore⟩ := h.last
    refine ⟨Scan.startEvents source ++ before, (List.append_assoc ..).symm, ?_⟩
    intro e' hmem
    rcases List.mem_append.mp hmem with hmem | hmem
    · cases Scan.eq_sourceCut_of_mem_startEvents hmem
    · exact hbefore e' hmem
  record := by
    rw [List.map_append, List.getLast?_append, h.record]
    rfl
  delivered := by
    rw [delivered_append, delivered_startEvents, h.delivered]
    rfl
  incomplete := by
    intro count hmem
    rcases List.mem_append.mp hmem with hmem | hmem
    · cases Scan.eq_sourceCut_of_mem_startEvents hmem
    · exact h.incomplete count hmem

/-- Entries without growths are their tokens. -/
theorem flatMap_events_of_growths_eq_nil (h : entries.flatMap Entry.growths = []) :
    entries.flatMap Entry.events = (entries.map Entry.token).map .tokenScanned := by
  induction entries with
  | nil => rfl
  | cons entry entries ih =>
      rw [List.flatMap_cons, List.append_eq_nil_iff] at h
      rw [List.flatMap_cons, ih h.2, Entry.events, h.1]
      rfl

end Log

/-- The calls that a scan makes before a fault leave the entries of their tokens, and the
call that meets the fault leaves the rest of the log. -/
theorem Scan.exists_logsFault {s : Scan} {settings : Settings} {e : Fault} (source : String)
    (hcapacity : s.buffer.capacity = settings.capacity) (h : s.wantedTokens.result = .error e) :
    ∃ entries growths, LogsFault settings source s e entries growths := by
  obtain ⟨ts, log, last, hrun, he⟩ := tokens_eq_error_iff.mp h
  obtain ⟨entries, rfl, rfl, hgrows⟩ := exists_entries_of_delivers hrun
  obtain ⟨growths, hevents, hchain⟩ := exists_growths_of_nextToken he
  have hdrain := wantedTokens_of_delivers_of_error hrun he
  have hlog : s.wantedTokens.events =
      entries.flatMap Entry.events ++ (growths.map .bufferGrown ++ e.report) := by
    rw [hdrain, hevents]
  have hfull : TextBuffer.Chain settings.capacity (entries.flatMap Entry.growths ++ growths)
      s.wantedTokens.scan.buffer.capacity := by
    rw [hdrain, ← hcapacity]
    exact hgrows.chain.append hchain
  have hreported : (∀ capacity, e ≠ .bufferExhausted capacity) →
      ReportsFault s.wantedTokens.events (entries.map Entry.token) e := by
    intro hlocated
    rw [hlog, Fault.report_of_ne_bufferExhausted hlocated, ← List.append_assoc]
    exact reportsFault_append entries growths e
  refine ⟨entries, growths, ⟨map_resultAt_of_delivers hrun, ?_, ?_⟩, hlog, hfull, hreported,
    fun hlocated => (hreported hlocated).behind_startEvents source, ?_⟩
  · exact fun t ht => isEndOfFile_of_mem_of_delivers hrun ht
  · rw [resultAt, ← eq_after_of_delivers hrun]
    exact he
  · rintro capacity rfl
    -- The storage is as large as it was, so no chain of growths leads there.
    rw [Scan.capacity_wantedTokens_of_bufferExhausted h, hcapacity] at hfull
    obtain ⟨hnone, rfl⟩ := List.append_eq_nil_iff.mp hfull.eq_nil
    rw [hlog, flatMap_events_of_growths_eq_nil hnone]
    exact List.append_nil _

theorem exists_logsFault_of_storable {settings : Settings} (source : String)
    (hstorable : settings.Storable) :
    ∃ scan, Scan.start? source settings = some scan ∧
      ∀ e, scan.wantedTokens.result = .error e →
        ∃ entries growths, LogsFault settings source scan e entries growths := by
  refine ⟨_, hstorable.start?_eq source, ?_⟩
  intro e he
  exact Scan.exists_logsFault source (TextBuffer.capacity_withCapacity _ _) he

/-- The word and the string without an end both make the storage grow. -/
theorem exists_logsFault_of_storable_openString :
    ({ capacity := 1 } : Settings).Storable ∧
    ∃ scan entries growths,
      Scan.start? "ab \"cdefg" { capacity := 1 } = some scan ∧
      LogsFault { capacity := 1 } "ab \"cdefg" scan (.unterminatedString ⟨3, 1, 0⟩) entries
        growths ∧
      scan.wantedTokens.events =
        [.bufferGrown ⟨1, 4⟩, .tokenScanned ⟨.identifier, "ab", ⟨0, 0, 0⟩⟩, .bufferGrown ⟨4, 10⟩,
          .scanAborted (.unterminatedString ⟨3, 1, 0⟩)] := by
  obtain ⟨scan, hstart, hlogs⟩ :=
    @exists_logsFault_of_storable { capacity := 1 } "ab \"cdefg" (by decide)
  cases hstart
  have hdrain := Scan.wantedTokens_of_delivers_of_error (.cons rfl rfl (.nil _))
    (s := .startWith (.withCapacity 1 true) "ab \"cdefg" { capacity := 1 })
    (e := .unterminatedString ⟨3, 1, 0⟩) rfl
  obtain ⟨entries, growths, hfault⟩ := hlogs _ (congrArg Step.result hdrain)
  refine ⟨by decide, _, entries, growths, rfl, hfault, (congrArg Step.events hdrain).trans ?_⟩
  decide +kernel

/-- Behind the letter stands a word of two, which does not fit into a fixed buffer for
one character: the letter is logged, and nothing comes after it. -/
theorem not_forall_reportsFault :
    ¬ ∀ (settings : Settings) (source : String) (scan : Scan) (ts : List Token) (e : Fault),
        settings.Storable → Scan.start? source settings = some scan →
        scan.wantedTokens.result = .error e → StopsBehind scan ts e →
        ReportsFault scan.wantedTokens.events ts e := by
  intro h
  have hdrain := Scan.wantedTokens_of_delivers_of_error (.cons rfl rfl (.nil _))
    (s := .startWith (.withCapacity 1 false) "x ab" { capacity := 1, growable := false })
    (e := .bufferExhausted 1) rfl
  have hstops : StopsBehind
      (.startWith (.withCapacity 1 false) "x ab" { capacity := 1, growable := false })
      [⟨.identifier, "x", ⟨0, 0, 0⟩⟩] (.bufferExhausted 1) :=
    ⟨rfl, by simp [Token.isEndOfFile], rfl⟩
  have hreports := h { capacity := 1, growable := false } "x ab" _ _ _ (by decide) rfl
    (congrArg Step.result hdrain) hstops
  obtain ⟨before, hlast, -⟩ := hreports.last
  rw [hdrain] at hlast
  have hlog : [.tokenScanned ⟨.identifier, "x", ⟨0, 0, 0⟩⟩] =
      before ++ [.scanAborted (.bufferExhausted 1)] := hlast
  have hmem : .scanAborted (.bufferExhausted 1) ∈ before ++ [.scanAborted (.bufferExhausted 1)] :=
    List.mem_concat_self
  rw [← hlog] at hmem
  cases List.mem_singleton.mp hmem

end Lexing
