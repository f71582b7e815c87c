import Lexing.Proofs.Delivery
import Lexing.Proofs.Growing
import Lexing.Proofs.Truncation

/-!
# The log of a scan without a fault

Each token but the end of the file leaves an entry in the log: the changes of
storage that gathering its text took, then the token. The storage stays as it
is from one token to the next, so the entries of a scan are linked by the
capacity between them, and the tokens of a scan decide all of its log, but for
a warning in front that the source is too long.
-/

namespace Lexing

/-- A delivered token with the changes of storage that gathering its text took. -/
@[ext] structure Entry where
  growths : List Growth
  token : Token
  deriving DecidableEq, Repr

/-- What an entry is in the log. -/
def Entry.events (entry : Entry) : List Event :=
  entry.growths.map .bufferGrown ++ [.tokenScanned entry.token]

/-- Entries that follow each other from one capacity to another. Only a word or a string
changes the storage, which then grows until it holds the text and no further. -/
inductive Grows : Nat → List Entry → Nat → Prop
  | nil (capacity : Nat) : Grows capacity [] capacity
  | gathered {capacity behind last : Nat} {entry : Entry} {entries : List Entry}
      (hkind : entry.token.kind = .identifier ∨ entry.token.kind = .string)
      (hclimbs : TextBuffer.Climbs entry.token.text.length capacity entry.growths behind)
      (h : Grows behind entries last) : Grows capacity (entry :: entries) last
  | other {capacity last : Nat} {entry : Entry} {entries : List Entry}
      (hidentifier : entry.token.kind ≠ .identifier) (hstring : entry.token.kind ≠ .string)
      (hnone : entry.growths = []) (h : Grows capacity entries last) :
      Grows capacity (entry :: entries) last

namespace Grows

variable {capacity last : Nat} {entries : List Entry}

theorem chain (h : Grows capacity entries last) :
    TextBuffer.Chain capacity (entries.flatMap Entry.growths) last := by
  induction h with
  | nil capacity => exact .nil capacity
  | gathered _ hclimbs _ ih =>
      rw [List.flatMap_cons]
      exact hclimbs.chain.append ih
  | other _ _ hnone _ ih =>
      rw [List.flatMap_cons, hnone]
      exact ih

/-- The tokens decide the entries. -/
theorem unique {last' : Nat} {entries' : List Entry} (h : Grows capacity entries last)
    (h' : Grows capacity entries' last')
    (htokens : entries'.map Entry.token = entries.map Entry.token) : entries' = entries := by
  induction h generalizing entries' with
  | nil capacity => exact List.map_eq_nil_iff.mp htokens
  | @gathered capacity behind last entry entries hkind hclimbs _ ih =>
      cases h' with
      | nil => cases htokens
      | @gathered _ _ _ entry' entries' hkind' hclimbs' h' =>
          obtain ⟨htoken, htokens⟩ := List.cons.inj htokens
          rw [htoken] at hclimbs'
          obtain ⟨hgrowths, rfl⟩ := hclimbs.unique hclimbs'
          rw [ih h' htokens, Entry.ext hgrowths htoken]
      | other hidentifier hstring =>
          obtain ⟨htoken, -⟩ := List.cons.inj htokens
          rw [htoken] at hidentifier hstring
          exact absurd hkind (not_or.mpr ⟨hidentifier, hstring⟩)
  | @other capacity last entry entries hidentifier hstring hnone _ ih =>
      cases h' with
      | nil => cases htokens
      | gathered hkind =>
          obtain ⟨htoken, -⟩ := List.cons.inj htokens
          rw [htoken] at hkind
          exact absurd hkind (not_or.mpr ⟨hidentifier, hstring⟩)
      | @other _ _ entry' entries' _ _ hnone' h' =>
          obtain ⟨htoken, htokens⟩ := List.cons.inj htokens
          rw [ih h' htokens, Entry.ext (hnone'.trans hnone.symm) htoken]

end Grows

/-! ## The entries of a run -/

/-- A lexeme that is delivered leaves an entry. -/
theorem Grows.cons_of_fitsIn {l : Lexeme} {b : TextBuffer} {entries : List Entry} {last : Nat}
    (hfit : l.FitsIn b) (p : Position) (h : Grows (l.fill b).buffer.capacity entries last) :
    Grows b.capacity (⟨(l.fill b).growths, l.tokenAt p⟩ :: entries) last := by
  cases hgathered : l.isGathered with
  | true =>
      have hkind : l.kind = .identifier ∨ l.kind = .string := by
        simpa [Lexeme.isGathered] using hgathered
      have hclimbs := TextBuffer.climbs_fill (hfit hgathered)
      have hcount : b.reset.count + l.text.toList.length = l.text.length := by
        rw [String.length_toList]
        exact Nat.zero_add _
      rw [hcount, TextBuffer.capacity_reset] at hclimbs
      rw [Lexeme.fill, if_pos hgathered] at h ⊢
      exact .gathered hkind hclimbs h
  | false =>
      have hkinds : ¬ (l.kind = .identifier ∨ l.kind = .string) := by
        simpa [Lexeme.isGathered] using hgathered
      obtain ⟨hidentifier, hstring⟩ := not_or.mp hkinds
      rw [Lexeme.fill, if_neg (by simp [hgathered])] at h ⊢
      exact .other hidentifier hstring rfl h

namespace Scan

variable {s last : Scan} {ts : List Token} {log : List Event}

theorem exists_entries_of_delivers (h : s.Delivers ts log last) :
    ∃ entries, ts = entries.map Entry.token ∧ log = entries.flatMap Entry.events ∧
      Grows s.buffer.capacity entries last.buffer.capacity := by
  induction h with
  | nil s => exact ⟨[], rfl, rfl, .nil _⟩
  | @cons s last t ts log ht hmore _ ih =>
      obtain ⟨gap, l, rest, -, -, -, hfit, -, hstep⟩ := exists_lexeme_of_nextToken ht hmore
      obtain ⟨entries, rfl, rfl, hgrows⟩ := ih
      rw [hstep] at ht hgrows ⊢
      cases ht
      exact ⟨⟨_, _⟩ :: entries, rfl, rfl, hgrows.cons_of_fitsIn hfit _⟩

/-- The call that delivers the end of the file logs nothing and leaves the buffer alone. -/
theorem nextToken_of_endOfFile {t : Token} (h : s.nextToken.result = .ok t)
    (hend : t.isEndOfFile = true) :
    ∃ p, t = .endOfFile p ∧ s.nextToken.events = [] ∧ s.nextToken.scan.buffer = s.buffer := by
  obtain ⟨gap, hgap, hrest, rfl, hscan⟩ := exists_gap_of_nextToken h hend
  rw [nextToken_of_gap hgap hrest]
  exact ⟨_, rfl, rfl, rfl⟩

/-- The calls that a complete scan makes leave the entries of its tokens, and the last
call counts the tokens that are kept. -/
theorem exists_entries_of_tokens {ignore : Bool} {out : List Token}
    (h : (s.tokens ignore).result = .ok out) :
    ∃ entries,
      (∃ p, (s.tokens false).result = .ok (entries.map Entry.token ++ [.endOfFile p]) ∧
        out = (entries.map Entry.token).filter (keeps ignore) ++ [.endOfFile p]) ∧
      (s.tokens ignore).events = entries.flatMap Entry.events ++ [.scanComplete out.length] ∧
      Grows s.buffer.capacity entries (s.tokens ignore).scan.buffer.capacity := by
  obtain ⟨ts, log, last, t, hrun, ht, hend, rfl⟩ := tokens_eq_ok_iff.mp h
  obtain ⟨p, rfl, hnone, hbuffer⟩ := nextToken_of_endOfFile ht hend
  obtain ⟨entries, rfl, rfl, hgrows⟩ := exists_entries_of_delivers hrun
  refine ⟨entries, ⟨p, ?_, rfl⟩, ?_, ?_⟩
  · rw [tokens_of_delivers_of_endOfFile hrun ht hend, filter_keeps_false]
  · rw [tokens_of_delivers_of_endOfFile hrun ht hend, hnone, List.append_nil, List.length_append,
      List.length_singleton]
  · rw [tokens_of_delivers_of_endOfFile hrun ht hend, hbuffer]
    exact hgrows

end Scan

/-- What a scan of the source logs that began with these settings and gave the tokens `out`. -/
structure LogsEntries (settings : Settings) (source : String) (scan : Scan) (out : List Token)
    (entries : List Entry) : Prop where
  /-- There is an entry for each token before the end of the file, line breaks included,
  whether or not they are wanted. -/
  tokens : ∃ p, (scan.tokens false).result = .ok (entries.map Entry.token ++ [.endOfFile p]) ∧
    out = (entries.map Entry.token).filter (Scan.keeps settings.ignoreLineBreaks) ++ [.endOfFile p]
  /-- The log is the entries and, behind them, how many tokens were given. -/
  events : source.utf8ByteSize < 0x100000000 →
    Scan.startEvents source ++ scan.wantedTokens.events =
      entries.flatMap Entry.events ++ [.scanComplete out.length]
  /-- A source that is too long adds a warning in front, and nothing else. -/
  events_of_le : 0x100000000 ≤ source.utf8ByteSize →
    Scan.startEvents source ++ scan.wantedTokens.events =
      .sourceCut source.utf8ByteSize ::
        (entries.flatMap Entry.events ++ [.scanComplete out.length])
  /-- Each entry has the changes of storage that its text takes, and no others. -/
  grows : Grows settings.capacity entries scan.wantedTokens.scan.buffer.capacity
  chain : TextBuffer.Chain settings.capacity (entries.flatMap Entry.growths)
    scan.wantedTokens.scan.buffer.capacity
  /-- So no other log goes with these tokens and this capacity. -/
  unique : ∀ (entries' : List Entry) (last : Nat), Grows settings.capacity entries' last →
    entries'.map Entry.token = entries.map Entry.token → entries' = entries

theorem exists_logsEntries_of_storable {settings : Settings} (source : String)
    (hstorable : settings.Storable) :
    ∃ scan, Scan.start? source settings = some scan ∧
      ∀ out, scan.wantedTokens.result = .ok out →
        ∃ entries, LogsEntries settings source scan out entries := by
  refine ⟨_, hstorable.start?_eq source, ?_⟩
  intro out hout
  obtain ⟨entries, htokens, hevents, hgrows⟩ := Scan.exists_entries_of_tokens hout
  have hcapacity : (Scan.startWith settings.buffer source settings).buffer.capacity =
      settings.capacity :=
    TextBuffer.capacity_withCapacity _ _
  rw [hcapacity] at hgrows
  refine ⟨entries, htokens, ?_, ?_, hgrows, hgrows.chain, fun _ _ h => hgrows.unique h⟩
  · intro hlt
    have hnone : Scan.startEvents source = [] :=
      Scan.startEvents_eq_nil_iff.mpr (Reader.readable_of_lt hlt)
    rw [hnone, List.nil_append]
    exact hevents
  · intro hle
    have hwarns : Scan.startEvents source = [.sourceCut source.utf8ByteSize] :=
      if_neg (Nat.not_lt.mpr hle)
    rw [hwarns, List.singleton_append]
    exact congrArg _ hevents

/-- The word makes the storage grow from one character to four, and the string from
there to ten. The number takes none of it, and the line break is logged but not given. -/
theorem exists_logsEntries_of_storable_word :
    ({ capacity := 1, ignoreLineBreaks := true } : Settings).Storable ∧
    ∃ scan entries,
      Scan.start? "ab 12345\n\"abcde\"" { capacity := 1, ignoreLineBreaks := true } = some scan ∧
      LogsEntries { capacity := 1, ignoreLineBreaks := true } "ab 12345\n\"abcde\"" scan
        [⟨.identifier, "ab", ⟨0, 0, 0⟩⟩, ⟨.integer, "12345", ⟨3, 1, 0⟩⟩,
          ⟨.string, "abcde", ⟨9, 2, 0⟩⟩, ⟨.endOfFile, "", ⟨16, 2, 7⟩⟩] entries ∧
      scan.wantedTokens.events =
        [.bufferGrown ⟨1, 4⟩, .tokenScanned ⟨.identifier, "ab", ⟨0, 0, 0⟩⟩,
          .tokenScanned ⟨.integer, "12345", ⟨3, 1, 0⟩⟩,
          .tokenScanned ⟨.lineBreak, "\n", ⟨8, 1, 5⟩⟩,
          .bufferGrown ⟨4, 10⟩, .tokenScanned ⟨.string, "abcde", ⟨9, 2, 0⟩⟩,
          .scanComplete 4] := by
  obtain ⟨scan, hstart, hlogs⟩ :=
    @exists_logsEntries_of_storable { capacity := 1, ignoreLineBreaks := true }
      "ab 12345\n\"abcde\"" (by decide)
  have hrun : (Scan.start? "ab 12345\n\"abcde\"" { capacity := 1, ignoreLineBreaks := true }).map
        (fun scan => (scan.wantedTokens.result.toOption, scan.wantedTokens.events)) =
      some
        (some [⟨.identifier, "ab", ⟨0, 0, 0⟩⟩, ⟨.integer, "12345", ⟨3, 1, 0⟩⟩,
          ⟨.string, "abcde", ⟨9, 2, 0⟩⟩, ⟨.endOfFile, "", ⟨16, 2, 7⟩⟩],
        [.bufferGrown ⟨1, 4⟩, .tokenScanned ⟨.identifier, "ab", ⟨0, 0, 0⟩⟩,
          .tokenScanned ⟨.integer, "12345", ⟨3, 1, 0⟩⟩,
          .tokenScanned ⟨.lineBreak, "\n", ⟨8, 1, 5⟩⟩,
          .bufferGrown ⟨4, 10⟩, .tokenScanned ⟨.string, "abcde", ⟨9, 2, 0⟩⟩,
          .scanComplete 4]) := by
    decide +kernel
  rw [hstart, Option.map_some, Option.some.injEq, Prod.mk.injEq] at hrun
  obtain ⟨hresult, hevents⟩ := hrun
  cases hout : scan.wantedTokens.result with
  | error e =>
      rw [hout] at hresult
      cases hresult
  | ok out =>
      rw [hout] at hresult
      cases hresult
      obtain ⟨entries, hentries⟩ := hlogs _ hout
      exact ⟨by decide, scan, entries, hstart, hentries, hevents⟩

/-! ## The warning -/

/-- The only events of entries and of their count. -/
theorem eq_of_mem_entries {entries : List Entry} {count : Nat} {event : Event}
    (h : event ∈ entries.flatMap Entry.events ++ [.scanComplete count]) :
    (∃ growth, event = .bufferGrown growth) ∨ (∃ token, event = .tokenScanned token) ∨
      event = .scanComplete count := by
  simp only [Entry.events, List.mem_append, List.mem_flatMap, List.mem_map,
    List.mem_singleton] at h
  rcases h with ⟨entry, -, ⟨growth, -, rfl⟩ | rfl⟩ | rfl
  · exact .inl ⟨growth, rfl⟩
  · exact .inr (.inl ⟨_, rfl⟩)
  · exact .inr (.inr rfl)

/-- Blanks alone are scanned without a fault, however many there are. -/
theorem exists_wantedTokens_blanks (blanks : Nat) {settings : Settings} {scan : Scan}
    (hstart : Scan.start? (String.ofList (List.replicate blanks ' ')) settings = some scan) :
    ∃ out, scan.wantedTokens.result = .ok out := by
  obtain ⟨-, rfl⟩ := Scan.start?_eq_some_iff.mp hstart
  have hgap : IsGap (Reader.readable (String.ofList (List.replicate blanks ' '))).toList := by
    intro c hc
    have hmem := (Reader.readable_prefix _).subset hc
    rw [String.toList_ofList] at hmem
    exact isGap_replicate blanks c hmem
  rw [Scan.wantedTokens, Scan.tokens_of_delivers_of_endOfFile (.nil _)
    (by rw [Scan.nextToken_of_gap hgap rfl]) rfl]
  exact ⟨_, rfl⟩

theorem events_ne_of_blanks {blanks : Nat} (hblanks : Position.bound ≤ blanks) (scan : Scan)
    (entries : List Entry) (count : Nat) :
    Scan.startEvents (String.ofList (List.replicate blanks ' ')) ++ scan.wantedTokens.events ≠
      entries.flatMap Entry.events ++ [.scanComplete count] := by
  intro h
  have hlong : ¬ (String.ofList (List.replicate blanks ' ')).utf8ByteSize < Position.bound := by
    rw [← Text.utf8Length_toList, String.toList_ofList, utf8Length_blanks]
    exact Nat.not_lt.mpr hblanks
  rw [Scan.startEvents, if_neg hlong, List.singleton_append] at h
  have hmem := h ▸ List.mem_cons_self
  rcases eq_of_mem_entries hmem with ⟨_, hsame⟩ | ⟨_, hsame⟩ | hsame <;> cases hsame

/-- As many blanks as there are offsets are one too many, and the log says so. -/
theorem exists_events_ne_entries :
    ({} : Settings).Storable ∧
    ∃ scan out, Scan.start? (String.ofList (List.replicate Position.bound ' ')) {} = some scan ∧
      scan.wantedTokens.result = .ok out ∧
      ∀ entries : List Entry,
        Scan.startEvents (String.ofList (List.replicate Position.bound ' ')) ++
            scan.wantedTokens.events ≠
          entries.flatMap Entry.events ++ [.scanComplete out.length] := by
  have hstorable : ({} : Settings).Storable := by decide
  have hstart := hstorable.start?_eq (String.ofList (List.replicate Position.bound ' '))
  obtain ⟨out, hout⟩ := exists_wantedTokens_blanks Position.bound hstart
  exact ⟨hstorable, _, out, hstart, hout, fun entries =>
    events_ne_of_blanks (Nat.le_refl _) _ entries _⟩

end Lexing
