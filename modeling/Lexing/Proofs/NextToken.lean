import Lexing.Proofs.Filling
import Lexing.Proofs.Lexeme

/-!
# What one call can do

`Scan.Outcome` lists the outcomes of a call: the end of the text, a foreign
character, a string without an end, a character that the buffer refuses, and a
lexeme. Each comes with the whole step, its scan and its events included.
`Scan.nextToken_outcome` says that there are no others, and the equations
before it say that what the text begins with decides among them. Statements
about longer runs use these and do not open `Scan.nextToken` again.
-/

namespace Lexing

namespace Lexeme

/-- What is read before the text of a lexeme. -/
def opener (l : Lexeme) : List Char := if l.kind = .string then ['"'] else []

/-- The token that a lexeme is at a position. -/
def tokenAt (l : Lexeme) (p : Position) : Token := { kind := l.kind, text := l.text, position := p }

/-- The position behind a lexeme. A line break starts a line, whatever its
characters have done to the position. -/
def endPosition (l : Lexeme) (mode : LineTracking) (p : Position) : Position :=
  if l.kind = .lineBreak then (p.advanceOver mode l.spelling).startLineAfter p.line
  else p.advanceOver mode l.spelling

/-- What becomes of the buffer when the lexeme is read. -/
def fill (l : Lexeme) (b : TextBuffer) : TextBuffer.Fill :=
  if l.isGathered then b.reset.fill l.text.toList
  else { buffer := b, stored := 0, growths := [], fault := none }

@[simp] theorem lexeme_tokenAt (l : Lexeme) (p : Position) : (l.tokenAt p).lexeme = l := rfl

@[simp] theorem offset_endPosition (l : Lexeme) (mode : LineTracking) (p : Position) :
    (l.endPosition mode p).offset = p.offset + Text.utf8Length l.spelling := by
  unfold endPosition
  split <;> simp

theorem sameLimit_fill (l : Lexeme) (b : TextBuffer) : b.SameLimit (l.fill b).buffer := by
  unfold fill
  split
  · exact (TextBuffer.SameLimit.reset b).trans (TextBuffer.sameLimit_fill _ _)
  · exact TextBuffer.SameLimit.refl b

/-- The buffer has room for the lexeme, or will make room. -/
def FitsIn (l : Lexeme) (b : TextBuffer) : Prop := l.isGathered = true → b.reset.Fits l.text.toList

theorem fault_fill_eq_none_iff (l : Lexeme) (b : TextBuffer) :
    (l.fill b).fault = none ↔ l.FitsIn b := by
  unfold fill FitsIn
  cases l.isGathered with
  | true => simp [TextBuffer.fault_fill_eq_none_iff]
  | false => simp

theorem toList_fill {l : Lexeme} {b : TextBuffer} (hgathered : l.isGathered = true)
    (hfit : l.FitsIn b) : (l.fill b).buffer.toList = l.text.toList := by
  have hfault := (TextBuffer.fault_fill_eq_none_iff _ _).mpr (hfit hgathered)
  have htext := TextBuffer.toList_fill_of_fault_eq_none hfault
  rw [fill, if_pos hgathered, htext, TextBuffer.toList_reset, List.nil_append]

end Lexeme

/-- The text begins with a run of characters that a scan gathers in its
buffer, behind the characters `front`. -/
inductive Gathers (cs : List Char) : (front run : List Char) → Prop
  | identifier {c : Char} {word rest : List Char} (hcs : cs = c :: word ++ rest)
      (hc : isIdentifierStart c = true) (hword : ∀ d ∈ word, isIdentifierPart d = true)
      (hend : EndsRun isIdentifierPart rest) : Gathers cs [] (c :: word)
  | string {body rest : List Char} (hcs : cs = '"' :: body ++ rest) (hbody : '"' ∉ body)
      (hend : EndsRun (· != '"') rest) : Gathers cs ['"'] body

/-- A run that is gathered stands in the text, behind what is read before it. -/
theorem Gathers.exists_eq {cs front run : List Char} (h : Gathers cs front run) :
    ∃ rest, cs = front ++ (run ++ rest) := by
  cases h with
  | identifier hcs => exact ⟨_, hcs⟩
  | string hcs => exact ⟨_, hcs⟩

namespace Scan

/-- The scan that has read `cs` and has `rest` left. -/
def past (s : Scan) (cs rest : List Char) : Scan := { s with reader := s.reader.past cs rest }

@[simp] theorem reader_past (s : Scan) (cs rest : List Char) :
    (s.past cs rest).reader = s.reader.past cs rest := rfl

@[simp] theorem buffer_past (s : Scan) (cs rest : List Char) :
    (s.past cs rest).buffer = s.buffer := rfl

@[simp] theorem position_past (s : Scan) (cs rest : List Char) :
    (s.past cs rest).position = s.position.advanceOver s.reader.tracking cs := rfl

/-- The scan that has read a lexeme, where `rest` follows. -/
def behind (s : Scan) (l : Lexeme) (rest : List Char) : Scan :=
  { s with
    reader :=
      { rest, position := l.endPosition s.reader.tracking s.position, tracking := s.reader.tracking }
    buffer := (l.fill s.buffer).buffer }

/-- The step that delivers a lexeme where the scan stands. -/
def delivery (s : Scan) (l : Lexeme) (rest : List Char) : Step (Except Fault Token) :=
  { result := .ok (l.tokenAt s.position)
    scan := s.behind l rest
    events :=
      (l.fill s.buffer).growths.map .bufferGrown ++ [.tokenScanned (l.tokenAt s.position)] }

@[simp] theorem scan_delivery (s : Scan) (l : Lexeme) (rest : List Char) :
    (s.delivery l rest).scan = s.behind l rest := rfl

/-- The step that finds the end of the text before the end of a string. -/
def stranding (s : Scan) (body : List Char) : Step (Except Fault Token) :=
  { result := .error (.unterminatedString s.position)
    scan :=
      { s with
        reader := s.reader.past ('"' :: body) []
        buffer := (s.buffer.reset.fill body).buffer }
    events :=
      (s.buffer.reset.fill body).growths.map .bufferGrown ++
        [.scanAborted (.unterminatedString s.position)] }

/-- The step whose buffer refuses a character of `run`, which follows `front`.
The scan stands behind that character. -/
def refusal (s : Scan) (front run : List Char) (e : TextBuffer.Exhausted) :
    Step (Except Fault Token) :=
  { result := .error (.ofExhausted e)
    scan :=
      { s with
        reader := s.reader.skip (front.length + ((s.buffer.reset.fill run).stored + 1))
        buffer := (s.buffer.reset.fill run).buffer }
    events := (s.buffer.reset.fill run).growths.map .bufferGrown }

@[simp] theorem rest_behind (s : Scan) (l : Lexeme) (rest : List Char) :
    (s.behind l rest).reader.rest = rest := rfl

@[simp] theorem tracking_behind (s : Scan) (l : Lexeme) (rest : List Char) :
    (s.behind l rest).reader.tracking = s.reader.tracking := rfl

@[simp] theorem position_behind (s : Scan) (l : Lexeme) (rest : List Char) :
    (s.behind l rest).position = l.endPosition s.reader.tracking s.position := rfl

theorem sameLimit_behind (s : Scan) (l : Lexeme) (rest : List Char) :
    s.buffer.SameLimit (s.behind l rest).buffer :=
  l.sameLimit_fill s.buffer

theorem reader_behind_of_ne_lineBreak (s : Scan) {l : Lexeme} (h : l.kind ≠ .lineBreak)
    (rest : List Char) : (s.behind l rest).reader = s.reader.past l.spelling rest := by
  simp only [behind, Lexeme.endPosition, if_neg h]
  rfl

/-- A lexeme that is not gathered leaves the buffer alone. -/
theorem delivery_of_not_gathered (s : Scan) {l : Lexeme} (h : l.isGathered = false)
    (rest : List Char) :
    s.delivery l rest = s.deliver (s.behind l rest).reader l.kind l.text.toList := by
  simp [delivery, deliver, behind, Lexeme.fill, Lexeme.tokenAt, h]

/-- A lexeme that is gathered is delivered from the buffer. -/
theorem delivery_of_gathered (s : Scan) {l : Lexeme} (h : l.isGathered = true)
    (hfit : l.FitsIn s.buffer) (rest : List Char) :
    s.delivery l rest =
      ({ s with buffer := (l.fill s.buffer).buffer }.deliver (s.behind l rest).reader l.kind
        (l.fill s.buffer).buffer.toList).behind ((l.fill s.buffer).growths.map .bufferGrown) := by
  rw [Lexeme.toList_fill h hfit]
  simp [delivery, deliver, behind, Step.behind, Lexeme.tokenAt, position]

/-- The reader has read the character that was refused, and none behind it. -/
theorem reader_refusal {s : Scan} {run : List Char} {e : TextBuffer.Exhausted}
    (hfault : (s.buffer.reset.fill run).fault = some e) (gap front rest : List Char) :
    ((s.past gap (front ++ (run ++ rest))).refusal front run e).scan.reader =
      s.reader.past (gap ++ (front ++ run.take (e.capacity + 1)))
        (run.drop (e.capacity + 1) ++ rest) := by
  have hstored := TextBuffer.stored_fill_reset hfault
  obtain ⟨-, hlong, rfl⟩ := TextBuffer.fault_fill_reset_eq_some_iff.mp hfault
  have hread : front ++ (run ++ rest) =
      (front ++ run.take (s.buffer.capacity + 1)) ++ (run.drop (s.buffer.capacity + 1) ++ rest) := by
    rw [List.append_assoc, ← List.append_assoc (run.take _), List.take_append_drop]
  have hlength : front.length + (s.buffer.capacity + 1) =
      (front ++ run.take (s.buffer.capacity + 1)).length := by
    rw [List.length_append, List.length_take, Nat.min_eq_left hlong]
  rw [refusal, buffer_past, hstored, reader_past, hlength, Reader.skip_eq_past _ hread,
    Reader.past_past]

/-! ## Reading a lexeme where the scan stands -/

section Read

variable {s : Scan} {rest : List Char}

theorem integer_eq_delivery {digits : List Char} (hdigits : ∀ c ∈ digits, c.isDigit = true)
    (hend : EndsRun Char.isDigit rest) (hrest : s.reader.rest = digits ++ rest) :
    s.integer = s.delivery ⟨.integer, String.ofList digits⟩ rest := by
  rw [delivery_of_not_gathered s rfl, reader_behind_of_ne_lineBreak s (by simp),
    Lexeme.spelling_of_ne_string _ (by decide), String.toList_ofList]
  unfold integer
  rw [Reader.takeWhile_eq_past hrest hdigits hend]

theorem symbol_eq_delivery {kind : Kind} {c : Char} (hc : kind.symbol? = some c)
    (hrest : s.reader.rest = c :: rest) :
    s.symbol kind = s.delivery ⟨kind, String.singleton c⟩ rest := by
  have hkind : kind ≠ .lineBreak := by
    rintro rfl
    cases hc
  have hgathered : (⟨kind, String.singleton c⟩ : Lexeme).isGathered = false := by
    cases kind <;> cases hc <;> rfl
  have hskip : s.reader.skip 1 = s.reader.past [c] rest := Reader.skip_one_eq_past hrest
  rw [delivery_of_not_gathered s hgathered, reader_behind_of_ne_lineBreak s hkind,
    Lexeme.spelling_symbol hc, symbol, hskip, hrest]
  simp

theorem lineFeed_eq_delivery (hend : EndsRun (· = '\r') rest)
    (hrest : s.reader.rest = '\n' :: rest) :
    s.lineBreak = s.delivery ⟨.lineBreak, "\n"⟩ rest := by
  have hsingle : s.reader.peekNth? 1 ≠ some '\r' := by
    rw [Reader.peekNth?, hrest]
    cases rest with
    | nil => simp
    | cons c rest => simpa using hend
  have hskip : s.reader.skip 1 = s.reader.past ['\n'] rest := Reader.skip_one_eq_past hrest
  rw [delivery_of_not_gathered s rfl]
  simp only [lineBreak, if_neg hsingle, hskip, hrest]
  rfl

theorem lineFeedReturn_eq_delivery (hrest : s.reader.rest = '\n' :: '\r' :: rest) :
    s.lineBreak = s.delivery ⟨.lineBreak, "\n\r"⟩ rest := by
  have hpair : s.reader.peekNth? 1 = some '\r' := by
    rw [Reader.peekNth?, hrest]
    rfl
  have hskip : s.reader.skip 2 = s.reader.past ['\n', '\r'] rest :=
    Reader.skip_eq_past ['\n', '\r'] hrest
  rw [delivery_of_not_gathered s rfl]
  simp only [lineBreak, if_pos hpair, hskip, hrest]
  rfl

theorem identifier_eq_delivery {word : List Char} (hword : ∀ c ∈ word, isIdentifierPart c = true)
    (hend : EndsRun isIdentifierPart rest) (hrest : s.reader.rest = word ++ rest)
    (hfit : s.buffer.reset.Fits word) :
    s.identifier = s.delivery ⟨.identifier, String.ofList word⟩ rest := by
  have hfill : (⟨.identifier, String.ofList word⟩ : Lexeme).fill s.buffer =
      s.buffer.reset.fill word := by
    simp [Lexeme.fill, Lexeme.isGathered]
  have hfault := (TextBuffer.fault_fill_eq_none_iff _ _).mpr hfit
  rw [delivery_of_gathered s rfl (fun _ => by simpa using hfit),
    reader_behind_of_ne_lineBreak s (by simp), Lexeme.spelling_of_ne_string _ (by decide), hfill]
  simp only [identifier, Reader.takeWhile_eq_past hrest hword hend, hfault]

/-- The body of a string goes up to a quotation mark or to the end of the text. -/
theorem takeWhile_skip_one {body : List Char} (hbody : '"' ∉ body)
    (hend : EndsRun (· != '"') rest) (hrest : s.reader.rest = '"' :: body ++ rest) :
    (s.reader.skip 1).takeWhile (· != '"') = (body, s.reader.past ('"' :: body) rest) := by
  have hopened : s.reader.skip 1 = s.reader.past ['"'] (body ++ rest) :=
    Reader.skip_one_eq_past hrest
  have hrun : ∀ c ∈ body, (c != '"') = true := by
    intro c hc
    have hne : c ≠ '"' := by
      rintro rfl
      exact hbody hc
    simpa using hne
  rw [hopened, Reader.takeWhile_eq_past rfl hrun hend, Reader.past_past]
  rfl

theorem string_eq_delivery {body : List Char} (hbody : '"' ∉ body)
    (hrest : s.reader.rest = '"' :: body ++ '"' :: rest) (hfit : s.buffer.reset.Fits body) :
    s.string = s.delivery ⟨.string, String.ofList body⟩ rest := by
  have hfill : (⟨.string, String.ofList body⟩ : Lexeme).fill s.buffer =
      s.buffer.reset.fill body := by
    simp [Lexeme.fill, Lexeme.isGathered]
  have hfault := (TextBuffer.fault_fill_eq_none_iff _ _).mpr hfit
  have hpeek : (s.reader.past ('"' :: body) ('"' :: rest)).peek? = some '"' := rfl
  have hskip : (s.reader.past ('"' :: body) ('"' :: rest)).skip 1 =
      s.reader.past ('"' :: body ++ ['"']) rest := by
    rw [Reader.skip_one_eq_past rfl, Reader.past_past]
  rw [delivery_of_gathered s rfl (fun _ => by simpa using hfit),
    reader_behind_of_ne_lineBreak s (by simp), Lexeme.spelling_string, hfill]
  simp only [string, takeWhile_skip_one hbody (EndsRun.cons.mpr rfl) hrest, hfault, hpeek, hskip]

theorem string_eq_stranding {body : List Char} (hbody : '"' ∉ body)
    (hrest : s.reader.rest = '"' :: body) (hfit : s.buffer.reset.Fits body) :
    s.string = s.stranding body := by
  have hfault := (TextBuffer.fault_fill_eq_none_iff _ _).mpr hfit
  have hpeek : (s.reader.past ('"' :: body) []).peek? = none := rfl
  rw [← List.append_nil ('"' :: body)] at hrest
  simp only [string, takeWhile_skip_one hbody (EndsRun.nil _) hrest, hfault, hpeek]
  rfl

theorem read_eq_delivery {l : Lexeme} (hl : l.WellFormed) (hend : EndsRun l.extendedBy rest)
    (hrest : s.reader.rest = l.spelling ++ rest) (hfit : l.FitsIn s.buffer) :
    s.read l.opening = s.delivery l rest := by
  cases hl with
  | integer hne hdigits =>
      rw [Lexeme.spelling_of_ne_string _ (by decide)] at hrest
      exact integer_eq_delivery hdigits hend hrest
  | @identifier c cs hc hcs =>
      rw [Lexeme.spelling_of_ne_string _ (by decide)] at hrest
      refine identifier_eq_delivery ?_ hend hrest (by simpa using hfit rfl)
      intro d hd
      rcases List.mem_cons.mp hd with rfl | hd
      · exact isIdentifierPart_of_isIdentifierStart hc
      · exact hcs d hd
  | string hbody =>
      rw [Lexeme.spelling_string] at hrest
      exact string_eq_delivery hbody (by simpa using hrest) (by simpa using hfit rfl)
  | lineFeed => exact lineFeed_eq_delivery (by simpa [EndsRun] using hend) hrest
  | lineFeedReturn => exact lineFeedReturn_eq_delivery hrest
  | @symbol kind c hc hdot hcomma =>
      rw [Lexeme.spelling_symbol hc] at hrest
      have hopening : (⟨kind, String.singleton c⟩ : Lexeme).opening = .symbol kind := by
        cases kind <;> cases hc <;> rfl
      rw [hopening]
      exact symbol_eq_delivery hc hrest

theorem identifier_eq_refusal {word : List Char} {e : TextBuffer.Exhausted}
    (hword : ∀ c ∈ word, isIdentifierPart c = true) (hend : EndsRun isIdentifierPart rest)
    (hrest : s.reader.rest = word ++ rest) (hfault : (s.buffer.reset.fill word).fault = some e) :
    s.identifier = s.refusal [] word e := by
  simp only [identifier, Reader.takeWhile_eq_past hrest hword hend, hfault]
  simp [overflow, refusal, Step.behind]

theorem string_eq_refusal {body : List Char} {e : TextBuffer.Exhausted} (hbody : '"' ∉ body)
    (hend : EndsRun (· != '"') rest) (hrest : s.reader.rest = '"' :: body ++ rest)
    (hfault : (s.buffer.reset.fill body).fault = some e) :
    s.string = s.refusal ['"'] body e := by
  simp only [string, takeWhile_skip_one hbody hend hrest, hfault]
  simp [overflow, refusal, Step.behind, Reader.skip_add]

end Read

/-! ## A call -/

section Call

variable {s : Scan} {gap rest : List Char}

theorem skipBlanks_eq_past (hgap : IsGap gap) (hend : EndsRun isBlank rest)
    (hrest : s.reader.rest = gap ++ rest) : s.skipBlanks = s.past gap rest := by
  rw [skipBlanks, Reader.takeWhile_eq_past hrest hgap hend]
  rfl

theorem nextToken_of_gap (hgap : IsGap gap) (hrest : s.reader.rest = gap) :
    s.nextToken =
      { result := .ok (.endOfFile (s.past gap []).position), scan := s.past gap [], events := [] } := by
  rw [← List.append_nil gap] at hrest
  simp only [nextToken, skipBlanks_eq_past hgap (EndsRun.nil _) hrest]
  rfl

/-- Behind a gap, the next character decides which token is read. -/
theorem nextToken_of_opening {c : Char} {opening : Opening} (hgap : IsGap gap)
    (hblank : isBlank c = false) (hopen : Opening.ofChar? c = some opening)
    (hrest : s.reader.rest = gap ++ c :: rest) :
    s.nextToken = (s.past gap (c :: rest)).read opening := by
  have hpeek : (s.past gap (c :: rest)).reader.peek? = some c := rfl
  simp only [nextToken, skipBlanks_eq_past hgap (EndsRun.cons.mpr hblank) hrest, hpeek, hopen]

theorem nextToken_of_foreign {c : Char} (hgap : IsGap gap) (hc : Foreign c)
    (hrest : s.reader.rest = gap ++ c :: rest) :
    s.nextToken =
      (s.past gap (c :: rest)).abort
        (.unexpectedCharacter c (s.past gap (c :: rest)).position) := by
  have hpeek : (s.past gap (c :: rest)).reader.peek? = some c := rfl
  have hopen := (Opening.ofChar?_eq_none_iff hc.not_blank).mpr hc
  simp only [nextToken, skipBlanks_eq_past hgap (EndsRun.cons.mpr hc.not_blank) hrest, hpeek, hopen]

theorem nextToken_of_openString {body : List Char} (hgap : IsGap gap) (hbody : '"' ∉ body)
    (hfit : s.buffer.reset.Fits body) (hrest : s.reader.rest = gap ++ '"' :: body) :
    s.nextToken = (s.past gap ('"' :: body)).stranding body := by
  have hopen : Opening.ofChar? '"' = some .string := by decide
  rw [nextToken_of_opening hgap (by decide) hopen hrest]
  exact string_eq_stranding hbody rfl hfit

theorem nextToken_of_lexeme {l : Lexeme} (hgap : IsGap gap) (hl : l.WellFormed)
    (hend : EndsRun l.extendedBy rest) (hfit : l.FitsIn s.buffer)
    (hrest : s.reader.rest = gap ++ (l.spelling ++ rest)) :
    s.nextToken = (s.past gap (l.spelling ++ rest)).delivery l rest := by
  obtain ⟨c, cs, hspelling, hblank, hopen⟩ := hl.exists_spelling_eq_cons
  have hhead : l.spelling ++ rest = c :: (cs ++ rest) := by rw [hspelling, List.cons_append]
  rw [hhead] at hrest
  rw [nextToken_of_opening hgap hblank hopen hrest, ← hhead]
  exact read_eq_delivery hl hend rfl hfit

theorem nextToken_of_gathers {text front run : List Char} {e : TextBuffer.Exhausted}
    (hgap : IsGap gap) (hrun : Gathers text front run)
    (hfault : (s.buffer.reset.fill run).fault = some e) (hrest : s.reader.rest = gap ++ text) :
    s.nextToken = (s.past gap text).refusal front run e := by
  cases hrun with
  | @identifier c word rest hcs hc hword hend =>
      have hpart := isIdentifierPart_of_isIdentifierStart hc
      rw [hcs, List.cons_append] at hrest
      rw [nextToken_of_opening hgap (isBlank_eq_false_of_isIdentifierPart hpart)
        (Opening.ofChar?_of_isIdentifierStart hc) hrest, hcs, List.cons_append]
      refine identifier_eq_refusal ?_ hend rfl hfault
      intro d hd
      rcases List.mem_cons.mp hd with rfl | hd
      · exact hpart
      · exact hword d hd
  | string hcs hbody hend =>
      have hopen : Opening.ofChar? '"' = some .string := by decide
      rw [hcs, List.cons_append] at hrest
      rw [nextToken_of_opening hgap (by decide) hopen hrest, hcs]
      exact string_eq_refusal hbody hend rfl hfault

/-- What a call on `s` can come to. -/
inductive Outcome (s : Scan) : Step (Except Fault Token) → Prop
  | endOfFile {gap : List Char} (hgap : IsGap gap) (hrest : s.reader.rest = gap) :
      Outcome s
        { result := .ok (.endOfFile (s.past gap []).position), scan := s.past gap [], events := [] }
  | foreign {gap rest : List Char} {c : Char} (hgap : IsGap gap) (hc : Foreign c)
      (hrest : s.reader.rest = gap ++ c :: rest) :
      Outcome s
        ((s.past gap (c :: rest)).abort
          (.unexpectedCharacter c (s.past gap (c :: rest)).position))
  | openString {gap body : List Char} (hgap : IsGap gap) (hbody : '"' ∉ body)
      (hfit : s.buffer.reset.Fits body) (hrest : s.reader.rest = gap ++ '"' :: body) :
      Outcome s ((s.past gap ('"' :: body)).stranding body)
  | refusal {gap text front run : List Char} {e : TextBuffer.Exhausted} (hgap : IsGap gap)
      (hrun : Gathers text front run) (hfault : (s.buffer.reset.fill run).fault = some e)
      (hrest : s.reader.rest = gap ++ text) :
      Outcome s ((s.past gap text).refusal front run e)
  | lexeme {gap rest : List Char} {l : Lexeme} (hgap : IsGap gap) (hl : l.WellFormed)
      (hend : EndsRun l.extendedBy rest) (hfit : l.FitsIn s.buffer)
      (hrest : s.reader.rest = gap ++ (l.spelling ++ rest)) :
      Outcome s ((s.past gap (l.spelling ++ rest)).delivery l rest)

/-- A lexeme that passes through the buffer is a run that is gathered. -/
theorem gathers_of_isGathered {l : Lexeme} (hl : l.WellFormed) (hend : EndsRun l.extendedBy rest)
    (hgathered : l.isGathered = true) : Gathers (l.spelling ++ rest) l.opener l.text.toList := by
  cases hl with
  | integer hne hdigits => cases hgathered
  | @identifier c cs hc hcs =>
      rw [Lexeme.spelling_of_ne_string _ (by decide), String.toList_ofList]
      exact .identifier rfl hc hcs hend
  | @string body hbody =>
      have htext : '"' :: body ++ ['"'] ++ rest = '"' :: body ++ '"' :: rest := by simp
      rw [Lexeme.spelling_string, String.toList_ofList]
      exact .string htext hbody (EndsRun.cons.mpr rfl)
  | lineFeed => cases hgathered
  | lineFeedReturn => cases hgathered
  | @symbol kind c hc hdot hcomma =>
      cases kind <;> cases hc <;> cases hgathered

theorem nextToken_outcome (s : Scan) : s.Outcome s.nextToken := by
  obtain ⟨gap, rest, hrest, hgap, hend⟩ := exists_run isBlank s.reader.rest
  -- The text behind the gap decides, and for what is gathered the buffer as well.
  rcases begins hend with hcs | ⟨hcs, hc⟩ | ⟨hcs, hbody⟩ | ⟨hcs, hl, hext⟩
  · rw [hcs, List.append_nil] at hrest
    rw [nextToken_of_gap hgap hrest]
    exact .endOfFile hgap hrest
  · rw [hcs] at hrest
    rw [nextToken_of_foreign hgap hc hrest]
    exact .foreign hgap hc hrest
  · rename_i body
    rw [hcs] at hrest
    cases hfault : (s.buffer.reset.fill body).fault with
    | none =>
        have hfit := (TextBuffer.fault_fill_eq_none_iff _ _).mp hfault
        rw [nextToken_of_openString hgap hbody hfit hrest]
        exact .openString hgap hbody hfit hrest
    | some e =>
        have hrun : Gathers ('"' :: body) ['"'] body :=
          .string (by simp) hbody (EndsRun.nil _)
        rw [nextToken_of_gathers hgap hrun hfault hrest]
        exact .refusal hgap hrun hfault hrest
  · rename_i l rest'
    rw [hcs] at hrest
    by_cases hfit : l.FitsIn s.buffer
    · rw [nextToken_of_lexeme hgap hl hext hfit hrest]
      exact .lexeme hgap hl hext hfit hrest
    · obtain ⟨hgathered, hfull⟩ := Classical.not_imp.mp hfit
      have hrun := gathers_of_isGathered hl hext hgathered
      cases hfault : (s.buffer.reset.fill l.text.toList).fault with
      | none => exact absurd ((TextBuffer.fault_fill_eq_none_iff _ _).mp hfault) hfull
      | some e =>
          rw [nextToken_of_gathers hgap hrun hfault hrest]
          exact .refusal hgap hrun hfault hrest

end Call

/-! ## What a call does to the buffer, and what it leaves alone -/

section Kept

variable (s : Scan)

/-- The next call gathers `run` in the buffer, behind what it reads first. -/
def Collects (lead run : List Char) : Prop :=
  ∃ gap front text, lead = gap ++ front ∧ IsGap gap ∧ s.reader.rest = gap ++ text ∧
    Gathers text front run

theorem Collects.exists_rest {s : Scan} {lead run : List Char} (h : s.Collects lead run) :
    ∃ rest, s.reader.rest = lead ++ (run ++ rest) := by
  obtain ⟨gap, front, text, rfl, -, hrest, hrun⟩ := h
  obtain ⟨rest, rfl⟩ := hrun.exists_eq
  exact ⟨rest, by rw [hrest, List.append_assoc]⟩

theorem buffer_nextToken :
    s.nextToken.scan.buffer = s.buffer ∨
      ∃ lead run, s.Collects lead run ∧
        s.nextToken.scan.buffer = (s.buffer.reset.fill run).buffer := by
  have hout := s.nextToken_outcome
  generalize s.nextToken = step at hout ⊢
  cases hout with
  | endOfFile hgap hrest => exact .inl rfl
  | foreign hgap hc hrest => exact .inl rfl
  | @openString gap body hgap hbody hfit hrest =>
      have hrun : Gathers ('"' :: body) ['"'] body := .string (by simp) hbody (EndsRun.nil _)
      exact .inr ⟨_, body, ⟨gap, ['"'], _, rfl, hgap, hrest, hrun⟩, rfl⟩
  | @refusal gap text front run e hgap hrun hfault hrest =>
      exact .inr ⟨_, run, ⟨gap, front, text, rfl, hgap, hrest, hrun⟩, rfl⟩
  | @lexeme gap rest l hgap hl hend hfit hrest =>
      cases hgathered : l.isGathered with
      | false =>
          left
          simp [behind, Lexeme.fill, hgathered]
      | true =>
          right
          refine ⟨_, l.text.toList,
            ⟨gap, l.opener, _, rfl, hgap, hrest, gathers_of_isGathered hl hend hgathered⟩, ?_⟩
          simp [behind, Lexeme.fill, hgathered]

theorem sameLimit_nextToken : s.buffer.SameLimit s.nextToken.scan.buffer := by
  rcases s.buffer_nextToken with hsame | ⟨_, run, _, hfill⟩
  · rw [hsame]
    exact TextBuffer.SameLimit.refl _
  · rw [hfill]
    exact (TextBuffer.SameLimit.reset _).trans (TextBuffer.sameLimit_fill _ _)

/-- The flags of the iteration and of the settings are not touched. -/
theorem flags_nextToken :
    s.nextToken.scan.finished = s.finished ∧
      s.nextToken.scan.ignoreLineBreaks = s.ignoreLineBreaks := by
  have hout := s.nextToken_outcome
  generalize s.nextToken = step at hout ⊢
  cases hout <;> exact ⟨rfl, rfl⟩

theorem tracking_nextToken : s.nextToken.scan.reader.tracking = s.reader.tracking := by
  have hout := s.nextToken_outcome
  generalize s.nextToken = step at hout ⊢
  cases hout <;> rfl

end Kept

/-! ## A call that delivers a token -/

section Delivered

variable {s : Scan}

theorem isEndOfFile_tokenAt {l : Lexeme} (hl : l.WellFormed) (p : Position) :
    (l.tokenAt p).isEndOfFile = false := by
  have hkind : l.kind ≠ .endOfFile := by
    intro hkind
    exact hl.kind_notMem (by simp [hkind])
  exact decide_eq_false hkind

/-- A call that delivers the end of the file has found a gap up to the end. -/
theorem exists_gap_of_nextToken {t : Token} (h : s.nextToken.result = .ok t)
    (hend : t.isEndOfFile = true) :
    ∃ gap, IsGap gap ∧ s.reader.rest = gap ∧ t = .endOfFile (s.past gap []).position ∧
      s.nextToken.scan = s.past gap [] := by
  have hout := s.nextToken_outcome
  generalize s.nextToken = step at h hout
  cases hout with
  | @endOfFile gap hgap hrest =>
      cases h
      exact ⟨gap, hgap, hrest, rfl, rfl⟩
  | lexeme hgap hl _ _ _ =>
      cases h
      rw [isEndOfFile_tokenAt hl] at hend
      cases hend
  | foreign => cases h
  | openString => cases h
  | refusal => cases h

/-- A call that delivers another token has found a gap and a lexeme. -/
theorem exists_lexeme_of_nextToken {t : Token} (h : s.nextToken.result = .ok t)
    (hmore : t.isEndOfFile = false) :
    ∃ gap l rest, IsGap gap ∧ l.WellFormed ∧ EndsRun l.extendedBy rest ∧ l.FitsIn s.buffer ∧
      s.reader.rest = gap ++ (l.spelling ++ rest) ∧
      s.nextToken = (s.past gap (l.spelling ++ rest)).delivery l rest := by
  have hout := s.nextToken_outcome
  generalize s.nextToken = step at h hout ⊢
  cases hout with
  | @lexeme gap rest l hgap hl hend hfit hrest =>
      exact ⟨gap, l, rest, hgap, hl, hend, hfit, hrest, rfl⟩
  | endOfFile =>
      cases h
      cases hmore
  | foreign => cases h
  | openString => cases h
  | refusal => cases h

end Delivered

end Scan

end Lexing
