import Lexing.Proofs.ExitStatus

/-!
# All of a listing or none of it

A run that lists a file goes through three stages: it reads the options, then
the file, and then scans its text. It prints the tokens when the last of them
is known, so that a stage that fails leaves the output empty. The first stage
that fails is the one that is reported, and what is reported depends on no
stage behind it. A log is written beside the report and changes nothing else.
-/

namespace Lexing.CommandLine

/-- No filter is set, so nothing is logged. -/
def Environment.IsQuiet (env : Environment) : Prop := env.vars.lookup "RUST_LOG" = none

/-- No stage of listing the file at `path` fails, and its scan gives the tokens. -/
structure Succeeds (env : Environment) (path : String) (args : List String) (options : Options)
    (tokens : List Token) : Prop where
  parse_eq : Options.parse args = .ok options
  scan_eq : ∃ source scan, env.textOf path = .ok source ∧
    Scan.start? source options.settings = some scan ∧ scan.wantedTokens.result = .ok tokens

/-- The first stage of listing the file at `path` that fails, with its report. The
stages before it succeed. -/
inductive FailsWith (env : Environment) (path : String) (args : List String) : String → Prop
  | options {e : OptionError} (h : Options.parse args = .error e) :
      FailsWith env path args ("error: " ++ e.message ++ "\n\n" ++ lexOptions)
  | file {options : Options} {e : FileError} (hparse : Options.parse args = .ok options)
      (h : env.textOf path = .error e) : FailsWith env path args (e.message path ++ "\n")
  | scan {options : Options} {source : String} {scan : Scan} {e : Fault}
      (hparse : Options.parse args = .ok options) (htext : env.textOf path = .ok source)
      (hstart : Scan.start? source options.settings = some scan)
      (h : scan.wantedTokens.result = .error e) :
      FailsWith env path args (Diagnostic.render path source e)

/-- The outcome without what is written on the error output. -/
def Outcome.withoutErrors : Outcome → Outcome
  | .exited status output _ => .exited status output ""
  | .outOfStorage => .outOfStorage

/-! ## Listing a text -/

theorem Environment.IsQuiet.log_eq {env : Environment} (h : env.IsQuiet) (events : List Event) :
    env.log events = "" := by
  rw [Environment.log, h]

section Listing

variable {env : Environment} {options : Options} {path source : String} {scan : Scan}

theorem listTokens_of_ok {tokens : List Token} (hquiet : env.IsQuiet)
    (hstart : Scan.start? source options.settings = some scan)
    (h : scan.wantedTokens.result = .ok tokens) :
    listTokens env options path source = .exited 0 (Token.listingAs options.json tokens) "" := by
  rw [listTokens, hstart]
  simp only [h, hquiet.log_eq]

theorem listTokens_of_error {e : Fault} (hquiet : env.IsQuiet)
    (hstart : Scan.start? source options.settings = some scan)
    (h : scan.wantedTokens.result = .error e) :
    listTokens env options path source = .exited 1 "" (Diagnostic.render path source e) := by
  rw [listTokens, hstart]
  simp only [h, hquiet.log_eq, String.empty_append]

end Listing

/-- Only what is written on the error output depends on the variables. -/
theorem withoutErrors_listTokens (env : Environment) (vars : List (String × String))
    (options : Options) (path source : String) :
    (listTokens { env with vars } options path source).withoutErrors =
      (listTokens env options path source).withoutErrors := by
  rw [listTokens, listTokens]
  cases Scan.start? source options.settings with
  | none => rfl
  | some scan =>
      dsimp only
      cases scan.wantedTokens.result with
      | ok tokens => rfl
      | error e => rfl

/-! ## Runs -/

section Run

variable {env : Environment} {path : String} {args : List String}

theorem run_of_parse_error {e : OptionError} (h : Options.parse args = .error e) :
    run env ("lex" :: path :: args) =
      .exited 1 "" ("error: " ++ e.message ++ "\n\n" ++ lexOptions) := by
  rw [run, listFile, h]

theorem run_of_textOf_error {options : Options} {e : FileError}
    (hparse : Options.parse args = .ok options) (h : env.textOf path = .error e) :
    run env ("lex" :: path :: args) = .exited 1 "" (e.message path ++ "\n") := by
  rw [run, listFile, hparse]
  simp only [h]

theorem Succeeds.run_eq {options : Options} {tokens : List Token}
    (h : Succeeds env path args options tokens) (hquiet : env.IsQuiet) :
    run env ("lex" :: path :: args) = .exited 0 (Token.listingAs options.json tokens) "" := by
  obtain ⟨hparse, source, scan, htext, hstart, hscan⟩ := h
  have hasks : Asks env ("lex" :: path :: args) path options source := ⟨⟨args, rfl, hparse⟩, htext⟩
  rw [hasks.run_eq, listTokens_of_ok hquiet hstart hscan]

theorem FailsWith.run_eq {report : String} (h : FailsWith env path args report)
    (hquiet : env.IsQuiet) : run env ("lex" :: path :: args) = .exited 1 "" report := by
  cases h with
  | options h => exact run_of_parse_error h
  | file hparse h => exact run_of_textOf_error hparse h
  | @scan options source scan e hparse htext hstart h =>
      have hasks : Asks env ("lex" :: path :: args) path options source :=
        ⟨⟨args, rfl, hparse⟩, htext⟩
      rw [hasks.run_eq, listTokens_of_error hquiet hstart h]

/-- The stages succeed or one of them is the first to fail, if the buffer that
the options ask for can be had. -/
theorem succeeds_or_failsWith (hmuch : ¬ AsksTooMuch env ("lex" :: path :: args)) :
    (∃ options tokens, Succeeds env path args options tokens) ∨
      ∃ report, FailsWith env path args report := by
  cases hparse : Options.parse args with
  | error e => exact .inr ⟨_, .options hparse⟩
  | ok options =>
      cases htext : env.textOf path with
      | error e => exact .inr ⟨_, .file hparse htext⟩
      | ok source =>
          have hstorable : options.settings.Storable := by
            apply Decidable.not_not.mp
            intro hmany
            exact hmuch ⟨path, options, source, ⟨⟨args, rfl, hparse⟩, htext⟩, hmany⟩
          have hstart := hstorable.start?_eq source
          cases hscan : (Scan.startWith options.settings.buffer source
              options.settings).wantedTokens.result with
          | error e => exact .inr ⟨_, .scan hparse htext hstart hscan⟩
          | ok tokens => exact .inl ⟨options, tokens, hparse, source, _, htext, hstart, hscan⟩

theorem withoutErrors_run (env : Environment) (vars : List (String × String)) (path : String)
    (args : List String) :
    (run { env with vars } ("lex" :: path :: args)).withoutErrors =
      (run env ("lex" :: path :: args)).withoutErrors := by
  rw [run, run, listFile, listFile]
  cases Options.parse args with
  | error e => rfl
  | ok options =>
      dsimp only
      cases env.textOf path with
      | error e => rfl
      | ok source => exact withoutErrors_listTokens env vars options path source

end Run

/-- How a run ends that lists the file at `path`, with the arguments `args` behind
the path. -/
structure AllOrNothing (env : Environment) (path : String) (args : List String) : Prop where
  /-- All tokens are printed, in the form that is asked for, and nothing is reported. -/
  listed : ∀ (options : Options) (tokens : List Token), env.IsQuiet →
    Succeeds env path args options tokens →
    run env ("lex" :: path :: args) = .exited 0 (Token.listingAs options.json tokens) ""
  /-- In every other case nothing is printed, and the first stage that fails is reported. -/
  reported : env.IsQuiet → ¬ AsksTooMuch env ("lex" :: path :: args) →
    (¬ ∃ options tokens, Succeeds env path args options tokens) →
    ∃ report, FailsWith env path args report ∧
      run env ("lex" :: path :: args) = .exited 1 "" report
  /-- Whatever files there are, options that are not valid are reported. -/
  options_first : ∀ e : OptionError, Options.parse args = .error e → ∀ env' : Environment,
    run env' ("lex" :: path :: args) = run env ("lex" :: path :: args)
  /-- Logging changes neither the status nor the output. -/
  logged : ∀ vars : List (String × String),
    (run { env with vars } ("lex" :: path :: args)).withoutErrors =
      (run env ("lex" :: path :: args)).withoutErrors

theorem run_allOrNothing (env : Environment) (path : String) (args : List String) :
    AllOrNothing env path args where
  listed := by
    intro options tokens hquiet hsucceeds
    exact hsucceeds.run_eq hquiet
  reported := by
    intro hquiet hmuch hnot
    obtain hsucceeds | ⟨report, hfails⟩ := succeeds_or_failsWith hmuch
    · exact absurd hsucceeds hnot
    · exact ⟨report, hfails, hfails.run_eq hquiet⟩
  options_first := by
    intro e hparse env'
    rw [run_of_parse_error hparse, run_of_parse_error hparse]
  logged := fun vars => withoutErrors_run env vars path args

/-- The tokens before the foreign character are not printed. -/
example : run { vars := [], textOf := fun _ => .ok "a 1 #" } ["lex", "a.txt", "--json"] =
    .exited 1 "" (Diagnostic.render "a.txt" "a 1 #" (.unexpectedCharacter '#' ⟨4, 2, 0⟩)) := by
  decide +kernel

end Lexing.CommandLine
