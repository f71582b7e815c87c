import Lexing.CommandLine
import Lexing.Proofs.Delivery

/-!
# How a run ends

A run of the command line ends with status 0 or 1, whatever its arguments, the
file and the environment are, with one exception: valid options can ask for a
buffer whose storage cannot be requested. Such a run reports nothing, and it
ends so as soon as the file has been read, also where the buffer would never be
used.
-/

namespace Lexing.CommandLine

/-- The run ends with status 0 or 1. -/
def Outcome.Exits : Outcome → Prop
  | .exited status _ _ => status ≤ 1
  | .outOfStorage => False

/-- The arguments ask to list the file at `path`, its options are valid, and the
file can be read. -/
structure Asks (env : Environment) (args : List String) (path : String) (options : Options)
    (source : String) : Prop where
  args_eq : ∃ rest, args = "lex" :: path :: rest ∧ Options.parse rest = .ok options
  textOf_eq : env.textOf path = .ok source

/-- The options ask for a buffer whose storage cannot be requested. -/
def AsksTooMuch (env : Environment) (args : List String) : Prop :=
  ∃ path options source, Asks env args path options source ∧ ¬ options.settings.Storable

/-- What comes of a scan that has begun: all of its tokens on the output, or a
report of the first fault and nothing on the output. -/
inductive Settles (path source : String) (options : Options) (scan : Scan) : Outcome → Prop
  | listed {tokens : List Token} (log : String) (h : scan.wantedTokens.result = .ok tokens) :
      Settles path source options scan
        (.exited 0 (Token.listingAs options.json tokens) log)
  | reported {e : Fault} (log : String) (h : scan.wantedTokens.result = .error e) :
      Settles path source options scan
        (.exited 1 "" (log ++ Diagnostic.render path source e))

theorem Settles.exits {path source : String} {options : Options} {scan : Scan} {o : Outcome}
    (h : Settles path source options scan o) : o.Exits := by
  cases h with
  | listed log h => exact Nat.zero_le 1
  | reported log h => exact Nat.le_refl 1

/-! ## Listing a text -/

section Listing

variable (env : Environment) (options : Options) (path source : String)

theorem listTokens_settles (hstorable : options.settings.Storable) :
    ∃ scan, Scan.start? source options.settings = some scan ∧
      Settles path source options scan (listTokens env options path source) := by
  obtain ⟨scan, hstart⟩ : ∃ scan, Scan.start? source options.settings = some scan :=
    ⟨_, hstorable.start?_eq source⟩
  refine ⟨scan, hstart, ?_⟩
  rw [listTokens, hstart]
  cases hresult : scan.wantedTokens.result with
  | ok tokens =>
      simp only [hresult]
      exact .listed _ hresult
  | error e =>
      simp only [hresult]
      exact .reported _ hresult

theorem listTokens_outOfStorage (hstorable : ¬ options.settings.Storable) :
    listTokens env options path source = .outOfStorage := by
  have hstart : Scan.start? source options.settings = none := by
    have hcapacity := mt Settings.storable_iff.mpr hstorable
    rw [Scan.start?, TextBuffer.withCapacity?, if_neg hcapacity, Option.map_none]
  rw [listTokens, hstart]

end Listing

/-! ## Runs -/

section Run

variable {env : Environment} {args : List String}

theorem Asks.run_eq {path source : String} {options : Options}
    (h : Asks env args path options source) :
    run env args = listTokens env options path source := by
  obtain ⟨⟨rest, rfl, hparse⟩, htext⟩ := h
  rw [run, listFile]
  simp only [hparse, htext]

/-- A run that does not come to scan a text exits. -/
theorem exits_or_asks (env : Environment) (args : List String) :
    (run env args).Exits ∨ ∃ path options source, Asks env args path options source := by
  fun_cases run env args with
  | case1 => exact .inl (Nat.zero_le 1)
  | case2 => exact .inl (Nat.le_refl 1)
  | case3 path rest =>
      rw [listFile]
      cases hparse : Options.parse rest with
      | error e => exact .inl (Nat.le_refl 1)
      | ok options =>
          cases htext : env.textOf path with
          | error e => exact .inl (Nat.le_refl 1)
          | ok source => exact .inr ⟨path, options, source, ⟨rest, rfl, hparse⟩, htext⟩
  | case4 => exact .inl (Nat.zero_le 1)
  | case5 => exact .inl (Nat.le_refl 1)

end Run

/-- How a run ends, by what it asks for. -/
structure EndsAsAsked (env : Environment) (args : List String) : Prop where
  /-- Without a request for too much storage the status is 0 or 1. -/
  exits : ¬ AsksTooMuch env args → (run env args).Exits
  /-- A request for too much storage is not reported. -/
  outOfStorage : AsksTooMuch env args → run env args = .outOfStorage
  /-- A scan begins, and its tokens are listed or its fault is reported. -/
  settles : ∀ (path : String) (options : Options) (source : String),
    Asks env args path options source → options.settings.Storable →
    ∃ scan, Scan.start? source options.settings = some scan ∧
      Settles path source options scan (run env args)

theorem run_endsAsAsked (env : Environment) (args : List String) : EndsAsAsked env args where
  exits := by
    intro hnot
    obtain hexits | ⟨path, options, source, hasks⟩ := exits_or_asks env args
    · exact hexits
    have hstorable : options.settings.Storable :=
      Decidable.not_not.mp fun hmuch => hnot ⟨path, options, source, hasks, hmuch⟩
    obtain ⟨scan, -, hsettles⟩ := listTokens_settles env options path source hstorable
    rw [hasks.run_eq]
    exact hsettles.exits
  outOfStorage := by
    rintro ⟨path, options, source, hasks, hmuch⟩
    rw [hasks.run_eq]
    exact listTokens_outOfStorage env options path source hmuch
  settles := by
    intro path options source hasks hstorable
    rw [hasks.run_eq]
    exact listTokens_settles env options path source hstorable

/-- A file of one letter, listed with a buffer for `2 ^ 61` characters. -/
theorem not_forall_exits :
    ¬ ∀ (env : Environment) (args : List String), (run env args).Exits := by
  intro h
  have hrun : run { vars := [], textOf := fun _ => .ok "x" }
      ["lex", "a.txt", "--buffer-capacity=2305843009213693952"] = .outOfStorage := by
    decide +kernel
  have hexits := h { vars := [], textOf := fun _ => .ok "x" }
    ["lex", "a.txt", "--buffer-capacity=2305843009213693952"]
  rw [hrun] at hexits
  exact hexits

end Lexing.CommandLine
