import Lexing.Scan

/-!
# Scanning to the end

Two ways to scan a whole text: `Scan.tokens` gives the list of its tokens or the fault that stopped it, and
`Scan.results` iterates with `Scan.next?`, which remembers in the scan that the iteration has ended. Both end
because every token before the end of the file leaves less to read.
-/

namespace Lexing

namespace Scan

/-- Whether a token is kept when line breaks may be ignored. -/
def keeps (ignoreLineBreaks : Bool) (t : Token) : Bool := !(ignoreLineBreaks && t.kind = .lineBreak)

/-- Every token up to the end of the file, which is the last of them, or the first fault. -/
def tokens (s : Scan) (ignoreLineBreaks : Bool) : Step (Except Fault (List Token)) :=
  go s [] []
where
  /-- Continues after the kept tokens and the events so far, both latest first. -/
  go (s : Scan) (kept : List Token) (log : List Event) : Step (Except Fault (List Token)) :=
    let step := s.nextToken
    let log := step.events.reverse ++ log
    match _hresult : step.result with
    | .error e => { result := .error e, scan := step.scan, events := log.reverse }
    | .ok t =>
        let kept := if keeps ignoreLineBreaks t then t :: kept else kept
        if _hend : t.isEndOfFile then
          { result := .ok kept.reverse
            scan := step.scan
            events := (.scanComplete kept.length :: log).reverse }
        else go step.scan kept log
  termination_by s.reader.rest.length
  decreasing_by exact length_rest_nextToken_lt _hresult (by simpa using _hend)

/-- Scans to the end, with line breaks as the settings say. -/
def wantedTokens (s : Scan) : Step (Except Fault (List Token)) := s.tokens s.ignoreLineBreaks

/-- Whether an iteration ends with this result. -/
def isLast : Except Fault Token → Bool
  | .ok t => t.isEndOfFile
  | .error _ => true

/-- One step of the iteration over a scan, which ends with the end of the file or the first fault. -/
def next? (s : Scan) : Option (Step (Except Fault Token)) :=
  if s.finished then none
  else
    let step := s.nextToken
    some { step with scan := { step.scan with finished := isLast step.result } }

/-- An upper bound for the steps that are left of an iteration. -/
def stepsLeft (s : Scan) : Nat := if s.finished then 0 else s.reader.rest.length + 1

theorem stepsLeft_next?_lt {s : Scan} {step : Step (Except Fault Token)} (h : s.next? = some step) :
    step.scan.stepsLeft < s.stepsLeft := by
  unfold next? at h
  split at h
  · cases h
  · next hfinished =>
      cases h
      simp only [stepsLeft, hfinished]
      cases hresult : s.nextToken.result with
      | error e => simp [isLast]
      | ok t =>
          cases ht : t.isEndOfFile with
          | true => simp [isLast, ht]
          | false => simpa [isLast, ht] using length_rest_nextToken_lt hresult ht

/-- All results of the iteration. -/
def results (s : Scan) : Step (List (Except Fault Token)) :=
  go s [] []
where
  /-- Continues after the past results and events, both latest first. -/
  go (s : Scan) (past : List (Except Fault Token)) (log : List Event) :
      Step (List (Except Fault Token)) :=
    match _hstep : s.next? with
    | none => { result := past.reverse, scan := s, events := log.reverse }
    | some step => go step.scan (step.result :: past) (step.events.reverse ++ log)
  termination_by s.stepsLeft
  decreasing_by exact stepsLeft_next?_lt _hstep

end Scan

end Lexing
