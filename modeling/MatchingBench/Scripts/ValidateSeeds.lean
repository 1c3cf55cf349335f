import MatchingBench.Lib.PythonText
import MatchingBench.Lib.Runs
import Mathlib.Data.Rat.Init
import Mathlib.Logic.Function.Basic

/-!
# The seed validator

`scripts/validate_seeds.py` runs the harness once for every selected cell, a
seed and a scenario, on a pool of threads.  What the processes and files of a
cell answer is an input; workers and the main thread take their steps in any
order.  Wall-clock times, progress lines and the cost model are left out.
-/

set_option autoImplicit false

namespace MatchingBench.Scripts.ValidateSeeds

open MatchingBench.Lib

/-! ## Result files -/

/-- What `json.load` gives; integers and floats compare by value. -/
inductive Json where
  | null
  | bool (value : Bool)
  | number (value : Rat)
  | notFinite
  | string (value : String)
  | list (items : List Json)
  | dict (fields : List (String × Json))

/-- `get` of a dict; a missing name and `null` are both `None`. -/
def Json.get (name : String) : Json → Json
  | .dict fields =>
      ((fields.find? fun field => field.1 = name).map Prod.snd).getD .null
  | _ => .null

/-- `isinstance(…, dict)`. -/
def Json.isDict : Json → Bool
  | .dict _ => true
  | _ => false

/-- `==` with an integer; a bool counts as 0 or 1. -/
def Json.isNumber (value : Nat) : Json → Bool
  | .number other => other = value
  | .bool other => other.toNat = value
  | _ => false

/-- `==` with a string. -/
def Json.isString (value : String) : Json → Bool
  | .string other => other = value
  | _ => false

/-! ## `run_cell` -/

/-- A seed and a scenario. -/
structure Cell where
  seed : Nat
  scenario : String
deriving DecidableEq, Repr

/-- What a cell can end with. -/
inductive Outcome where
  | pass
  | fail
  | crash
  | timeout
  | error
  | invalid
  | notRun
deriving DecidableEq, Repr

/-- The options and the surroundings of a run. -/
structure Settings where
  /-- The selected cells, in the order they are submitted. -/
  cells : List Cell
  jobs : Nat
  failFast : Bool
  requireValid : Bool
  /-- `published`, which has every selected cell. -/
  published : Cell → String
  engine : String
  /-- `REPO`. -/
  repo : String
  /-- `shlex.quote`. -/
  quote : String → String
  /-- `str` of a value. -/
  str : Json → String

/-- The entries of a record that come from the harness's run. -/
structure Findings where
  returncode : Option Int
  computed : Json
  verdict : Json
  probeShare : Json

/-- No entries yet: `get` gives `None`. -/
def Findings.none : Findings where
  returncode := .none
  computed := .null
  verdict := .null
  probeShare := .null

/-- A record; missing texts are empty. -/
structure Record where
  cell : Cell
  expected : String
  outcome : Outcome
  findings : Findings
  detail : String
  repro : String

/-- What the processes, files and flags answer to one `run_cell`. -/
structure CellRun where
  /-- An exception that leaves `run_cell`: no directory, or in a clean-up. -/
  escaped : Option String
  /-- An exception caught in it, and what had been found by then. -/
  caught : Option (Findings × String)
  /-- `tape_ok(tape)`. -/
  tapeOk : Bool
  generator : Option Int
  /-- `tape_ok(tmp_tape)`. -/
  generatedOk : Bool
  generatorErr : String
  harness : Option Int
  out : String
  err : String
  /-- The lines of `out` that `DIAG_RE` finds. -/
  diag : List String
  /-- The lines of `err.strip()`. -/
  errLines : List String
  /-- `result_files`, each loaded if it can be. -/
  files : List (Option Json)
  /-- `INTERRUPTED.is_set()` where the outcome is decided. -/
  interrupted : Bool

/-- `pattern in text`. -/
def contains (pattern text : String) : Bool :=
  (TextScan.find pattern.toList text.toList).isSome

/-- `strip`. -/
def strip (text : String) : String :=
  String.ofList (PythonText.strip text.toList)

/-- `items[-count:]`. -/
def lastItems {α : Type} (count : Nat) (items : List α) : List α :=
  items.drop (items.length - count)

/-- The loaded result file, if there is exactly one. -/
def CellRun.result (run : CellRun) : Option Json :=
  match run.files with
  | [file] => file
  | _ => none

/-- The entries after the harness has run. -/
def CellRun.findings (run : CellRun) : Findings :=
  match run.result with
  | some (.dict fields) =>
      let j := Json.dict fields
      { returncode := run.harness
        computed := (j.get "correctness").get "computed_hash"
        verdict := j.get "verdict"
        probeShare := j.get "excluded_frac" }
  | _ => { Findings.none with returncode := run.harness }

/-- The result file is a dict that names the cell. -/
def CellRun.names (run : CellRun) (cell : Cell) : Bool :=
  match run.result with
  | some j =>
      j.isDict && (j.get "seed").isNumber cell.seed &&
        (j.get "scenario").isString cell.scenario
  | none => false

/-- The outcome of a harness run. -/
def decideOutcome
    (requireValid : Bool) (cell : Cell) (expected : String) (run : CellRun) :
    Outcome :=
  if run.interrupted ∧ run.harness = none then .notRun
  else if
    run.harness = none ∨ contains "exceeded the time limit" run.err
  then .timeout
  else if run.harness = some 3 ∨ contains "engine crashed" run.err then .crash
  else if ¬ run.names cell then .error
  else if run.findings.computed.isString expected then
    if
      requireValid ∧
        (¬ run.findings.verdict.isString "VALID" ∨ run.harness ≠ some 0)
    then .invalid
    else .pass
  else .fail

/-- The outcome of a generator run that left no workload. -/
def generationOutcome (run : CellRun) : Outcome :=
  if run.interrupted then .notRun
  else if run.generator = none then .timeout
  else .error

/-- The detail of such a run. -/
def generationDetail (run : CellRun) : String :=
  let ended :=
    match run.generator with
    | none => "timed out"
    | some rc => "failed (exit " ++ toString rc ++ ")"
  strip ("workload generation " ++ ended ++ "\n" ++ run.generatorErr)

/-- The detail of a harness run. -/
def harnessDetail (run : CellRun) : String :=
  let lines := lastItems 8 run.diag ++ lastItems 8 run.errLines
  let text :=
    if lines = [] then strip run.out else String.intercalate "\n" lines
  String.ofList (lastItems 3000 text.toList)

/-- The command that runs a cell again. -/
def reproOf (settings : Settings) (cell : Cell) : String :=
  "cd " ++ settings.quote settings.repo ++ " && ./harness --engine " ++
    settings.quote settings.engine ++ " --scenario " ++ cell.scenario ++
    " --seed " ++ toString cell.seed ++
    " --count 1000000 --mode perf --matcher-core -1 --drainer-core -1"

/-- Outcomes without a failure report. -/
def Outcome.quiet (outcome : Outcome) : Bool :=
  outcome = .pass || outcome = .notRun

/-- `run_cell`; an exception that leaves it is an error. -/
def runCell (settings : Settings) (cell : Cell) (run : CellRun) :
    Except String Record :=
  let expected := settings.published cell
  let repro (outcome : Outcome) : String :=
    if outcome.quiet then "" else reproOf settings cell
  match run.escaped with
  | some e => .error e
  | none =>
      match run.caught with
      | some (findings, e) =>
          let outcome := if run.interrupted then .notRun else .error
          .ok
            { cell := cell
              expected := expected
              outcome := outcome
              findings := findings
              detail := "validator error: " ++ e
              repro := repro outcome }
      | none =>
          if ¬ run.tapeOk ∧ ¬ (run.generator = some 0 ∧ run.generatedOk) then
            -- The early return leaves the record without `repro`.
            .ok
              { cell := cell
                expected := expected
                outcome := generationOutcome run
                findings := .none
                detail := generationDetail run
                repro := "" }
          else
            let outcome := decideOutcome settings.requireValid cell expected run
            .ok
              { cell := cell
                expected := expected
                outcome := outcome
                findings := run.findings
                detail := if outcome.quiet then "" else harnessDetail run
                repro := repro outcome }

/-- The record that `work` makes of a cell. -/
def recordOf (settings : Settings) (cell : Cell) (run : CellRun) : Record :=
  match runCell settings cell run with
  | .ok r => r
  | .error e =>
      { cell := cell
        expected := settings.published cell
        outcome := .error
        findings := .none
        detail := "validator error: " ++ e
        repro := "" }

/-! ## The pool -/

/-- A future and, once it has finished, what `work` returned. -/
inductive Future where
  | queued
  /-- Taken from the queue, before `work` looks at `STOP`. -/
  | claimed
  | running
  | cancelled
  | finished (result : Option Record)

/-- Whether a worker holds the future. -/
def Future.active : Future → Bool
  | .claimed | .running => true
  | _ => false

/-- Whether `wait` counts the future as done. -/
def Future.settled : Future → Bool
  | .cancelled | .finished _ => true
  | _ => false

/-- `cancel`: only what is still queued can be cancelled. -/
def Future.cancel : Future → Future
  | .queued => .cancelled
  | future => future

/-- Where the main thread is. -/
inductive Main where
  /-- In the loop around `concurrent.futures.wait`. -/
  | waiting
  /-- A signal was caught, in the loop or in `shutdown`; no flag is set yet. -/
  | caught (inShutdown : Bool)
  /-- `INTERRUPTED` is set, `STOP` is not. -/
  | flagged (inShutdown : Bool)
  /-- In the loop that cancels the futures, before one of them. -/
  | cancelling (next : Nat)
  /-- In `shutdown(wait=True)`. -/
  | joining
  | done
deriving DecidableEq, Repr

/-- The shared state and the main thread's own. -/
structure Pool where
  futures : List Future
  records : List Record
  counts : Outcome → Nat
  /-- `STOP`. -/
  stop : Bool
  /-- `INTERRUPTED`. -/
  interruptedFlag : Bool
  main : Main
  /-- `interrupted`. -/
  interrupted : Bool

/-- All cells submitted, the main thread about to wait. -/
def initial (settings : Settings) : Pool where
  futures := settings.cells.map fun _ => .queued
  records := []
  counts := fun _ => 0
  stop := false
  interruptedFlag := false
  main := .waiting
  interrupted := false

/-- One step of a worker or of the main thread. -/
inductive Action where
  | claim (k : Nat)
  | enter (k : Nat)
  | finish (k : Nat) (run : CellRun)
  | cancelPending (k : Nat)
  | interrupt
  | setInterrupted
  | setStop
  | poolDone
  | cancelNext
  | joined

/-- The end of `work`, under the lock. -/
def publish (settings : Settings) (s : Pool) (k : Nat) (r : Record) : Pool :=
  if r.outcome = .notRun then
    { s with futures := s.futures.set k (.finished none) }
  else
    { s with
      futures := s.futures.set k (.finished (some r))
      records := s.records ++ [r]
      counts := Function.update s.counts r.outcome (s.counts r.outcome + 1)
      stop := s.stop || (r.outcome ≠ .pass && settings.failFast) }

/-- The steps; a signal is delivered only once, and only to a wait. -/
def step (settings : Settings) (s : Pool) : Action → Option Pool
  | .claim k =>
      match s.futures[k]? with
      | some .queued =>
          if s.futures.countP Future.active < settings.jobs then
            some { s with futures := s.futures.set k .claimed }
          else none
      | _ => none
  | .enter k =>
      match s.futures[k]? with
      | some .claimed =>
          if s.stop then
            some { s with futures := s.futures.set k (.finished none) }
          else some { s with futures := s.futures.set k .running }
      | _ => none
  | .finish k run =>
      match s.futures[k]?, settings.cells[k]? with
      | some .running, some cell =>
          if run.interrupted ∧ ¬ s.interruptedFlag then none
          else some (publish settings s k (recordOf settings cell run))
      | _, _ => none
  | .cancelPending k =>
      -- What is no longer queued stays as it is, which is no step.
      match s.futures[k]? with
      | some .queued =>
          if s.main = .waiting ∧ s.stop then
            some { s with futures := s.futures.set k .cancelled }
          else none
      | _ => none
  | .interrupt =>
      if s.interrupted then none
      else
        match s.main with
        | .waiting => some { s with main := .caught false, interrupted := true }
        | .joining => some { s with main := .caught true, interrupted := true }
        | _ => none
  | .setInterrupted =>
      match s.main with
      | .caught inShutdown =>
          some { s with main := .flagged inShutdown, interruptedFlag := true }
      | _ => none
  | .setStop =>
      match s.main with
      | .flagged inShutdown =>
          some
            { s with
              main := if inShutdown then .joining else .cancelling 0
              stop := true }
      | _ => none
  | .poolDone =>
      if s.main = .waiting ∧ s.futures.all Future.settled then
        some { s with main := .cancelling 0 }
      else none
  | .cancelNext =>
      match s.main with
      | .cancelling next =>
          if next < s.futures.length then
            some
              { s with
                futures := s.futures.modify next Future.cancel
                main := .cancelling (next + 1) }
          else some { s with main := .joining }
      | _ => none
  | .joined =>
      if s.main = .joining ∧ s.futures.all Future.settled then
        some { s with main := .done }
      else none

/-! ## The summary -/

/-- `not_run`. -/
def notRun (settings : Settings) (s : Pool) : List Cell :=
  settings.cells.filter fun cell => cell ∉ s.records.map Record.cell

/-- `ok`. -/
def ok (settings : Settings) (s : Pool) : Bool :=
  s.counts .pass = settings.cells.length && !s.interrupted

/-- The exit status. -/
def exitStatus (settings : Settings) (s : Pool) : Nat :=
  if ok settings s then 0 else 1

/-! ## `write_junit` -/

/-- `SCENARIOS`. -/
def scenarios : List String :=
  ["static", "normal", "swing-25", "swing-40", "flash-crash"]

/-- `xml_safe`. -/
def xmlSafe (text : String) : String :=
  text.map fun char =>
    let code := char.toNat
    if
      code = 9 ∨ code = 10 ∨ code = 13 ∨ (32 ≤ code ∧ code ≤ 0xd7ff) ∨
        (0xe000 ≤ code ∧ code ≤ 0xfffd) ∨ 0x10000 ≤ code
    then char
    else Char.ofNat 0xfffd

/-- What stands inside a test case. -/
inductive Verdict where
  | passed
  | failure (message type text : String)
  | error (message type text : String)
  | skipped (message : String)
deriving DecidableEq, Repr

/-- A `testcase` element. -/
structure TestCase where
  classname : String
  name : String
  verdict : Verdict
deriving DecidableEq, Repr

/-- The `testsuite` element; `testsuites` repeats its totals. -/
structure Suite where
  name : String
  tests : Nat
  failures : Nat
  errors : Nat
  skipped : Nat
  cases : List TestCase
deriving DecidableEq, Repr

/-- Outcomes reported as failures. -/
def Outcome.isFailure (outcome : Outcome) : Bool :=
  outcome = .fail || outcome = .invalid

/-- Outcomes reported as errors. -/
def Outcome.isError (outcome : Outcome) : Bool :=
  outcome = .crash || outcome = .timeout || outcome = .error

/-- The name of an outcome. -/
def Outcome.name : Outcome → String
  | .pass => "PASS"
  | .fail => "FAIL"
  | .crash => "CRASH"
  | .timeout => "TIMEOUT"
  | .error => "ERROR"
  | .invalid => "INVALID"
  | .notRun => "NOT_RUN"

/-- `str` of a return code. -/
def strCode : Option Int → String
  | none => "None"
  | some rc => toString rc

/-- The message of a record that is not a pass. -/
def junitMessage (str : Json → String) (r : Record) : String :=
  match r.outcome with
  | .fail =>
      "report-stream hash " ++ str r.findings.computed ++ " != published " ++
        r.expected
  | .invalid =>
      "hash matches, but the harness verdict is " ++ str r.findings.verdict ++
        " (exit " ++ strCode r.findings.returncode ++ ", probe share " ++
        str r.findings.probeShare ++ ")"
  | .crash => "the engine crashed (fatal signal)"
  | .timeout => "the cell exceeded the time limit"
  | _ =>
      "no usable result (exit " ++ strCode r.findings.returncode ++ ")"

/-- `(seed, SCENARIOS.index(scenario))` in order. -/
def inOrder (a b : Cell) : Bool :=
  a.seed < b.seed ||
    (a.seed = b.seed &&
      scenarios.idxOf a.scenario ≤ scenarios.idxOf b.scenario)

/-- The test case of a record. -/
def recordCase (str : Json → String) (r : Record) : TestCase :=
  let message := xmlSafe (junitMessage str r)
  let text := xmlSafe (strip (r.detail ++ "\nreproduce: " ++ r.repro))
  { classname := r.cell.scenario
    name := "seed " ++ toString r.cell.seed
    verdict :=
      if r.outcome = .pass then .passed
      else if r.outcome.isFailure then .failure message r.outcome.name text
      else .error message r.outcome.name text }

/-- The test case of a cell that was not run. -/
def skippedCase (cell : Cell) : TestCase where
  classname := cell.scenario
  name := "seed " ++ toString cell.seed
  verdict := .skipped "not run (--fail-fast, or the run was stopped)"

/-- `write_junit`. -/
def writeJunit
    (str : Json → String) (label : String) (records : List Record)
    (notRun : List Cell) : Suite where
  name := xmlSafe ("validate_seeds:" ++ label)
  tests := records.length + notRun.length
  failures := records.countP fun r => r.outcome.isFailure
  errors := records.countP fun r => r.outcome.isError
  skipped := notRun.length
  cases :=
    (records.mergeSort fun a b => inOrder a.cell b.cell).map
        (recordCase str) ++
      (notRun.mergeSort inOrder).map skippedCase

end MatchingBench.Scripts.ValidateSeeds
