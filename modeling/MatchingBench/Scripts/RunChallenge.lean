import MatchingBench.Harness.ResultFile
import MatchingBench.Lib.KeyedSort
import MatchingBench.Lib.Maps
import MatchingBench.Lib.PythonText
import Mathlib.Data.List.MinMax

/-!
# The challenge

`scripts/run_challenge.py`: the perf runs and the audit run of an engine on a
scenario, the verdict on them, the worst case over the scenarios and the
ranking of several engines.  What the starts of the harness give is an input;
throughputs are values of a linear order.
-/

set_option autoImplicit false

namespace MatchingBench.Scripts.RunChallenge

open MatchingBench.Lib.DecimalText (joined)
open MatchingBench.Lib.Json
open MatchingBench.Lib.KeyedSort
open MatchingBench.Lib.Maps
open MatchingBench.Lib.PythonText (isWhite universalNewlines)
open MatchingBench.Lib.TextScan (lines)
open MatchingBench.Harness.Audit
open MatchingBench.Harness.CommandLine
open MatchingBench.Harness.ReferenceHash

/-- The names in `SCENARIOS`. -/
def scenarioNames : List (List Char) :=
  ["static".toList, "normal".toList, "swing-25".toList, "swing-40".toList,
    "flash-crash".toList]

/-- The harness accepts the name of every scenario. -/
theorem accepted_of_mem :
    ∀ name ∈ scenarioNames, name ≠ [] ∧ name.all scenarioChar = true := by
  decide

/-- `SCENARIOS`. -/
def SCENARIOS : List Scenario :=
  scenarioNames.attach.map fun name => ⟨name.1, accepted_of_mem _ name.2⟩

/-- `engine_label`. -/
def engineLabel (spec : List Char) : List Char :=
  ["_adapter.so".toList, ".so".toList, "_adapter".toList].foldl
    (fun base suf => erased suf base) (lastPart spec)

/-- `is_path`. -/
def isPath (spec : List Char) : Bool :=
  ".so".toList.isSuffixOf spec || spec.contains '/'

/-- The arguments of the script that a run of the harness is given. -/
structure Numbers where
  seed : Option Int
  count : Option Int
  matcherCore : Option Int
  drainerCore : Option Int

/-! ## `run_harness` -/

/-- The arguments of the harness. -/
def command (spec : List Char) (scenario : Scenario) (mode : Mode)
    (args : Numbers) : List (List Char) :=
  ["--scenario".toList, scenario.name, "--mode".toList, modeName mode] ++
    (if isPath spec then ["--engine".toList, spec]
      else ["--baseline".toList, spec]) ++
    numberFlag "--seed".toList args.seed ++
    numberFlag "--count".toList args.count ++
    numberFlag "--matcher-core".toList args.matcherCore ++
    numberFlag "--drainer-core".toList args.drainerCore

/-- What they ask for. -/
def asked (spec : List Char) (scenario : Scenario) (mode : Mode)
    (args : Numbers) : Accepted where
  args :=
    { engineName := String.ofList
        (erased "_adapter".toList (erased ".so".toList (lastPart spec)))
      scenario := scenario
      seed := (args.seed.map asUInt64).getD 23
      count := (args.count.map asUInt64).getD 1000000
      mode := mode
      writeReference := false
      canonicalOutput := false
      exclusive := Harness.Verdict.not_writing }
  enginePath :=
    if isPath spec then spec
    else "./".toList ++ spec ++ "_adapter.so".toList
  canonicalOutputPath := []
  matcherCore := (args.matcherCore.map asInt32).getD 2
  drainerCore := (args.drainerCore.map asInt32).getD 3

/-- The locals of the harness behind its loop over them. -/
def understood (spec : List Char) (scenario : Scenario) (mode : Mode)
    (args : Numbers) : Options where
  engineArg := if isPath spec then spec else []
  baseline := if isPath spec then [] else spec
  scenario := scenario.name
  canonicalOutputPath := []
  seed := (args.seed.map asUInt64).getD 23
  count := (args.count.map asUInt64).getD 1000000
  matcherCore := (args.matcherCore.map asInt32).getD 2
  drainerCore := (args.drainerCore.map asInt32).getD 3
  writeReference := false
  canonicalOutputRequested := false
  mode := mode

theorem parse_command (spec : List Char) (scenario : Scenario) (mode : Mode)
    (args : Numbers) :
    parse .initial (command spec scenario mode args) =
      .ok (understood spec scenario mode args) := by
  have last (o : Options) :
      parse o (numberFlag "--drainer-core".toList args.drainerCore) =
        .ok { o with drainerCore :=
                (args.drainerCore.map asInt32).getD o.drainerCore } := by
    have read := parse_drainerCore o args.drainerCore []
    rw [List.append_nil] at read
    rw [read, parse]
  unfold command understood
  simp only [List.append_assoc, List.cons_append, List.nil_append,
    parse_scenario, parse_mode]
  cases isPath spec with
  | true =>
      rw [if_pos rfl, if_pos rfl, if_pos rfl, List.cons_append,
        List.cons_append, List.nil_append, parse_engine, parse_seed,
        parse_count, parse_matcherCore, last]
      rfl
  | false =>
      rw [if_neg Bool.false_ne_true, if_neg Bool.false_ne_true,
        if_neg Bool.false_ne_true, List.cons_append, List.cons_append,
        List.nil_append, parse_baseline, parse_seed, parse_count,
        parse_matcherCore, last]
      rfl

theorem refusal_understood
    {spec : List Char} (named : spec ≠ []) (weaklyCanonical : FileSystem)
    (argv0 : List Char) (scenario : Scenario) (mode : Mode)
    (args : Numbers) :
    refusal weaklyCanonical argv0 (understood spec scenario mode args) =
      none := by
  rw [refusal_eq_none]
  refine ⟨?_, fun asks => Bool.false_ne_true asks.1,
    fun writes => Bool.false_ne_true writes.1, fun exports => exports.1 rfl,
    fun writes => Bool.false_ne_true writes.1⟩
  rintro ⟨engine, baseline⟩
  rw [understood] at engine baseline
  dsimp only at engine baseline
  split at engine
  · exact named engine
  · rename_i builtin
    rw [if_neg builtin] at baseline
    exact named baseline

/--
The harness understands the arguments of the script as what they ask for: the
engine by its path or as a baseline, the scenario and the mode, every number
that is given in the width the harness keeps it in, and its own default for
every number that is not.  A seed or a count that fits is kept as it is.
-/
theorem command_understood
    (weaklyCanonical : FileSystem) (argv0 : List Char) {spec : List Char}
    (named : spec ≠ []) (scenario : Scenario) (mode : Mode)
    (args : Numbers) :
    start weaklyCanonical argv0 (command spec scenario mode args) =
        .runs (asked spec scenario mode args) ∧
      (∀ seed < 2 ^ 64, args.seed = some (Int.ofNat seed) →
        (asked spec scenario mode args).args.seed.toNat = seed) ∧
      ∀ count < 2 ^ 64, args.count = some (Int.ofNat count) →
        (asked spec scenario mode args).args.count.toNat = count := by
  refine ⟨?_, fun seed fits given => ?_, fun count fits given => ?_⟩
  · have passes := refusal_understood named weaklyCanonical argv0 scenario
      mode args
    unfold start
    rw [parse_command]
    dsimp only
    split
    · rename_i message refused
      rw [passes] at refused
      cases refused
    · have allowed : (understood spec scenario mode args).scenario ≠ [] ∧
          (understood spec scenario mode args).scenario.all scenarioChar =
            true :=
        scenario.accepted
      rw [dif_pos allowed]
      have path : enginePath (understood spec scenario mode args) =
          (asked spec scenario mode args).enginePath := by
        unfold enginePath understood asked
        cases isPath spec with
        | true => exact if_pos named
        | false => rfl
      have name : engineName (understood spec scenario mode args) =
          erased "_adapter".toList (erased ".so".toList (lastPart spec)) := by
        unfold engineName understood
        cases isPath spec with
        | true => rfl
        | false => rw [if_pos]; rfl; exact named
      rw [path, name]
      rfl
  · rw [asked, given]
    exact asUInt64_of_fits fits
  · rw [asked, given]
    exact asUInt64_of_fits fits

/-- The reference audit of a baseline under another seed. -/
theorem command_understood_liquibook :
    start (fun _ => none) "./harness".toList
        (command "liquibook".toList
          ⟨"normal".toList, Harness.Verdict.normal_accepted⟩ .audit
          ⟨some 7, none, none, some 5⟩) =
      .runs (asked "liquibook".toList
        ⟨"normal".toList, Harness.Verdict.normal_accepted⟩ .audit
        ⟨some 7, none, none, some 5⟩) :=
  (command_understood _ _ (by decide) _ _ _).1

/-- What a path leads to when it is read. -/
inductive FileState where
  | missing
  /-- Opening or reading it raises an `OSError`. -/
  | unreadable
  /-- Its bytes are no text. -/
  | undecodable
  | text (content : List Char)

/-- One start of the harness. -/
inductive Attempt where
  | timeout
  /-- What it printed is no text, on which `text=True` raises. -/
  | undecodable
  | exited (returncode : Int) (stdout : List Char)

/-- What a start of the harness gives, and the files that it finds then. -/
structure Invocation where
  attempt : Attempt
  files : List Char → FileState

/-- The dictionary that stands for a run. -/
structure Trial where
  returncode : Int
  members : List (List Char × Value)

/-- The dictionary of a run without a result. -/
def errorTrial (spec : List Char) (scenario : Scenario) (mode : Mode)
    (returncode : Int) : Trial where
  returncode := returncode
  members :=
    [("engine".toList, .string (engineLabel spec)),
      ("scenario".toList, .string scenario.name),
      ("mode".toList, .string (modeName mode)),
      ("verdict".toList, .string "ERROR".toList)]

/-- A character that `splitlines` cuts at, line feeds apart. -/
def lineBreak (char : Char) : Bool :=
  [11, 12, 13, 28, 29, 30, 0x85, 0x2028, 0x2029].contains char.toNat

/-- `splitlines` of a text without carriage returns. -/
def splitlines (text : List Char) : List (List Char) :=
  lines (text.map fun char => if lineBreak char then '\n' else char)

/-- `result_path` after the loop over the lines. -/
def resultPath (stdout : List Char) : Option (List Char) :=
  (splitlines (universalNewlines stdout)).foldl
    (fun found line =>
      match line.dropPrefix? "Result file:".toList with
      | some path => some ((path.dropWhile isWhite).rdropWhile isWhite)
      | none => found)
    none

/-- `run_harness`; nothing is returned where an exception is not caught. -/
def runHarness (spec : List Char) (scenario : Scenario) (mode : Mode)
    (invocation : Invocation) : Option Trial :=
  match invocation.attempt with
  | .timeout => some (errorTrial spec scenario mode (-1))
  | .undecodable => none
  | .exited returncode stdout =>
      let failed := some (errorTrial spec scenario mode returncode)
      match resultPath stdout with
      | none | some [] => failed
      | some path =>
          match invocation.files path with
          | .missing | .unreadable => failed
          | .undecodable => none
          | .text content =>
              match loads content with
              | none => failed
              | some (.object members) =>
                  some { returncode := returncode, members := members }
              | some _ => none

/-! ## `challenge` -/

/-- `j.get(key, {})`, where it is a dictionary. -/
def Trial.section (j : Trial) (key : List Char) :
    Option (List (List Char × Value)) :=
  match get j.members key with
  | none => some []
  | some (.object members) => some members
  | some _ => none

/-- `.get(key, "?")`, where it is a string. -/
def textOf (members : List (List Char × Value)) (key : List Char) :
    Option (List Char) :=
  match get members key with
  | none => some ['?']
  | some (.string text) => some text
  | some _ => none

/-- `j.get("verdict")` is the text. -/
def Trial.hasVerdict (j : Trial) (text : List Char) : Bool :=
  match get j.members "verdict".toList with
  | some (.string verdict) => verdict = text
  | _ => false

/-- `j.get("verdict") == "VALID" and j.get("_returncode", 0) == 0`. -/
def Trial.ok (j : Trial) : Bool :=
  j.hasVerdict "VALID".toList && j.returncode = 0

/-- The reported hash. -/
def Trial.hash (j : Trial) : Option (List Char) :=
  (j.section "correctness".toList).bind (textOf · "computed_hash".toList)

/-- The reported status. -/
def Trial.status (j : Trial) : Option (List Char) :=
  (j.section "correctness".toList).bind (textOf · "status".toList)

/-- A value is `True`. -/
def isTrue (value : Option Value) : Bool :=
  match value with
  | some (.bool value) => value
  | _ => false

/-- What is done with throughputs. -/
structure Arithmetic (ρ : Type) where
  /-- A number as it is written, divided by a million. -/
  millions : List Char → ρ
  /-- The mean of two values. -/
  mean : ρ → ρ → ρ
  pstdev : List ρ → ρ
  zero : ρ

section Cells

variable {ρ : Type} [LinearOrder ρ] (arithmetic : Arithmetic ρ)

/-- `statistics.median`. -/
def median (values : List ρ) : Option ρ :=
  let sorted := values.insertionSort (· ≤ ·)
  let i := sorted.length / 2
  if sorted.length % 2 = 1 then sorted[i]?
  else
    match sorted[i - 1]?, sorted[i]? with
    | some low, some high => some (arithmetic.mean low high)
    | _, _ => none

/-- Whether a trial counts for the throughput. -/
def Trial.measured (j : Trial) : Bool :=
  (j.hasVerdict "VALID".toList || j.hasVerdict "INVALID".toList) &&
    (get j.members "throughput_msgs_per_s".toList).isSome

/-- Its throughput, where it is a number. -/
def Trial.throughput (j : Trial) : Option ρ :=
  match get j.members "throughput_msgs_per_s".toList with
  | some (.number text) => some (arithmetic.millions text)
  | _ => none

/-- The summary of an engine on a scenario. -/
structure Cell (ρ : Type) where
  engine : List Char
  scenario : Scenario
  median : Option ρ
  stdev : ρ
  nPerf : Nat
  trades : Value
  correct : List Char
  audit : List Char
  /-- The verdict is `VALID`. -/
  valid : Bool

/-- `audit_status`. -/
def auditStatus (audit : Trial) (a : List (List Char × Value)) : List Char :=
  if isTrue (get a "passed".toList) then "PASS".toList
  else if isTrue (get a "ran".toList) then "FAIL".toList
  else if audit.hasVerdict "ERROR".toList then "ERROR".toList
  else "SKIPPED".toList

/-- The column of the correctness check. -/
def correctColumn (consistent : Bool) (statuses : List (List Char)) :
    List Char :=
  if consistent = false then "INCONSISTENT".toList
  else if "FAIL".toList ∈ statuses then "FAIL".toList
  else if statuses = ["PASS".toList] then "PASS".toList
  else if statuses = ["NO REFERENCE".toList] then "NO REF".toList
  else joined '/' (stableSort (fun a b => decide (a < b)) statuses)

/-- The trades that the first run reported. -/
def tradesOf : List Trial → Option Value
  | [] => some (.string ['?'])
  | first :: _ =>
      (first.section "reports".toList).map fun reports =>
        (get reports "trade".toList).getD (.string ['?'])

/-- The summary of runs: `challenge` behind the loop. -/
def summary (spec : List Char) (scenario : Scenario) (perf : List Trial)
    (audit : Trial) : Option (Cell ρ) := do
  let tputs ← (perf.filter Trial.measured).mapM
    (Trial.throughput arithmetic)
  let hashes ← (perf ++ [audit]).mapM Trial.hash
  let consistent := hashes.dedup.length = 1
  let perfOk := perf.all Trial.ok
  let a ← audit.section "audit".toList
  let statuses ← perf.mapM Trial.status
  let trades ← tradesOf perf
  some
    { engine := engineLabel spec
      scenario := scenario
      median := if tputs = [] then none else median arithmetic tputs
      stdev :=
        if 1 < tputs.length then arithmetic.pstdev tputs else arithmetic.zero
      nPerf := tputs.length
      trades := trades
      correct := correctColumn consistent statuses.dedup
      audit := auditStatus audit a
      valid := perfOk && audit.ok && consistent }

/-- The starts of the harness for an engine and a scenario. -/
structure Runs where
  perf : Nat → Invocation
  audit : Invocation

/-- `challenge`, with the number of perf runs. -/
def challenge (spec : List Char) (scenario : Scenario) (perfRuns : Nat)
    (runs : Runs) : Option (Cell ρ) := do
  let perf ← (List.range perfRuns).mapM fun i =>
    runHarness spec scenario .perf (runs.perf i)
  let audit ← runHarness spec scenario .audit runs.audit
  summary arithmetic spec scenario perf audit

/-! ## The worst case -/

/-- Why the weakest scenario is the weakest. -/
inductive Kind where
  | measured
  | crash
  | invalid
deriving DecidableEq

/-- The result of `worst_case`. -/
structure Worst (ρ : Type) where
  worst : ρ
  weakest : Scenario
  invalid : List Scenario
  kind : Kind

/-- `worst_case`, on the cells of an engine by scenario. -/
def worstCase (cells : List (Scenario × Cell ρ)) : Option (Worst ρ) :=
  let invalid := (cells.filter fun c => !c.2.valid).map Prod.fst
  let crashed := (cells.filter fun c => c.2.median.isNone).map Prod.fst
  match cells, crashed, invalid with
  | [], _, _ => none
  | _, weakest :: _, _ =>
      some
        { worst := arithmetic.zero, weakest := weakest, invalid := invalid
          kind := .crash }
  | _, [], weakest :: _ =>
      some
        { worst := arithmetic.zero, weakest := weakest, invalid := invalid
          kind := .invalid }
  | _, [], [] =>
      ((cells.filterMap fun c => c.2.median.map fun m => (c.1, m)).argmin
        Prod.snd).map fun (weakest, worst) =>
          { worst := worst, weakest := weakest, invalid := invalid
            kind := .measured }

/-! ## `main` -/

/-- The check of the labels: the message for the first that comes again. -/
def collision :
    List (List Char × List Char) → List (List Char) → Option (List Char)
  | _, [] => none
  | seen, e :: engines =>
      let lbl := engineLabel e
      match seen.lookup lbl with
      | some first =>
          some ("error: --compare arguments '".toList ++ first ++
            "' and '".toList ++ e ++ "' both reduce to the label '".toList ++
            lbl ++ ("'; their results would collide — rename one or run " ++
            "them separately.").toList)
      | none => collision ((lbl, e) :: seen) engines

/-- The cells by label and scenario. -/
abbrev Grid (ρ : Type) : Type :=
  HashMap (List Char × List Char) (Cell ρ)

/-- The loops over the engines and the scenarios. -/
def fillGrid (perfRuns : Nat) (runs : List Char → Scenario → Runs) :
    List (List Char × Scenario) → Grid ρ → Option (Grid ρ)
  | [], grid => some grid
  | (e, s) :: pairs, grid => do
      let cell ← challenge arithmetic e s perfRuns (runs e s)
      fillGrid perfRuns runs pairs (grid.set (engineLabel e, s.name) cell)

/-- The engines with the scenarios, in the order of the loops. -/
def pairs (engines : List (List Char)) (scenarios : List Scenario) :
    List (List Char × Scenario) :=
  engines.flatMap fun e => scenarios.map fun s => (e, s)

/-- The cells of an engine, in the order of the scenarios. -/
def cellsOf (grid : Grid ρ) (lbl : List Char) (scenarios : List Scenario) :
    Option (List (Scenario × Cell ρ)) :=
  scenarios.mapM fun s =>
    (grid.get (lbl, s.name)).map fun cell => (s, cell)

/-- The key that the ranking is sorted by. -/
def rankKey (row : List Char × Option (Worst ρ)) : WithBot ρ :=
  match row.2 with
  | some wc => (wc.worst : WithBot ρ)
  | none => ⊥

/-- The worst-case ranking: the labels with their worst cases. -/
def ranked (grid : Grid ρ) (engines : List (List Char))
    (scenarios : List Scenario) :
    Option (List (List Char × Option (Worst ρ))) := do
  let rows ← engines.mapM fun e =>
    (cellsOf grid (engineLabel e) scenarios).map fun cells =>
      (engineLabel e, worstCase arithmetic cells)
  some (stableSort (fun a b => decide (rankKey b < rankKey a)) rows)

/-- What `main` is asked for. -/
structure Request where
  engines : List (List Char)
  scenario : Option Scenario
  allScenarios : Bool
  perfRuns : Int
  /-- `choices`. -/
  choice : ∀ s ∈ scenario, s ∈ SCENARIOS

/-- The scenarios that are run. -/
def Request.scenarios (request : Request) : List Scenario :=
  match request.scenario with
  | some scenario =>
      if request.allScenarios then SCENARIOS else [scenario]
  | none => SCENARIOS

/-- The ranking that `main` prints: of several engines, over all scenarios. -/
def Request.ranking (request : Request) (grid : Grid ρ) :
    Option (List (List Char × Option (Worst ρ))) :=
  if 1 < request.engines.length ∧ 1 < request.scenarios.length then
    ranked arithmetic grid request.engines request.scenarios
  else none

/-- The grid of `main`, where it gets that far. -/
def Request.grid (request : Request)
    (runs : List Char → Scenario → Runs) : Option (Grid ρ) :=
  fillGrid arithmetic request.perfRuns.toNat runs
    (pairs request.engines request.scenarios) ∅

/-- The exit status of `main`. -/
def exitStatus (request : Request) (harnessBuilt : Bool)
    (runs : List Char → Scenario → Runs) : Nat :=
  if request.perfRuns < 1 then 2
  else if harnessBuilt = false then 1
  else if (collision [] request.engines).isSome then 1
  else
    match request.grid arithmetic runs with
    | none => 1
    | some grid =>
        if grid.entries.all fun entry => entry.2.valid then 0 else 1

end Cells

end MatchingBench.Scripts.RunChallenge
