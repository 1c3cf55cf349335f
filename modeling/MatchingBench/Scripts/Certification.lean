import MatchingBench.AdditionalReferences
import MatchingBench.Harness.Printed
import MatchingBench.Harness.WorkloadCache
import MatchingBench.Scripts.EdgeCases

/-!
# What the conformance suite certifies

The suite from end to end: it writes its cases as workload files, the harness
loads and runs them, and the suite reads its verdict off what the harness
prints.
-/

set_option autoImplicit false

namespace MatchingBench.Scripts.Certification

open MatchingBench.AdditionalReferences
open MatchingBench.Adapters
open MatchingBench.Api
open MatchingBench.Baselines
open MatchingBench.Baselines.Validation
open MatchingBench.Correctness
open MatchingBench.Lib.Ladders
open MatchingBench.Oracles
open MatchingBench.Lib.TextScan
open MatchingBench.Reference
open MatchingBench.Canonical.Sha256
open MatchingBench.Harness.Audit
open MatchingBench.Harness.Contract
open MatchingBench.Harness.Drainer
open MatchingBench.Harness.Marshalling
open MatchingBench.Harness.Printed
open MatchingBench.Harness.ReferenceHash
open MatchingBench.Harness.Verdict hiding stateAudit
open MatchingBench.Harness.WorkloadCache
open MatchingBench.Scripts.ConformanceCheck hiding edgeCases
open MatchingBench.Scripts.EdgeCases
open MatchingBench.Workload.File (CaseMsg writeBin)
open MatchingBench.Workload.Generator (Numerics Uniform)

/-! ## Reading what is printed -/

theorem computedHash_line (text rest : List Char) :
    computedHash (text ++ '\n' :: rest) = computedHash text := by
  rw [computedHash, computedHash, dropPrefix?_line (by decide)]
  cases text.dropPrefix? "Computed hash: ".toList with
  | none => rfl
  | some behind =>
      rw [Option.map_some, Option.bind_some, Option.bind_some,
        takeWhile_line (by decide)]

theorem stateAudit_line (text rest : List Char) :
    stateAudit (text ++ '\n' :: rest) = stateAudit text := by
  rw [stateAudit, stateAudit, dropPrefix?_line (by decide)]
  cases text.dropPrefix? "State audit: ".toList with
  | none => rfl
  | some behind =>
      rw [Option.map_some, Option.bind_some, Option.bind_some,
        isPrefixOf_line (by decide), isPrefixOf_line (by decide),
        isPrefixOf_line (by decide)]

theorem computedHash_ne
    {char : Char} (other : char ≠ 'C') (text : List Char) :
    computedHash (char :: text) = none := by
  have dropped := dropPrefix?_ne other "omputed hash: ".toList text
  rw [computedHash, show "Computed hash: ".toList =
    'C' :: "omputed hash: ".toList from rfl, dropped]
  rfl

theorem stateAudit_ne
    {char : Char} (other : char ≠ 'S') (text : List Char) :
    stateAudit (char :: text) = none := by
  have dropped := dropPrefix?_ne other "tate audit: ".toList text
  rw [stateAudit, show "State audit: ".toList =
    'S' :: "tate audit: ".toList from rfl, dropped]
  rfl

/-- A line without a capital C shows no computed hash. -/
theorem search_computedHash_none
    {line : List Char} (absent : 'C' ∉ line) :
    search computedHash line = none := by
  refine search_eq_none (fun text other => ?_) absent
  cases text with
  | nil => rfl
  | cons char text =>
      exact computedHash_ne (fun same => other (congrArg some same)) text

/-- A line without a capital S shows no state audit. -/
theorem search_stateAudit_none
    {line : List Char} (absent : 'S' ∉ line) :
    search stateAudit line = none := by
  refine search_eq_none (fun text other => ?_) absent
  cases text with
  | nil => rfl
  | cons char text =>
      exact stateAudit_ne (fun same => other (congrArg some same)) text

theorem search_computedHash_some
    {computed : List Char} (hash : isHash computed = true) :
    search computedHash ("  Computed hash: ".toList ++ computed) =
      some computed := by
  rw [isHash, Bool.and_eq_true, decide_eq_true_eq] at hash
  have hex : computed.takeWhile ConformanceCheck.hexChar = computed :=
    List.takeWhile_eq_self_iff.mpr (List.all_eq_true.mp hash.2)
  have nonempty : computed ≠ [] := by
    rintro rfl
    cases hash.1
  have here :
      computedHash ("Computed hash: ".toList ++ computed) =
        some computed := by
    rw [computedHash, List.dropPrefix?_append_of_beq _ (beq_self_eq_true _),
      Option.bind_some, hex]
    exact if_neg nonempty
  change search computedHash
    (' ' :: ' ' :: ("Computed hash: ".toList ++ computed)) = _
  rw [search_skip (computedHash_ne (by decide) _),
    search_skip (computedHash_ne (by decide) _), search_some here]

/-- What follows the label decides. -/
theorem search_stateAudit_label (rest : List Char) :
    search stateAudit ("  State audit: ".toList ++ rest) =
      (stateAudit ("State audit: ".toList ++ rest)).or
        (search stateAudit ("tate audit: ".toList ++ rest)) := by
  change search stateAudit
    (' ' :: ' ' :: 'S' :: ("tate audit: ".toList ++ rest)) = _
  rw [search_skip (stateAudit_ne (by decide) _),
    search_skip (stateAudit_ne (by decide) _), search]
  change _ = (stateAudit ('S' :: ("tate audit: ".toList ++ rest))).or _
  cases stateAudit ('S' :: ("tate audit: ".toList ++ rest)) <;> rfl

/-- The word behind the label is the verdict. -/
theorem search_stateAudit_word
    {word tail : List Char} {verdict : Option Bool}
    (read : ∀ rest,
      (if "PASS".toList.isPrefixOf (word ++ rest) then some (some true)
        else if "FAIL".toList.isPrefixOf (word ++ rest) then some (some false)
        else if "SKIPPED".toList.isPrefixOf (word ++ rest) then some none
        else none) = some verdict) :
    search stateAudit ("  State audit: ".toList ++ (word ++ tail)) =
      some verdict := by
  rw [search_stateAudit_label, stateAudit,
    List.dropPrefix?_append_of_beq _ (beq_self_eq_true _), Option.bind_some,
    read, Option.some_or]

/-- What the line of the state audit says. -/
theorem search_stateAudit_auditLine (args : Args) (audit : AuditReport) :
    search stateAudit (auditLine args audit) =
      some (if audit.ran then some audit.passed else none) := by
  have skipped : "  State audit: SKIPPED — ".toList =
      "  State audit: ".toList ++ ("SKIPPED".toList ++ " — ".toList) := by
    decide +kernel
  have passed : "  State audit: PASS — ".toList =
      "  State audit: ".toList ++ ("PASS".toList ++ " — ".toList) := by
    decide +kernel
  have failed : "  State audit: FAIL — ".toList =
      "  State audit: ".toList ++ ("FAIL".toList ++ " — ".toList) := by
    decide +kernel
  unfold auditLine
  rw [skipped, passed, failed]
  simp only [List.append_assoc]
  cases audit.ran with
  | false =>
      rw [if_pos rfl]
      exact search_stateAudit_word fun rest => rfl
  | true =>
      rw [if_neg (by decide)]
      cases audit.passed with
      | true =>
          rw [if_pos rfl]
          exact search_stateAudit_word fun rest => rfl
      | false =>
          rw [if_neg (by decide)]
          exact search_stateAudit_word fun rest => rfl

/-- A line that the suite does not react to. -/
structure Silent (line : List Char) : Prop where
  hash : search computedHash line = none
  audit : search stateAudit line = none

theorem findSome?_before
    {α : Type} {matchHere : List Char → Option α} {before : List (List Char)}
    (silent : ∀ line ∈ before, search matchHere line = none)
    (rest : List (List Char)) :
    (before ++ rest).findSome? (search matchHere) =
      rest.findSome? (search matchHere) := by
  rw [List.findSome?_append, List.findSome?_eq_none_iff.mpr silent,
    Option.none_or]

section Stdout

variable {args : Args} {preRead : Option (List Char)} {computed : List Char}
  {outcome : Outcome} {around : Surroundings}
  (silent : ∀ line ∈ around.before, Silent line)
  (hash : isHash computed = true)
include silent hash

/-- `run_hash` reads the computed hash. -/
theorem search_computedHash_stdout :
    search computedHash (stdout args preRead computed outcome around) =
      some computed := by
  have expectedLine : ∀ line ∈ ((expected args preRead).map fun hash =>
      "  Expected hash: ".toList ++ hash).toList,
      search computedHash line = none := by
    intro line member
    obtain ⟨hash, published, rfl⟩ :=
      Option.map_eq_some_iff.mp (Option.mem_toList.mp member)
    refine search_computedHash_none ?_
    rw [List.mem_append, not_or]
    exact ⟨by decide, not_mem_of_isHash (isHash_expected published) rfl⟩
  rw [stdout, search_lines computedHash_line rfl]
  simp only [correctnessLines, List.append_assoc]
  rw [findSome?_before fun line member => (silent line member).hash,
    findSome?_before, findSome?_before expectedLine, List.cons_append,
    List.findSome?_cons, search_computedHash_some hash]
  simp only [List.forall_mem_cons]
  exact ⟨rfl, rfl, List.forall_mem_nil _⟩

/-- `run_audit` reads the state audit. -/
theorem search_stateAudit_stdout
    (mode : args.mode = .audit) (unexported : args.canonicalOutput = false) :
    search stateAudit (stdout args preRead computed outcome around) =
      some (if outcome.audit.ran then some outcome.audit.passed else none) := by
  have expectedLine : ∀ line ∈ ((expected args preRead).map fun hash =>
      "  Expected hash: ".toList ++ hash).toList,
      search stateAudit line = none := by
    intro line member
    obtain ⟨hash, published, rfl⟩ :=
      Option.map_eq_some_iff.mp (Option.mem_toList.mp member)
    refine search_stateAudit_none ?_
    rw [List.mem_append, not_or]
    exact ⟨by decide, not_mem_of_isHash (isHash_expected published) rfl⟩
  have computedLine :
      search stateAudit ("  Computed hash: ".toList ++ computed) = none := by
    refine search_stateAudit_none ?_
    rw [List.mem_append, not_or]
    exact ⟨by decide, not_mem_of_isHash hash rfl⟩
  have statusLine :
      search stateAudit ("  Status: ".toList ++ statusText outcome.status) =
        none := by
    cases outcome.status <;> rfl
  rw [stdout, search_lines stateAudit_line rfl]
  simp only [correctnessLines, auditLines, mode, unexported, Bool.false_and,
    Bool.false_eq_true, if_false, List.append_assoc, List.append_nil]
  rw [findSome?_before fun line member => (silent line member).audit,
    findSome?_before, findSome?_before expectedLine, findSome?_before]
  · have title : search stateAudit "Anti-cheat state audit:".toList = none :=
      rfl
    simp only [List.cons_append, List.findSome?_cons, search,
      show stateAudit [] = none from rfl, title,
      search_stateAudit_auditLine]
  · simp only [List.forall_mem_cons]
    exact ⟨computedLine, statusLine, List.forall_mem_nil _⟩
  · simp only [List.forall_mem_cons]
    exact ⟨rfl, rfl, List.forall_mem_nil _⟩

end Stdout

/-! ## Runs of the harness -/

/-- A run of the harness that comes to its verdict. -/
structure HarnessRun
    {σ : Type} (mt19937_64 : UInt64 → Nat → UInt64)
    (baselines : String → BaselineFile) (engine : Engine σ) (args : Args)
    (workload : Workload) where
  machine : Machine
  preRead : Option (List Char)
  reRead : Option (List Char)
  auditIdx : List Nat
  picked : Picked mt19937_64 machine workload.msgs auditIdx
  drain : DrainState
  drained : Drained
    (engine.pushed (engineEnd engine args.mode machine.initNonce
      workload.msgs auditIdx)) drain
  around : Surroundings
  silent : ∀ line ∈ around.before, Silent line

section Run

variable {σ : Type} {mt19937_64 : UInt64 → Nat → UInt64}
  {baselines : String → BaselineFile} {engine : Engine σ} {args : Args}
  {workload : Workload}
  (run : HarnessRun mt19937_64 baselines engine args workload)

/-- What the engine has pushed in a run. -/
def HarnessRun.pushed : List Report :=
  engine.pushed (engineEnd engine args.mode run.machine.initNonce
    workload.msgs run.auditIdx)

def HarnessRun.outcome : Outcome :=
  harnessMain args run.machine run.preRead run.reRead workload.msgs engine
    baselines run.auditIdx run.drain

/-- What the suite sees of a run. -/
def HarnessRun.attempt : Attempt :=
  .exited run.outcome.exitCode
    (stdout args run.preRead
      (computeCanonicalHash sha256HexOf run.drain.collected).1.toList
      run.outcome run.around)

theorem HarnessRun.computed_eq :
    (computeCanonicalHash sha256HexOf run.drain.collected).1.toList =
      (canonicalDigest run.pushed).hex := by
  rw [run.drained.collected]
  exact Harness.Verdict.computed_eq _

theorem HarnessRun.hash_attempt :
    run.attempt.hash =
      some ((canonicalDigest run.pushed).hex.take 16) := by
  rw [attempt, Attempt.hash, run.computed_eq,
    search_computedHash_stdout run.silent (canonicalDigest _).isHash,
    Option.map_some]

theorem HarnessRun.audit_attempt
    (mode : args.mode = .audit) (unexported : args.canonicalOutput = false) :
    run.attempt.audit =
      some (if run.outcome.audit.ran then some run.outcome.audit.passed
        else none) := by
  rw [attempt, Attempt.audit, run.computed_eq,
    search_stateAudit_stdout run.silent (canonicalDigest _).isHash mode
      unexported]

/-- What the audit of a run compares. -/
def HarnessRun.AnswersAlike : Prop :=
  ∀ i m, workload.msgs[i]? = some m →
    engine.answers
        (measuredState engine.toEngineLib run.machine.initNonce
          workload.msgs run.auditIdx i) m =
      referenceAnswers (messagesOf (workload.msgs.take (i + 1))) m

/-- A workload of at most 64 messages is audited at every message. -/
theorem HarnessRun.audit_short
    {τ : Type} {baseline : Engine τ}
    (replayed : Conforms baseline workload.msgs)
    (built : baselines (baseName args.engineName) =
      .loads baseline.toEngineLib)
    (mode : args.mode = .audit) (short : workload.msgs.length ≤ 64) :
    run.outcome.audit.ran = true ∧
      (run.outcome.audit.passed = true ↔ run.AnswersAlike) := by
  obtain ⟨ascending, below, count, nonempty⟩ := run.picked.spec
  obtain ⟨ran, -, passed⟩ := runStateAudit_measuredRun engine.toEngineLib
    baseline.toEngineLib run.machine.initNonce workload.capped nonempty
    ascending below
  have all := auditPickIndices_all ascending below (by omega)
  rw [outcome, harnessMain_audit mode built]
  refine ⟨ran, passed.trans ?_⟩
  constructor
  · intro alike i m found
    have inside := (List.getElem?_eq_some_iff.mp found).1
    rw [alike i (by rw [all]; exact List.mem_range.mpr inside) m found]
    exact replayed.replayed i (List.mem_of_getElem? found)
  · intro alike i _ m found
    rw [alike i m found]
    exact (replayed.replayed i (List.mem_of_getElem? found)).symm

/-- The suite comes to the run, at once or after an attempt that fails. -/
inductive Settles (attempts : Attempts) : Prop where
  | first (here : attempts.first = run.attempt)
  | second (noHash : attempts.first.hash = none)
      (noAudit : attempts.first.audit = none)
      (here : attempts.second = run.attempt)

theorem Settles.runHash_eq
    {run : HarnessRun mt19937_64 baselines engine args workload}
    {attempts : Attempts} (settles : Settles run attempts) :
    runHash attempts = (canonicalDigest run.pushed).hex.take 16 := by
  rw [runHash]
  cases settles with
  | first here => rw [here, run.hash_attempt]
  | second noHash _ here =>
      rw [noHash, here, run.hash_attempt]
      rfl

theorem Settles.runAudit_eq
    {run : HarnessRun mt19937_64 baselines engine args workload}
    {attempts : Attempts} (settles : Settles run attempts)
    (mode : args.mode = .audit) (unexported : args.canonicalOutput = false)
    (ran : run.outcome.audit.ran = true) :
    runAudit attempts = some run.outcome.audit.passed := by
  have read := run.audit_attempt mode unexported
  rw [ran, if_pos rfl] at read
  apply (runAudit_eq_some_iff _ _).mpr
  cases settles with
  | first here => exact Or.inl (by rw [here, read])
  | second _ noAudit here => exact Or.inr ⟨noAudit, by rw [here, read]⟩

end Run

/-! ## The runs of the suite -/

/-- What the suite makes the harness do with an engine. -/
def suiteArgs (engineName : String) (scenario : Scenario) (count : Nat)
    (mode : Mode) : Args where
  engineName := engineName
  scenario := scenario
  seed := 0
  count := UInt64.ofNat count
  mode := mode
  writeReference := false
  canonicalOutput := false
  exclusive := not_writing

/-- `scen_name`, as the harness receives it. -/
def scenChars (case : Case) : List Char :=
  "ec-".toList ++ case.name.toList.map fun char =>
    if char = '_' then '-' else char

theorem scenChars_accepted :
    ∀ case ∈ edgeCases,
      scenChars case ≠ [] ∧ (scenChars case).all scenarioChar = true := by
  decide +kernel

theorem nodup_scenChars : (edgeCases.map scenChars).Nodup := by
  decide +kernel

/-- `--scenario` of a case. -/
def scenario {case : Case} (member : case ∈ edgeCases) : Scenario where
  name := scenChars case
  accepted := scenChars_accepted case member

/-- The file of a case. -/
def casePath (case : Case) : List Char :=
  workloadPath (scenChars case) 0 (UInt64.ofNat case.msgs.length)

/-- The directory after `consensus` has written the cases. -/
def writeCases (dir : Directory) (cases : List Case) : Directory :=
  cases.foldl
    (fun dir case => Function.update dir (casePath case) (writeBin case.msgs))
    dir

theorem writeCases_casePath
    (dir : Directory) {cases : List Case}
    (inBattery : ∀ case ∈ cases, case ∈ edgeCases) {case : Case}
    (member : case ∈ cases) :
    writeCases dir cases (casePath case) = writeBin case.msgs := by
  induction cases using List.reverseRecOn with
  | nil => cases member
  | append_singleton cases last induction =>
      rw [writeCases, List.foldl_append, List.foldl_cons, List.foldl_nil,
        ← writeCases]
      by_cases same : casePath case = casePath last
      · have named := (workloadPath_injective same).1
        have equal := List.inj_on_of_nodup_map nodup_scenChars
          (inBattery case member)
          (inBattery last (List.mem_append_right _ (List.mem_singleton_self _)))
          named
        rw [equal, Function.update_self]
      · rw [Function.update_of_ne same]
        refine induction (fun other inside =>
          inBattery other (List.mem_append_left _ inside)) ?_
        rcases List.mem_append.mp member with before | here
        · exact before
        · exact absurd (congrArg casePath (List.mem_singleton.mp here)) same

/-- The harness loads what the suite has written. -/
theorem obtainWorkload_case
    (num : Numerics) (mt19937 : UInt32 → Nat → Uniform) (dir : Directory)
    {cases : List Case} (inBattery : ∀ case ∈ cases, case ∈ edgeCases)
    {case : Case} (member : case ∈ cases) (file : Workload.File.FileOutcome) :
    obtainWorkload num mt19937 (writeCases dir cases)
        { scenario := scenChars case
          seed := 0
          count := UInt64.ofNat case.msgs.length
          file := file } =
      (writeCases dir cases,
        .loaded (workload case.msgs
          (suitable (inBattery case member))).msgs) := by
  obtain ⟨nonempty, valid⟩ := scenChars_accepted case (inBattery case member)
  have written := writeCases_casePath dir inBattery member
  rw [(suitable (inBattery case member)).written, casePath] at written
  unfold obtainWorkload
  rw [if_neg (by simp [nonempty, valid])]
  dsimp only
  rw [written, if_pos Option.isSome_some, load,
    loadWorkload_case (suitable (inBattery case member))]

/-- The runs of an engine on a case that the suite sees. -/
structure CaseRuns
    {σ : Type} (mt19937_64 : UInt64 → Nat → UInt64)
    (baselines : String → BaselineFile) (engine : Engine σ)
    (engineName : String) (runs : EngineRuns) {case : Case}
    (member : case ∈ edgeCases) where
  hashRun : HarnessRun mt19937_64 baselines engine
    (suiteArgs engineName (scenario member) case.msgs.length .perf)
    (workload case.msgs (suitable member))
  hashes : Settles hashRun
    (runs.hash (scenName case.name) case.msgs.length)
  auditRun : HarnessRun mt19937_64 baselines engine
    (suiteArgs engineName (scenario member) case.msgs.length .audit)
    (workload case.msgs (suitable member))
  audits : Settles auditRun
    (runs.audit (scenName case.name) case.msgs.length)

/-! ## The consensus -/

/-- The hash that the reference's reports on a case have. -/
def referenceHash (case : Case) : List Char :=
  (canonicalDigest (reportsOf (tape case.msgs))).hex.take 16

section Consensus

variable {mt19937_64 : UInt64 → Nat → UInt64}
  {baselines : String → BaselineFile} {cases : List Case}
  (inBattery : ∀ case ∈ cases, case ∈ edgeCases)

/-- An engine conforms on all the cases. -/
def ConformsOn {σ : Type} (engine : Engine σ) : Prop :=
  ∀ case (member : case ∈ cases),
    Conforms engine
      (workload case.msgs (suitable (inBattery case member))).msgs

/-- The harness can audit against an engine that conforms on all the cases. -/
def Audits (baselines : String → BaselineFile) (base : String) : Prop :=
  ∃ (τ : Type) (baseline : Engine τ),
    baselines base = .loads baseline.toEngineLib ∧
      ConformsOn inBattery baseline

/-- The runs of an oracle whose engine conforms on all the cases. -/
def OracleRuns
    (mt19937_64 : UInt64 → Nat → UInt64) (baselines : String → BaselineFile)
    (runs : EngineRuns) : Prop :=
  ∃ (σ : Type) (engine : Engine σ) (engineName : String),
    ConformsOn inBattery engine ∧
      ∀ case (member : case ∈ cases),
        Nonempty (CaseRuns mt19937_64 baselines engine engineName runs
          (inBattery case member))

/-- An entry of the consensus that the reference would have. -/
structure EntryOf (case : Case) (entry : CaseConsensus) : Prop where
  scen : entry.scen = scenName case.name
  count : entry.count = case.msgs.length
  oracle : entry.oracle = some (referenceHash case)
  stateGated : entry.stateGated = decide (case.msgs.length ≤ 64)

theorem isHash16_referenceHash (case : Case) :
    isHash16 (referenceHash case) = true := by
  have valid := (canonicalDigest (reportsOf (tape case.msgs))).isHash
  rw [isHash, Bool.and_eq_true, decide_eq_true_eq, List.all_eq_true] at valid
  rw [isHash16, referenceHash, Bool.and_eq_true, decide_eq_true_eq,
    List.length_take, valid.1, List.all_eq_true]
  exact ⟨rfl, fun char member => valid.2 char (List.mem_of_mem_take member)⟩

variable {inBattery}

/-- What a conforming engine pushes hashes like the reference's reports. -/
theorem hash_of_conforms
    {σ : Type} {engine : Engine σ} {args : Args} {case : Case}
    (member : case ∈ edgeCases)
    (conforms : Conforms engine
      (workload case.msgs (suitable member)).msgs)
    (run : HarnessRun mt19937_64 baselines engine args
      (workload case.msgs (suitable member))) :
    (canonicalDigest run.pushed).hex.take 16 = referenceHash case := by
  obtain ⟨ascending, below, -, -⟩ := run.picked.spec
  have pushed := conforms.engineEnd args.mode run.machine.initNonce ascending
    below
  rw [messagesOf_case] at pushed
  rw [referenceHash]
  exact congrArg (List.take 16) (canonicalDigest_eq_iff.mpr
    (congrArg sha256 (canonicalBytes_eq_iff.mpr pushed.1)))

/-- A conforming engine answers like the reference wherever it is audited. -/
theorem answersAlike_of_conforms
    {σ : Type} {engine : Engine σ} {args : Args} {workload : Workload}
    (conforms : Conforms engine workload.msgs)
    (short : workload.msgs.length ≤ 64)
    (run : HarnessRun mt19937_64 baselines engine args workload) :
    run.AnswersAlike := by
  obtain ⟨ascending, below, count, -⟩ := run.picked.spec
  have all := auditPickIndices_all ascending below (by omega)
  intro i m found
  have inside := (List.getElem?_eq_some_iff.mp found).1
  exact conforms.measured run.machine.initNonce ascending
    (by rw [all]; exact List.mem_range.mpr inside)
    (List.mem_of_getElem? found)

theorem length_workload {msgs : List CaseMsg} (suitable : Suitable msgs) :
    (workload msgs suitable).msgs.length = msgs.length := by
  rw [workload, List.length_mapIdx, List.length_map]

/-- Both baselines of the audit can be loaded. -/
structure BaselinesAudit
    (inBattery : ∀ case ∈ cases, case ∈ edgeCases)
    (baselines : String → BaselineFile) : Prop where
  liquibook : Audits inBattery baselines "liquibook"
  quantcup : Audits inBattery baselines "quantcup"

/-- Whatever the engine, a short case is audited at every message. -/
theorem CaseRuns.runAudit_eq
    {σ : Type} {engine : Engine σ} {engineName : String} {runs : EngineRuns}
    {case : Case} {member : case ∈ cases}
    (caseRuns : CaseRuns mt19937_64 baselines engine engineName runs
      (inBattery case member))
    (audit : BaselinesAudit inBattery baselines)
    (short : case.msgs.length ≤ 64) :
    ∃ passed,
      runAudit (runs.audit (scenName case.name) case.msgs.length) =
          some passed ∧
        (passed = true ↔ caseRuns.auditRun.AnswersAlike) := by
  obtain ⟨τ, baseline, built, replayed⟩ :
      Audits inBattery baselines (baseName engineName) := by
    rw [baseName]
    split
    · exact audit.quantcup
    · exact audit.liquibook
  obtain ⟨ran, passed⟩ := caseRuns.auditRun.audit_short
    (replayed case member) built rfl (by rw [length_workload]; exact short)
  exact ⟨_, caseRuns.audits.runAudit_eq rfl rfl ran, passed⟩

theorem dedup_constant
    {α : Type} [DecidableEq α] {values : List α} {value : α}
    (nonempty : values ≠ []) (all : ∀ other ∈ values, other = value) :
    values.dedup = [value] := by
  rw [List.eq_replicate_of_mem all]
  exact List.replicate_dedup (fun empty => nonempty
    (List.length_eq_zero_iff.mp empty))

section Entries

variable {oracles : List (String × EngineRuns)} (nonempty : oracles ≠ [])
  (conforming : ∀ oracle ∈ oracles,
    OracleRuns inBattery mt19937_64 baselines oracle.2)
  (audit : BaselinesAudit inBattery baselines)
include nonempty conforming audit

/-- Conforming oracles agree on the reference's hash, and on the book. -/
theorem entryOf_consensusCase {case : Case} (member : case ∈ cases) :
    EntryOf case (consensusCase oracles case.edge) := by
  have hashes : (oracles.map fun oracle => runHash
      (oracle.2.hash (scenName case.name) case.msgs.length)).dedup =
        [referenceHash case] := by
    refine dedup_constant (by simpa using nonempty) fun value inside => ?_
    obtain ⟨oracle, listed, rfl⟩ := List.mem_map.mp inside
    obtain ⟨σ, engine, name, conforms, runs⟩ := conforming oracle listed
    obtain ⟨caseRuns⟩ := runs case member
    rw [caseRuns.hashes.runHash_eq]
    exact hash_of_conforms (inBattery case member) (conforms case member)
      caseRuns.hashRun
  have audits (short : case.msgs.length ≤ 64) : ∀ oracle ∈ oracles,
      runAudit (oracle.2.audit (scenName case.name) case.msgs.length) =
        some true := by
    intro oracle listed
    obtain ⟨σ, engine, name, conforms, runs⟩ := conforming oracle listed
    obtain ⟨caseRuns⟩ := runs case member
    obtain ⟨passed, read, alike⟩ := caseRuns.runAudit_eq audit short
    rw [read, alike.mpr (answersAlike_of_conforms (conforms case member)
      (by rw [length_workload]; exact short) caseRuns.auditRun)]
  constructor
  · rfl
  · rfl
  · simp only [consensusCase, Case.edge, List.map_map, Function.comp_def,
      hashes, isHash16_referenceHash, if_true]
  · simp only [consensusCase, Case.edge, ConformanceCheck.auditPoints]
    by_cases short : case.msgs.length ≤ 64
    · simp only [short, decide_true, Bool.true_and, List.all_eq_true]
      exact fun oracle listed => decide_eq_true (audits short oracle listed)
    · simp only [short, decide_false, Bool.false_and]

end Entries

/-- What the suite finds when it is started for an engine. -/
structure Prepared
    (inBattery : ∀ case ∈ cases, case ∈ edgeCases)
    (mt19937_64 : UInt64 → Nat → UInt64) (baselines : String → BaselineFile)
    (session : Session) : Prop where
  cases : session.cases = cases.map Case.edge
  files : ∀ path ∈ session.so :: ConformanceCheck.baselines ++
    stateAuditBaselines, session.fileExists path = true
  nonempty : session.oracles ≠ []
  oracles : ∀ oracle ∈ session.oracles,
    OracleRuns inBattery mt19937_64 baselines oracle.2
  /-- A cache of the right signature was written for the same cases. -/
  cached : ∀ run, session.cache = .written run → run.sig = session.sig →
    run.cases = session.cases ∧ run.oracles ≠ [] ∧
      ∀ oracle ∈ run.oracles,
        OracleRuns inBattery mt19937_64 baselines oracle.2

theorem requireSo_ok
    {session : Session} {paths : List String}
    (files : ∀ path ∈ paths, session.fileExists path = true)
    (what remedy : String) : requireSo session paths what remedy = .ok () := by
  have missing :
      (paths.filter fun path => !session.fileExists path) = [] := by
    rw [List.filter_eq_nil_iff]
    intro path member
    rw [files path member]
    exact Bool.false_ne_true
  rw [requireSo, missing]
  exact if_pos rfl

theorem entriesOf_consensusCase
    {oracles : List (String × EngineRuns)} (nonempty : oracles ≠ [])
    (conforming : ∀ oracle ∈ oracles,
      OracleRuns inBattery mt19937_64 baselines oracle.2)
    (audit : BaselinesAudit inBattery baselines) :
    List.Forall₂ EntryOf cases
      ((cases.map Case.edge).map (consensusCase oracles)) := by
  rw [List.map_map, List.forall₂_map_right_iff, List.forall₂_same]
  exact fun case member =>
    entryOf_consensusCase nonempty conforming audit member

/-- Fresh or cached, the consensus is the reference's. -/
theorem Prepared.mainConsensus
    {session : Session}
    (prepared : Prepared inBattery mt19937_64 baselines session)
    (audit : BaselinesAudit inBattery baselines) :
    ∃ cons, mainConsensus session = .ok cons ∧
      List.Forall₂ EntryOf cases cons := by
  obtain ⟨cases_, files, nonempty, oracles, cached⟩ := prepared
  have so : ∀ path ∈ [session.so], session.fileExists path = true :=
    fun path member => files path (by simp at member; simp [member])
  have report : ∀ path ∈ ConformanceCheck.baselines,
      session.fileExists path = true :=
    fun path member => files path (by simp [member])
  have state : ∀ path ∈ stateAuditBaselines,
      session.fileExists path = true :=
    fun path member => files path (by simp [member])
  have fresh : consensus session =
      .ok (session.cases.map (consensusCase session.oracles)) := by
    rw [consensus, requireReportOracles, requireSo_ok report,
      requireStateAuditBaselines, requireSo_ok state]
    rfl
  have computed := entriesOf_consensusCase nonempty oracles audit
  rw [← cases_] at computed
  rw [ConformanceCheck.mainConsensus, requireSo_ok so,
    requireStateAuditBaselines, requireSo_ok state]
  simp only [bind, Except.bind]
  split
  · rename_i entry entries loaded
    refine ⟨entry :: entries, rfl, ?_⟩
    rw [loadOracle] at loaded
    split at loaded
    · cases loaded
    · cases loaded
    · rename_i run written
      dsimp only at loaded
      split at loaded
      · cases loaded
      · rename_i same
        obtain ⟨own, nonempty, oracles⟩ :=
          cached run written (Decidable.not_not.mp same)
        have earlier := entriesOf_consensusCase nonempty oracles audit
        rw [← cases_, ← own] at earlier
        split at loaded
        · rw [← Option.some.inj loaded, List.forall₂_map_right_iff]
          exact earlier.imp fun case entry holds =>
            ⟨holds.scen, holds.count, holds.oracle, holds.stateGated⟩
        · cases loaded
  · exact ⟨_, fresh, computed⟩

/-! ## The verdict -/

/-- The suite finds nothing to fail a case for. -/
structure Passes (runs : EngineRuns) (case : Case) : Prop where
  report : runHash (runs.hash (scenName case.name) case.msgs.length) =
    referenceHash case
  state : case.msgs.length ≤ 64 →
    runAudit (runs.audit (scenName case.name) case.msgs.length) ≠ some false

theorem EntryOf.caseFails_iff
    {case : Case} {entry : CaseConsensus} (entryOf : EntryOf case entry)
    (runs : EngineRuns) : caseFails runs entry = [] ↔ Passes runs case := by
  obtain ⟨scen, count, oracle, gated⟩ := entryOf
  rw [caseFails_eq_nil_iff, scen, count, oracle, gated, decide_eq_true_eq]
  constructor
  · rintro ⟨report, state⟩
    exact ⟨report _ rfl, state⟩
  · rintro ⟨report, state⟩
    refine ⟨fun hash found => ?_, state⟩
    rw [report]
    exact Option.some.inj found

/-- What the entries of the consensus count and fail. -/
theorem entries_spec
    {cons : List CaseConsensus} (entries : List.Forall₂ EntryOf cases cons)
    (runs : EngineRuns) :
    cons.countP (fun entry => entry.oracle.isSome) = cases.length ∧
      cons.countP (fun entry => entry.stateGated) =
        cases.countP (fun case => case.msgs.length ≤ 64) ∧
      (cons.flatMap (caseFails runs) = [] ↔
        ∀ case ∈ cases, Passes runs case) := by
  induction entries with
  | nil => simp
  | cons first rest induction =>
      obtain ⟨oracled, gated, clean⟩ := induction
      rw [List.countP_cons, List.countP_cons, List.countP_cons, oracled,
        gated, first.oracle, first.stateGated, List.flatMap_cons,
        List.append_eq_nil_iff, clean, first.caseFails_iff,
        List.forall_mem_cons]
      exact ⟨rfl, rfl, Iff.rfl⟩

theorem verdictOf_entries
    {cons : List CaseConsensus} (entries : List.Forall₂ EntryOf cases cons)
    (some_ : cases ≠ []) (runs : EngineRuns) :
    ((verdictOf runs cons).verdict.exitStatus = 0 ↔
        ∀ case ∈ cases, Passes runs case) ∧
      ((verdictOf runs cons).verdict.exitStatus = 0 →
        (verdictOf runs cons).verdict =
          .conformant cases.length
            (cases.countP fun case => case.msgs.length ≤ 64)) := by
  obtain ⟨oracled, gated, clean⟩ := entries_spec entries runs
  have fails := foldl_checkCase_fails runs cons ⟨[], []⟩
  rw [List.nil_append] at fails
  have counted : cases.length ≠ 0 := by simpa using some_
  simp only [verdictOf, fails, oracled, gated, if_neg counted]
  by_cases none_ : cons.flatMap (caseFails runs) = []
  · rw [if_pos none_, ← clean]
    exact ⟨iff_of_true rfl none_, fun _ => rfl⟩
  · rw [if_neg none_, ← clean]
    exact ⟨iff_of_false Nat.one_ne_zero none_, fun zero =>
      absurd zero Nat.one_ne_zero⟩

section Agreement

variable {σ : Type} {engine : Engine σ} {engineName : String}
  {runs : EngineRuns} {case : Case}

/-- What the runs of an engine on a case have to show. -/
structure CaseRuns.Agrees
    {member : case ∈ edgeCases}
    (caseRuns : CaseRuns mt19937_64 baselines engine engineName runs member) :
    Prop where
  report : (canonicalDigest caseRuns.hashRun.pushed).hex.take 16 =
    referenceHash case
  state : case.msgs.length ≤ 64 → caseRuns.auditRun.AnswersAlike

variable {member : case ∈ cases}
  (caseRuns : CaseRuns mt19937_64 baselines engine engineName runs
    (inBattery case member))

theorem CaseRuns.passes_iff (audit : BaselinesAudit inBattery baselines) :
    Passes runs case ↔ caseRuns.Agrees := by
  have answered := caseRuns.runAudit_eq audit
  constructor
  · rintro ⟨report, state⟩
    refine ⟨?_, fun short => ?_⟩
    · rw [← caseRuns.hashes.runHash_eq]
      exact report
    · obtain ⟨passed, read, alike⟩ := answered short
      have notFailed := state short
      rw [read] at notFailed
      exact alike.mp (Bool.eq_true_of_not_eq_false fun failed =>
        notFailed (congrArg some failed))
  · rintro ⟨report, state⟩
    refine ⟨?_, fun short => ?_⟩
    · rw [caseRuns.hashes.runHash_eq]
      exact report
    · obtain ⟨passed, read, alike⟩ := answered short
      rw [read, alike.mpr (state short)]
      exact nofun

/-- The runs of a conforming engine show what they have to. -/
theorem CaseRuns.agrees_of_conforms
    (conforms : ConformsOn inBattery engine) : caseRuns.Agrees := by
  constructor
  · exact hash_of_conforms (inBattery case member) (conforms case member)
      caseRuns.hashRun
  · intro short
    exact answersAlike_of_conforms (conforms case member)
      (by rw [length_workload]; exact short) caseRuns.auditRun

end Agreement

section Certified

variable {session : Session}
  (prepared : Prepared inBattery mt19937_64 baselines session)
  (some_ : cases ≠ []) (audit : BaselinesAudit inBattery baselines)

include prepared some_ audit in
theorem main_prepared :
    ((main session).verdict.exitStatus = 0 ↔
        ∀ case ∈ cases, Passes session.engine case) ∧
      ((main session).verdict.exitStatus = 0 →
        (main session).verdict =
          .conformant cases.length
            (cases.countP fun case => case.msgs.length ≤ 64)) := by
  obtain ⟨cons, found, entries⟩ := prepared.mainConsensus audit
  have used : (main session).verdict =
      (verdictOf session.engine cons).verdict := by
    simp only [main, found]
  rw [used]
  exact verdictOf_entries entries some_ session.engine

include prepared some_ audit in
/--
For an engine whose runs all come to a verdict the suite exits with 0 exactly
when on every case the first 64 bits of the digest of what it pushed are those
of the reference's reports and, where every message is audited, its answers
after each message are those of the reference book.  It then reports all cases
and all audited ones.
-/
theorem certified_iff
    {σ : Type} {engine : Engine σ} {engineName : String}
    (caseRuns : ∀ case (member : case ∈ cases),
      CaseRuns mt19937_64 baselines engine engineName session.engine
        (inBattery case member)) :
    let verdict := (main session).verdict
    (verdict.exitStatus = 0 ↔
        ∀ case (member : case ∈ cases), (caseRuns case member).Agrees) ∧
      (verdict.exitStatus = 0 →
        verdict =
          .conformant cases.length
            (cases.countP fun case => case.msgs.length ≤ 64)) := by
  obtain ⟨zero, counted⟩ := main_prepared prepared some_ audit
  refine ⟨zero.trans ?_, counted⟩
  exact forall₂_congr fun case member =>
    (caseRuns case member).passes_iff audit

end Certified

end Consensus

/-! ## The adapters of the repository -/

theorem orderCount_le (msgs : List Msg) : orderCount msgs ≤ msgs.length := by
  induction msgs with
  | nil => exact Nat.le_refl _
  | cons m msgs induction =>
      have one : orderCredit m ≤ 1 := by
        cases m with
        | newOrder o => exact Nat.le_refl _
        | cancel c => exact Nat.zero_le _
        | modify r => exact Nat.le_refl _
      rw [orderCount_cons, List.length_cons]
      omega

section Adapters

variable {msgs : List CaseMsg} (suitable : Suitable msgs)

theorem legal_case
    {allowed : Int64 → Prop}
    (holds : ∀ price, Between 1 200000 price → allowed price) :
    LegalRun allowed (messagesOf (workload msgs suitable).msgs) := by
  rw [messagesOf_case]
  exact suitable.legal.mono holds

theorem ids_messages_case
    {bound : Nat} (wide : 2000000 < bound) :
    ∀ m ∈ messagesOf (workload msgs suitable).msgs,
      m.orderId.toNat < bound := by
  rw [messagesOf_case]
  exact fun m member => Nat.lt_of_le_of_lt (ids_case suitable m member) wide

theorem boundedRun_case :
    BoundedRun (messagesOf (workload msgs suitable).msgs) := by
  rw [messagesOf_case]
  exact fun front reached => bounded_case suitable reached

theorem qcPrice_of_between (price : Int64) (inside : Between 1 200000 price) :
    QuantCup.QcPrice price := by
  obtain ⟨low, high⟩ := inside
  exact ⟨low, by rw [QuantCup.kNumPricePoints]; omega⟩

theorem liquibook_conforms_case
    {core : Liquibook.Core} {ladders : core.State → Sides Nat Nat}
    (correct : core.Correct ladders) :
    Conforms (liquibookLibrary core).engine (workload msgs suitable).msgs := by
  refine liquibook_conforms correct
    (legal_case suitable qcPrice_of_between)
    (fun o member => ids_messages_case suitable (by decide) _ member)
    fun m member => ?_
  obtain ⟨-, low, high⟩ := fields_case suitable m member
  have power : (2 : Int) ^ 18 ≤ 2 ^ core.priceBits := by
    exact_mod_cast Nat.pow_le_pow_right (by decide) correct.bits
  exact Or.inr ⟨low, by omega⟩

theorem quantCup_conforms_case
    {core : QuantCup.Core} {kMaxNumOrders : Nat}
    {ladders : core.State → Sides (Nat × QuantCup.Field) Nat}
    {calls : core.State → Nat}
    (correct : core.Correct kMaxNumOrders ladders calls)
    (large : 5001 < kMaxNumOrders) :
    Conforms (quantCupLibrary core kMaxNumOrders).engine
      (workload msgs suitable).msgs := by
  refine quantCup_conforms correct
    (legal_case suitable qcPrice_of_between)
    (fun o member => ids_messages_case suitable (by decide) _ member) ?_
    fun m member => (fields_case suitable m member).1
  have few := orderCount_le (messagesOf (workload msgs suitable).msgs)
  have short := suitable.short
  rw [messagesOf, List.length_map, length_workload] at few
  exact Nat.lt_of_le_of_lt (few.trans short) large

theorem tickPrice_of_between (price : Int64) (inside : Between 1 200000 price) :
    TickPrice price := by
  obtain ⟨low, high⟩ := inside
  exact ⟨low, by omega⟩

theorem nonNegative_of_between
    (price : Int64) (inside : Between 1 200000 price) :
    NonNegative price := by
  have low := inside.1
  unfold NonNegative
  omega

end Adapters

section Shipped

variable {cpp : CppOrderbook.Core} {cppLadders : cpp.State → Sides UInt64 Nat}
  (cppCorrect : cpp.Correct cppLadders)
  {clob : HroptatyrClob.Core}
  {clobLadders : clob.State → Sides HroptatyrClob.Oid Int}
  (clobCorrect : clob.Correct clobLadders)
  {llc : Llc993.Core} {llcLadders : llc.State → Sides UInt64 Int64}
  (llcCorrect : llc.Correct llcLadders)
  {liquibook : Liquibook.Core} {lbLadders : liquibook.State → Sides Nat Nat}
  (lbCorrect : liquibook.Correct lbLadders)
  {quantCup : QuantCup.Core} {kMaxNumOrders : Nat}
  {qcLadders : quantCup.State → Sides (Nat × QuantCup.Field) Nat}
  {calls : quantCup.State → Nat}
  (qcCorrect : quantCup.Correct kMaxNumOrders qcLadders calls)
  (large : 5001 < kMaxNumOrders)

/-- `BASELINES`, by their names: what the suite sees of the three oracles. -/
structure ShippedRuns
    {cases : List Case} (inBattery : ∀ case ∈ cases, case ∈ edgeCases)
    (mt19937_64 : UInt64 → Nat → UInt64) (baselines : String → BaselineFile)
    (cpp : CppOrderbook.Core) (llc : Llc993.Core) (clob : HroptatyrClob.Core)
    (oracles : List (String × EngineRuns)) where
  cppRuns : EngineRuns
  llcRuns : EngineRuns
  clobRuns : EngineRuns
  oracles : oracles =
    [("cpp_orderbook", cppRuns), ("llc993", llcRuns),
      ("hroptatyr_clob", clobRuns)]
  cpp : ∀ case (member : case ∈ cases),
    CaseRuns mt19937_64 baselines (cppOrderbookLibrary cpp).batched
      "cpp_orderbook" cppRuns (inBattery case member)
  llc : ∀ case (member : case ∈ cases),
    CaseRuns mt19937_64 baselines (llc993Library llc).bare "llc993" llcRuns
      (inBattery case member)
  clob : ∀ case (member : case ∈ cases),
    CaseRuns mt19937_64 baselines (hroptatyrClobLibrary clob).engine
      "hroptatyr_clob" clobRuns (inBattery case member)

variable {cases : List Case} (inBattery : ∀ case ∈ cases, case ∈ edgeCases)

theorem cppOrderbook_conformsOn (correct : cpp.Correct cppLadders) :
    ConformsOn inBattery (cppOrderbookLibrary cpp).batched :=
  fun _ _ => cppOrderbook_conforms correct (legal_case _ tickPrice_of_between)
    (fun _ member _ => ids_messages_case _ (by decide) _ member)
    (boundedRun_case _)

theorem hroptatyrClob_conformsOn (correct : clob.Correct clobLadders) :
    ConformsOn inBattery (hroptatyrClobLibrary clob).engine :=
  fun _ _ => hroptatyrClob_conforms correct
    (legal_case _ tickPrice_of_between)
    (fun _ member => ids_messages_case _ (by decide) _ member)
    (boundedRun_case _)

theorem llc993_conformsOn (correct : llc.Correct llcLadders) :
    ConformsOn inBattery (llc993Library llc).bare :=
  fun _ _ => llc993_conforms correct (legal_case _ tickPrice_of_between)
    (boundedRun_case _)

theorem pgellert_conformsOn : ConformsOn inBattery pgellertLibrary.bare :=
  fun _ _ => pgellert_conforms (legal_case _ nonNegative_of_between)

theorem liquibook_conformsOn (correct : liquibook.Correct lbLadders) :
    ConformsOn inBattery (liquibookLibrary liquibook).engine :=
  fun _ _ => liquibook_conforms_case _ correct

theorem quantCup_conformsOn
    (correct : quantCup.Correct kMaxNumOrders qcLadders calls)
    (large : 5001 < kMaxNumOrders) :
    ConformsOn inBattery (quantCupLibrary quantCup kMaxNumOrders).engine :=
  fun _ _ => quantCup_conforms_case _ correct large

include cppCorrect clobCorrect llcCorrect lbCorrect qcCorrect large in
/--
On every part of the battery the six adapters conform, the cases keep the
contract, the harness loads the files that the suite writes, and the suite
certifies every engine that conforms on them, with all cases compared and all
but the deep sweep audited.
-/
theorem conforming_certified
    (some_ : cases ≠ []) (mt19937_64 : UInt64 → Nat → UInt64)
    {baselines : String → BaselineFile}
    (lb : baselines "liquibook" = builtFrom (liquibookLibrary liquibook))
    (qc : baselines "quantcup" =
      builtFrom (quantCupLibrary quantCup kMaxNumOrders)) :
    (ConformsOn inBattery (cppOrderbookLibrary cpp).batched ∧
        ConformsOn inBattery (llc993Library llc).bare ∧
        ConformsOn inBattery (hroptatyrClobLibrary clob).engine ∧
        ConformsOn inBattery pgellertLibrary.bare ∧
        ConformsOn inBattery (liquibookLibrary liquibook).engine ∧
        ConformsOn inBattery
          (quantCupLibrary quantCup kMaxNumOrders).engine) ∧
      (∀ case (member : case ∈ cases), LegalRun (Between 1 200000)
        (messagesOf (workload case.msgs
          (suitable (inBattery case member))).msgs)) ∧
      (∀ (num : Numerics) (mt19937 : UInt32 → Nat → Uniform)
        (dir : Directory) (file : Workload.File.FileOutcome) case
        (member : case ∈ cases),
        (obtainWorkload num mt19937 (writeCases dir cases)
            { scenario := scenChars case
              seed := 0
              count := UInt64.ofNat case.msgs.length
              file := file }).2 =
          .loaded (workload case.msgs
            (suitable (inBattery case member))).msgs) ∧
      ∀ {session : Session} {σ : Type} {engine : Engine σ}
        {engineName : String}, session.cases = cases.map Case.edge →
        (∀ path ∈ session.so :: ConformanceCheck.baselines ++
          stateAuditBaselines, session.fileExists path = true) →
        (∀ run, session.cache ≠ .written run) →
        ShippedRuns inBattery mt19937_64 baselines cpp llc clob
          session.oracles →
        ConformsOn inBattery engine →
        (∀ case (member : case ∈ cases),
          CaseRuns mt19937_64 baselines engine engineName session.engine
            (inBattery case member)) →
          (main session).verdict =
            .conformant cases.length
              (cases.countP fun case => case.msgs.length ≤ 64) := by
  have cppConforms := cppOrderbook_conformsOn inBattery cppCorrect
  have llcConforms := llc993_conformsOn inBattery llcCorrect
  have clobConforms := hroptatyrClob_conformsOn inBattery clobCorrect
  have lbConforms := liquibook_conformsOn inBattery lbCorrect
  have qcConforms := quantCup_conformsOn inBattery qcCorrect large
  refine ⟨⟨cppConforms, llcConforms, clobConforms,
    pgellert_conformsOn inBattery, lbConforms, qcConforms⟩,
    fun case member => legal_case _ fun _ inside => inside, ?_, ?_⟩
  · intro num mt19937 dir file case member
    rw [obtainWorkload_case num mt19937 dir inBattery member file]
  · intro session σ engine engineName own files fresh shipped conforms caseRuns
    have audit : BaselinesAudit inBattery baselines :=
      ⟨⟨_, _, lb, lbConforms⟩, ⟨_, _, qc, qcConforms⟩⟩
    have prepared : Prepared inBattery mt19937_64 baselines session := by
      refine ⟨own, files, ?_, ?_, fun run written => absurd written (fresh run)⟩
      · rw [shipped.oracles]
        exact List.cons_ne_nil _ _
      · rw [shipped.oracles]
        simp only [List.forall_mem_cons]
        exact ⟨⟨_, _, _, cppConforms, fun c m => ⟨shipped.cpp c m⟩⟩,
          ⟨_, _, _, llcConforms, fun c m => ⟨shipped.llc c m⟩⟩,
          ⟨_, _, _, clobConforms, fun c m => ⟨shipped.clob c m⟩⟩,
          List.forall_mem_nil _⟩
    obtain ⟨zero, counted⟩ := main_prepared prepared some_ audit
    refine counted (zero.mpr fun case member => ?_)
    exact ((caseRuns case member).passes_iff audit).mpr
      ((caseRuns case member).agrees_of_conforms conforms)

end Shipped

/-! ## Four cases -/

/-- The case with a trade after a modify. -/
def modifyIntoCross : Case where
  name := "modify_into_cross"
  msgs := [new 1 sell 10 100 0, new 2 buy 10 99 0, modify 2 buy 10 100]

/-- It, a reused identifier, and both ceilings. -/
def fourCases : List Case :=
  [modifyIntoCross,
    ⟨"reuse_id_after_cancel",
      [new 1 buy 10 100 0, cancel 1, new 1 sell 10 200 0, new 2 buy 10 200 1]⟩,
    ⟨"wide_in_domain_price_ceiling",
      [new 1 sell 10 200000 0, new 2 buy 10 200000 1]⟩,
    ⟨"large_order_id_ceiling", [cancel 2000000]⟩]

theorem fourCases_inBattery : ∀ case ∈ fourCases, case ∈ edgeCases := by
  simp [fourCases, modifyIntoCross, edgeCases]

example : fourCases.map (fun case =>
    ((reportsOf (tape case.msgs)).map Report.type).count meTrade) =
      [1, 1, 1, 0] := by
  decide +kernel

/-- Their numbers of messages tell them apart. -/
theorem eq_of_length_fourCases {case other : Case} (here : case ∈ fourCases)
    (there : other ∈ fourCases)
    (same : case.msgs.length = other.msgs.length) : case = other :=
  List.inj_on_of_nodup_map
    (by decide : (fourCases.map fun case => case.msgs.length).Nodup)
    here there same

theorem picked_fourCases {case : Case} (member : case ∈ fourCases) :
    Picked counting quietMachine
      (workload case.msgs (suitable (fourCases_inBattery case member))).msgs
      (List.range case.msgs.length) := by
  have drawn : ∀ n ∈ fourCases.map fun case => case.msgs.length,
      auditPickIndices (counting quietMachine.verifySeed) n
        Harness.Audit.auditPoints 4 = some (List.range n) := by decide
  refine ⟨4, ?_⟩
  rw [length_workload]
  exact drawn _ (List.mem_map_of_mem member)

section Existence

variable {σ : Type} (baselines : String → BaselineFile) (engine : Engine σ)
  (engineName : String)

/-- The harness runs every engine on a case to its end. -/
theorem exists_harnessRun {case : Case} (member : case ∈ fourCases)
    (args : Args) : Nonempty (HarnessRun counting baselines engine args
      (workload case.msgs (suitable (fourCases_inBattery case member)))) := by
  obtain ⟨drain, drained⟩ := exists_drained
    (engine.pushed (engineEnd engine args.mode quietMachine.initNonce
      (workload case.msgs (suitable (fourCases_inBattery case member))).msgs
      (List.range case.msgs.length)))
  exact ⟨{
    machine := quietMachine
    preRead := none
    reRead := none
    auditIdx := List.range case.msgs.length
    picked := picked_fourCases member
    drain := drain
    drained := drained
    around := ⟨[], [], []⟩
    silent := nofun }⟩

/-- Its audit runs may need a second attempt each. -/
theorem exists_caseRuns :
    ∃ runs : EngineRuns, ∀ case (member : case ∈ fourCases),
      Nonempty (CaseRuns counting baselines engine engineName runs
        (fourCases_inBattery case member)) := by
  classical
  have ran (mode : Mode) (case : Case) (member : case ∈ fourCases) :=
    exists_harnessRun baselines engine member (suiteArgs engineName
      (scenario (fourCases_inBattery case member)) case.msgs.length mode)
  let attempt (mode : Mode) (count : Nat) : Attempt :=
    if listed : ∃ case, case ∈ fourCases ∧ case.msgs.length = count then
      (Classical.choice
        (ran mode listed.choose listed.choose_spec.1)).attempt
    else .timeout
  have own (mode : Mode) (case : Case) (member : case ∈ fourCases) :
      attempt mode case.msgs.length =
        (Classical.choice (ran mode case member)).attempt := by
    have listed : ∃ other, other ∈ fourCases ∧
        other.msgs.length = case.msgs.length := ⟨case, member, rfl⟩
    have same := eq_of_length_fourCases listed.choose_spec.1 member
      listed.choose_spec.2
    have along (other : Case) (inside : other ∈ fourCases)
        (equal : other = case) :
        (Classical.choice (ran mode other inside)).attempt =
          (Classical.choice (ran mode case member)).attempt := by
      subst equal
      rfl
    exact (dif_pos listed).trans (along _ listed.choose_spec.1 same)
  refine ⟨⟨fun _ count => ⟨attempt .perf count, .timeout⟩,
    fun _ count => ⟨.timeout, attempt .audit count⟩⟩, fun case member => ?_⟩
  exact ⟨⟨Classical.choice (ran .perf case member),
    .first (own .perf case member),
    Classical.choice (ran .audit case member),
    .second rfl rfl (own .audit case member)⟩⟩

end Existence

/-- The stand-ins of the two audit baselines. -/
def auditBaselines (name : String) : BaselineFile :=
  if name = "quantcup" then
    builtFrom (quantCupLibrary Baselines.LadderCores.quantCup 5002)
  else builtFrom (liquibookLibrary Baselines.LadderCores.liquibook)

/-- A start of the suite without a cache. -/
def freshSession (oracles : List (String × EngineRuns)) (runs : EngineRuns) :
    Session where
  so := "./engine_adapter.so"
  fileExists _ := true
  sig := ""
  cache := .absent
  binExists _ _ := true
  cases := fourCases.map Case.edge
  oracles := oracles
  engine := runs

/-- The reference's reports, and a best offer that is never seen. -/
def blind : Engine (LiveBook × List Report) :=
  { referenceEngine with queryBestAsk := fun _ => int64Max }

theorem modifyIntoCross_mem : modifyIntoCross ∈ fourCases :=
  List.mem_cons_self

/-- Its answer to the first message of the first case is wrong. -/
theorem blind_differs
    {args : Args}
    (run : HarnessRun counting auditBaselines blind args
      (workload modifyIntoCross.msgs
        (suitable (fourCases_inBattery _ modifyIntoCross_mem)))) :
    ¬run.AnswersAlike := by
  intro alike
  have offered : (referenceAnswers (messagesOf
      ((workload modifyIntoCross.msgs
        (suitable (fourCases_inBattery _ modifyIntoCross_mem))).msgs.take 1))
      (Workload.File.decoded 0 (onWire (new 1 sell 10 100 0)))).2.1 = 100 := by
    decide +kernel
  have first := congrArg (fun answers => answers.2.1) (alike 0 _ rfl)
  exact absurd (first.trans offered) (by decide : int64Max ≠ 100)

/--
Two oracles certify Liquibook on all four cases.  They refuse an engine with
the right reports and one wrong answer.
-/
theorem certified_iff_fourCases :
    ∃ accepted refused : Session,
      accepted.cases = fourCases.map Case.edge ∧
        (main accepted).verdict = .conformant 4 4 ∧
      refused.cases = fourCases.map Case.edge ∧
        (main refused).verdict.exitStatus ≠ 0 := by
  have lbConforms := liquibook_conformsOn fourCases_inBattery
    Baselines.LadderCores.liquibook_correct
  have qcConforms := quantCup_conformsOn fourCases_inBattery
    (Baselines.LadderCores.quantCup_correct 5002) (by decide)
  obtain ⟨cppRuns, cpp⟩ := exists_caseRuns auditBaselines
    (cppOrderbookLibrary Oracles.LadderCores.cppOrderbook).batched
    "cpp_orderbook"
  obtain ⟨llcRuns, llc⟩ := exists_caseRuns auditBaselines
    (llc993Library Oracles.LadderCores.llc993).bare "llc993"
  obtain ⟨lbRuns, lb⟩ := exists_caseRuns auditBaselines
    (liquibookLibrary Baselines.LadderCores.liquibook).engine "liquibook"
  obtain ⟨blindRuns, seen⟩ := exists_caseRuns auditBaselines blind "blind"
  let oracles := [("cpp_orderbook", cppRuns), ("llc993", llcRuns)]
  have prepared (runs : EngineRuns) : Prepared fourCases_inBattery counting
      auditBaselines (freshSession oracles runs) := by
    refine ⟨rfl, fun _ _ => rfl, List.cons_ne_nil _ _, ?_, nofun⟩
    simp only [freshSession, oracles, List.forall_mem_cons]
    exact ⟨⟨_, _, _, cppOrderbook_conformsOn _
        Oracles.LadderCores.cppOrderbook_correct, cpp⟩,
      ⟨_, _, _, llc993_conformsOn _ Oracles.LadderCores.llc993_correct, llc⟩,
      List.forall_mem_nil _⟩
  have audit : BaselinesAudit fourCases_inBattery auditBaselines :=
    ⟨⟨_, _, if_neg (by decide), lbConforms⟩,
      ⟨_, _, if_pos rfl, qcConforms⟩⟩
  have nonempty : fourCases ≠ [] := List.cons_ne_nil _ _
  let lbCase (case : Case) (member : case ∈ fourCases) :=
    Classical.choice (lb case member)
  let blindCase (case : Case) (member : case ∈ fourCases) :=
    Classical.choice (seen case member)
  obtain ⟨certified, counted⟩ :=
    certified_iff (prepared lbRuns) nonempty audit lbCase
  obtain ⟨refused, -⟩ :=
    certified_iff (prepared blindRuns) nonempty audit blindCase
  refine ⟨freshSession oracles lbRuns, freshSession oracles blindRuns, rfl,
    counted (certified.mpr fun case member => ?_), rfl, fun zero => ?_⟩
  · exact (lbCase case member).agrees_of_conforms lbConforms
  · have agrees := refused.mp zero _ modifyIntoCross_mem
    exact blind_differs _ (agrees.state
      (by decide : modifyIntoCross.msgs.length ≤ 64))

/-- The shipped oracles certify Liquibook by the contract alone. -/
theorem conforming_certified_fourCases :
    ∃ session : Session, session.cases = fourCases.map Case.edge ∧
      (main session).verdict = .conformant 4 4 := by
  obtain ⟨⟨-, -, -, -, lbConforms, -⟩, -, -, certified⟩ :=
    conforming_certified
      Oracles.LadderCores.cppOrderbook_correct
      Oracles.LadderCores.hroptatyrClob_correct
      Oracles.LadderCores.llc993_correct
      Baselines.LadderCores.liquibook_correct
      (Baselines.LadderCores.quantCup_correct 5002) (by decide)
      fourCases_inBattery (List.cons_ne_nil _ _) counting
      (show auditBaselines "liquibook" = _ from if_neg (by decide))
      (show auditBaselines "quantcup" = _ from if_pos rfl)
  obtain ⟨cppRuns, cpp⟩ := exists_caseRuns auditBaselines
    (cppOrderbookLibrary Oracles.LadderCores.cppOrderbook).batched
    "cpp_orderbook"
  obtain ⟨llcRuns, llc⟩ := exists_caseRuns auditBaselines
    (llc993Library Oracles.LadderCores.llc993).bare "llc993"
  obtain ⟨clobRuns, clob⟩ := exists_caseRuns auditBaselines
    (hroptatyrClobLibrary Oracles.LadderCores.hroptatyrClob).engine
    "hroptatyr_clob"
  obtain ⟨runs, ran⟩ := exists_caseRuns auditBaselines
    (liquibookLibrary Baselines.LadderCores.liquibook).engine "liquibook"
  let session := freshSession
    [("cpp_orderbook", cppRuns), ("llc993", llcRuns),
      ("hroptatyr_clob", clobRuns)] runs
  have shipped : Nonempty (ShippedRuns fourCases_inBattery counting
      auditBaselines Oracles.LadderCores.cppOrderbook
      Oracles.LadderCores.llc993 Oracles.LadderCores.hroptatyrClob
      session.oracles) :=
    ⟨cppRuns, llcRuns, clobRuns, rfl,
      fun case member => Classical.choice (cpp case member),
      fun case member => Classical.choice (llc case member),
      fun case member => Classical.choice (clob case member)⟩
  exact ⟨session, rfl, @certified session _ _ "liquibook" rfl
    (fun _ _ => rfl) nofun (Classical.choice shipped) lbConforms
    fun case member => Classical.choice (ran case member)⟩

end MatchingBench.Scripts.Certification
