import MatchingBench.Harness.Contract
import MatchingBench.Scripts.RunChallenge

/-!
# What a challenge certifies

How the starts of the harness end, what the script reads of each, and what the
exit status of a whole challenge says about all of them.
-/

set_option autoImplicit false

namespace MatchingBench.Scripts.ChallengeVerdict

open MatchingBench.Lib.DecimalText
open MatchingBench.Lib.Json
open MatchingBench.Lib.Maps
open MatchingBench.Lib.PythonText
open MatchingBench.Lib.TextScan (lines lines_append lines_split)
open MatchingBench.Harness.Audit
open MatchingBench.Harness.CommandLine
open MatchingBench.Harness.Contract
open MatchingBench.Harness.Drainer
open MatchingBench.Harness.Marshalling
open MatchingBench.Harness.ReferenceHash
open MatchingBench.Harness.ResultFile
open MatchingBench.Harness.Verdict
open MatchingBench.Reference (reportsOf)
open MatchingBench.Scripts.RunChallenge

/-! ## The line that names the result file -/

/-- A character that ends a line of the standard output. -/
def breaks (char : Char) : Bool :=
  char = '\n' || lineBreak char

/-- A text that stays on its line. -/
def Unbroken (text : List Char) : Prop :=
  ∀ char ∈ text, breaks char = false

theorem unbroken_of_all
    {text : List Char} (all : (text.all fun char => !breaks char) = true) :
    Unbroken text := by
  intro char member
  exact (Bool.not_eq_true' _).mp (List.all_eq_true.mp all char member)

theorem Unbroken.append
    {front back : List Char} (left : Unbroken front)
    (right : Unbroken back) : Unbroken (front ++ back) := by
  intro char member
  rcases List.mem_append.mp member with member | member
  · exact left char member
  · exact right char member

theorem breaks_of_scenarioChar
    {char : Char} (named : scenarioChar char = true) :
    breaks char = false := by
  have others : ∀ code ∈ [10, 11, 12, 13, 28, 29, 30, 0x85, 0x2028, 0x2029],
      scenarioChar (Char.ofNat code) = false := by
    decide
  by_contra ends
  rw [Bool.not_eq_false, breaks, Bool.or_eq_true, decide_eq_true_eq]
    at ends
  have code : char.toNat ∈
      [10, 11, 12, 13, 28, 29, 30, 0x85, 0x2028, 0x2029] := by
    rcases ends with rfl | ends
    · decide
    · exact List.mem_cons_of_mem _ (List.contains_iff_mem.mp ends)
  have refused := others char.toNat code
  rw [Char.ofNat_toNat, named] at refused
  cases refused

theorem unbroken_of_scenarioChar
    {text : List Char} (named : text.all scenarioChar = true) :
    Unbroken text :=
  fun char member =>
    breaks_of_scenarioChar (List.all_eq_true.mp named char member)

theorem unbroken_decimal (value : Nat) : Unbroken (decimal value) := by
  intro char member
  apply breaks_of_scenarioChar
  rw [scenarioChar, isDigit_of_mem_decimal member, Bool.or_true,
    Bool.true_or, Bool.true_or]

/-- A line feed for every character that ends a line. -/
def broken (text : List Char) : List Char :=
  text.map fun char => if lineBreak char then '\n' else char

theorem broken_of_unbroken
    {text : List Char} (solid : Unbroken text) : broken text = text := by
  rw [broken]
  conv_rhs => rw [← List.map_id text]
  refine List.map_congr_left fun char member => ?_
  have stays := solid char member
  rw [breaks, Bool.or_eq_false_iff] at stays
  rw [stays.2]
  rfl

theorem Unbroken.newline
    {text : List Char} (solid : Unbroken text) : '\n' ∉ text := by
  intro member
  cases solid _ member

theorem Unbroken.carriage
    {text : List Char} (solid : Unbroken text) : '\r' ∉ text := by
  intro member
  cases solid _ member

/-- A line behind other output is one of the lines. -/
theorem splitlines_line
    (before : List Char) {line : List Char} (solid : Unbroken line)
    (after : List Char) :
    ∃ earlier,
      splitlines (universalNewlines
          (before ++ '\n' :: (line ++ '\n' :: after))) =
        earlier ++ line :: splitlines (universalNewlines after) := by
  obtain ⟨front, splits⟩ := universalNewlines_split before
  have newline : lineBreak '\n' = false := by decide
  have cut : broken (front ++ '\n' :: (line ++ '\n' ::
      universalNewlines after)) =
        broken front ++ '\n' :: (line ++ '\n' ::
          broken (universalNewlines after)) := by
    conv_rhs => rw [← broken_of_unbroken solid]
    simp only [broken, List.map_append, List.map_cons, newline]
    rfl
  have feed : universalNewlines ('\n' :: after) =
      '\n' :: universalNewlines after :=
    universalNewlines_append (by decide : '\r' ∉ ['\n']) after
  refine ⟨lines (broken front ++ ['\n']), ?_⟩
  rw [splits, universalNewlines_append solid.carriage, feed]
  change lines (broken _) = _ ++ _ :: lines (broken _)
  rw [cut, lines_split, lines_append solid.newline]

/-- One turn of the loop over the lines. -/
def found (path : Option (List Char)) (line : List Char) :
    Option (List Char) :=
  match line.dropPrefix? "Result file:".toList with
  | some path => some ((path.dropWhile isWhite).rdropWhile isWhite)
  | none => path

theorem resultPath_eq (stdout : List Char) :
    resultPath stdout =
      (splitlines (universalNewlines stdout)).foldl found none :=
  rfl

/-- The last line that names a file counts. -/
theorem foldl_found (lines : List (List Char)) (path : Option (List Char)) :
    lines.foldl found path = (lines.foldl found none).or path := by
  induction lines generalizing path with
  | nil => rfl
  | cons line lines induction =>
      rw [List.foldl_cons, List.foldl_cons, induction,
        induction (found none line)]
      unfold found
      cases line.dropPrefix? "Result file:".toList with
      | none => rw [Option.or_none]
      | some named => rw [Option.or_assoc, Option.some_or]

/-- What the harness prints behind the verdict names its result file. -/
theorem resultPath_named
    (before : List Char) {stem : List Char} (solid : Unbroken stem)
    {after : List Char} (silent : resultPath after = none) :
    resultPath (before ++ "\nResult file: ".toList ++
        ("results/".toList ++ stem ++ ".json".toList) ++ '\n' :: after) =
      some ("results/".toList ++ stem ++ ".json".toList) := by
  have line : Unbroken ("Result file: ".toList ++
      ("results/".toList ++ stem ++ ".json".toList)) := by
    have front : Unbroken "Result file: ".toList :=
      unbroken_of_all (by decide)
    have directory : Unbroken "results/".toList :=
      unbroken_of_all (by decide)
    have ending : Unbroken ".json".toList := unbroken_of_all (by decide)
    exact front.append ((directory.append solid).append ending)
  have whole : before ++ "\nResult file: ".toList ++
      ("results/".toList ++ stem ++ ".json".toList) ++ '\n' :: after =
        before ++ '\n' :: ("Result file: ".toList ++
          ("results/".toList ++ stem ++ ".json".toList) ++ '\n' :: after) := by
    simp only [List.append_assoc]
    rfl
  have stripped : found none ("Result file: ".toList ++
      ("results/".toList ++ stem ++ ".json".toList)) =
        some ("results/".toList ++ stem ++ ".json".toList) := by
    have dropped : ("Result file: ".toList ++
        ("results/".toList ++ stem ++ ".json".toList)).dropPrefix?
          "Result file:".toList =
        some (' ' :: ("results/".toList ++ stem ++ ".json".toList)) :=
      List.dropPrefix?_append_of_beq
        (' ' :: ("results/".toList ++ stem ++ ".json".toList))
        (beq_self_eq_true "Result file:".toList)
    have ends : "results/".toList ++ stem ++ ".json".toList =
        "results/".toList ++ stem ++ ".jso".toList ++ ['n'] := by
      simp only [List.append_assoc]
      rfl
    unfold found
    rw [dropped]
    dsimp only
    rw [List.dropWhile_cons_of_pos (by decide)]
    have kept : ("results/".toList ++ stem ++ ".json".toList).dropWhile
        isWhite = "results/".toList ++ stem ++ ".json".toList :=
      List.dropWhile_cons_of_neg (by decide)
    rw [kept, ends, List.rdropWhile_concat_neg _ _ _ (by decide)]
  obtain ⟨earlier, split⟩ := splitlines_line before line after
  rw [resultPath_eq] at silent
  rw [whole, resultPath_eq, split, List.foldl_append, List.foldl_cons,
    foldl_found, silent, Option.none_or]
  have last := foldl_found ["Result file: ".toList ++
    ("results/".toList ++ stem ++ ".json".toList)]
    (earlier.foldl found none)
  rw [List.foldl_cons, List.foldl_nil, List.foldl_cons, List.foldl_nil,
    stripped, Option.some_or] at last
  exact last

/-! ## How a start of the harness ends -/

/-- A run of `main` with these arguments that returned. -/
structure Completed (args : Args) where
  {σ : Type}
  machine : Machine
  preRead : Option (List Char)
  reRead : Option (List Char)
  workload : List WorkloadMsg
  engine : Engine σ
  baselines : String → BaselineFile
  auditIdx : List Nat
  drain : DrainState
  readings : Readings
  timestamp : List Char
  pid : Nat
  /-- Digits and a letter. -/
  stamped : timestamp.all scenarioChar = true

/-- What its record is printed from. -/
def Completed.results {args : Args} (run : Completed args) : Results :=
  resultsOf args run.machine run.preRead run.reRead run.workload run.engine
    run.baselines run.auditIdx run.drain run.readings

/-- Where the record is. -/
def Completed.path {args : Args} (run : Completed args) : List Char :=
  run.results.path run.timestamp run.pid

/-- The end of a start of the harness, and what its result file leads to. -/
inductive Ending (args : Args) where
  /-- It was killed, it crashed or it refused its arguments. -/
  | failed
  /-- It ended in whatever way, but what was printed is no text. -/
  | garbled
  | returned (run : Completed args) (file : FileState)

/-- The run was judged VALID and its record reached the disk. -/
inductive Ending.Valid {args : Args} : Ending args → Prop where
  | returned
      {run : Completed args} {content : List Char}
      (valid : run.results.outcome.valid = true)
      (whole : run.results.text.length ≤ content.length + 1) :
      Valid (.returned run (.text content))

/-- What the record of a run says. -/
def Ending.values {args : Args} : Ending args → List (List Char × Value)
  | .failed | .garbled => []
  | .returned run _ => run.results.values

/-- The digest of what the engine pushed. -/
def Ending.computed {args : Args} : Ending args → List Char
  | .failed | .garbled => []
  | .returned run _ => run.results.computed

/--
What the script gets to see of an ending.  Where the harness fails, anything
may have been printed and left, but no file is named with exit status 0; where
it returns, what follows the name of the result file names no other, and of the
record some part has been written.
-/
inductive Shows {args : Args} (invocation : Invocation) :
    Ending args → Prop where
  | failed
      (nameless : ∀ stdout, invocation.attempt = .exited 0 stdout →
        resultPath stdout = none) :
      Shows invocation .failed
  | garbled (undecodable : invocation.attempt = .undecodable) :
      Shows invocation .garbled
  /-- The result file could not be opened. -/
  | unnamed
      (run : Completed args) (stdout : List Char)
      (silent : resultPath stdout = none)
      (exited : invocation.attempt =
        .exited run.results.outcome.exitCode stdout) :
      Shows invocation (.returned run .missing)
  | named
      (run : Completed args) (before after : List Char)
      (silent : resultPath after = none)
      (exited : invocation.attempt =
        .exited run.results.outcome.exitCode
          (before ++ "\nResult file: ".toList ++ run.path ++
            '\n' :: after))
      (cut : ∀ content, invocation.files run.path = .text content →
        content <+: run.results.text) :
      Shows invocation (.returned run (invocation.files run.path))

/-- An engine whose name is printed as it is, on one line. -/
def Printable (spec : List Char) : Prop :=
  ∀ char ∈ spec, plain char = true ∧ breaks char = false

/-! ## What a record says of a run -/

section Record

variable (r : Results) (returncode : Int)

theorem hasVerdict_values (text : List Char) :
    Trial.hasVerdict ⟨returncode, r.values⟩ text =
      decide (verdictText r.outcome.valid = text) :=
  rfl

theorem ok_values :
    Trial.ok ⟨returncode, r.values⟩ = true ↔
      r.outcome.valid = true ∧ returncode = 0 := by
  rw [Trial.ok, hasVerdict_values, verdictText]
  cases r.outcome.valid <;> simp

theorem hash_values :
    Trial.hash ⟨returncode, r.values⟩ = some r.computed :=
  rfl

theorem status_values :
    Trial.status ⟨returncode, r.values⟩ =
      some (Harness.Printed.statusText r.outcome.status) :=
  rfl

theorem audit_values :
    Trial.section ⟨returncode, r.values⟩ "audit".toList =
      some r.auditValues :=
  rfl

theorem reports_values :
    Trial.section ⟨returncode, r.values⟩ "reports".toList =
      some r.reportValues :=
  rfl

theorem measured_values :
    Trial.measured ⟨returncode, r.values⟩ = true := by
  rw [Trial.measured, hasVerdict_values, hasVerdict_values]
  cases r.outcome.valid <;> rfl

theorem throughput_values {ρ : Type} (arithmetic : Arithmetic ρ) :
    Trial.throughput arithmetic ⟨returncode, r.values⟩ =
      some (arithmetic.millions r.throughput) :=
  rfl

end Record

/-! ## What the script reads of an ending -/

theorem mem_of_mem_erased
    {suffix name : List Char} {char : Char}
    (member : char ∈ erased suffix name) : char ∈ name := by
  rw [erased] at member
  split at member
  · exact List.mem_of_mem_take member
  · exact member

theorem mem_of_mem_lastPart
    {path : List Char} {char : Char} (member : char ∈ lastPart path) :
    char ∈ path := by
  rw [lastPart, List.mem_reverse] at member
  exact List.mem_reverse.mp ((List.takeWhile_sublist _).subset member)

section Reads

variable {spec : List Char} {scenario : Scenario} {mode : Mode}
  {numbers : Numbers}

theorem Printable.engineName
    (printable : Printable spec) :
    ∀ char ∈ (asked spec scenario mode numbers).args.engineName.toList,
      plain char = true ∧ breaks char = false := by
  intro char member
  rw [asked, String.toList_ofList] at member
  exact printable char
    (mem_of_mem_lastPart (mem_of_mem_erased (mem_of_mem_erased member)))

/-- The record of a run has nothing in it that needs an escape. -/
theorem Printable.results
    (printable : Printable spec)
    (run : Completed (asked spec scenario mode numbers).args) :
    run.results.Plain :=
  plain_resultsOf _ _ _ _ _ _ _ _ _ _ <| List.all_eq_true.mpr
    fun char member => (printable.engineName char member).1

theorem Printable.stem
    (printable : Printable spec)
    (run : Completed (asked spec scenario mode numbers).args) :
    Unbroken (run.results.stem run.timestamp run.pid) := by
  have name : Unbroken run.results.args.engineName.toList :=
    fun char member => (printable.engineName char member).2
  have known := unbroken_of_scenarioChar run.results.args.scenario.accepted.2
  have stamp := unbroken_of_scenarioChar run.stamped
  have modes : Unbroken (modeName run.results.args.mode) := by
    apply unbroken_of_scenarioChar
    cases run.results.args.mode <;> decide
  have bar : Unbroken ['_'] := unbroken_of_all (by decide)
  have seed : Unbroken "_s".toList := unbroken_of_all (by decide)
  have process : Unbroken "_p".toList := unbroken_of_all (by decide)
  exact (((((((((name.append bar).append known).append bar).append
    modes).append seed).append (unbroken_decimal _)).append bar).append
    stamp).append process).append (unbroken_decimal _)

variable {invocation : Invocation}

/-- The exit status that the script notes is that of the start. -/
theorem returncode_runHarness
    {returncode : Int} {stdout : List Char} {trial : Trial}
    (exited : invocation.attempt = .exited returncode stdout)
    (read : runHarness spec scenario mode invocation = some trial) :
    trial.returncode = returncode := by
  unfold runHarness at read
  rw [exited] at read
  dsimp only at read
  split at read
  · cases read
    rfl
  · cases read
    rfl
  split at read
  · cases read
    rfl
  · cases read
    rfl
  · cases read
  split at read
  · cases read
    rfl
  · cases read
    rfl
  · cases read

/-- A run without a result never counts. -/
theorem ok_errorTrial (returncode : Int) :
    (errorTrial spec scenario mode returncode).ok = false :=
  rfl

/-- What is read where the harness names its file. -/
theorem runHarness_named
    (printable : Printable spec)
    {run : Completed (asked spec scenario mode numbers).args}
    {before after : List Char} (silent : resultPath after = none)
    (exited : invocation.attempt =
      .exited run.results.outcome.exitCode
        (before ++ "\nResult file: ".toList ++ run.path ++ '\n' :: after))
    (cut : ∀ content, invocation.files run.path = .text content →
      content <+: run.results.text) :
    runHarness spec scenario mode invocation =
      match invocation.files run.path with
      | .missing | .unreadable =>
          some (errorTrial spec scenario mode run.results.outcome.exitCode)
      | .undecodable => none
      | .text content =>
          if run.results.text.length ≤ content.length + 1 then
            some ⟨run.results.outcome.exitCode, run.results.values⟩
          else
            some (errorTrial spec scenario mode
              run.results.outcome.exitCode) := by
  have named : resultPath (before ++ "\nResult file: ".toList ++ run.path ++
      '\n' :: after) = some run.path :=
    resultPath_named before (printable.stem run) silent
  have some_ : run.path ≠ [] := List.cons_ne_nil _ _
  unfold runHarness
  rw [exited]
  dsimp only
  rw [named]
  generalize run.path = path at cut some_
  cases path with
  | nil => exact absurd rfl some_
  | cons char path =>
      dsimp only
      cases found : invocation.files (char :: path) with
      | missing => rfl
      | unreadable => rfl
      | undecodable => rfl
      | text content =>
          dsimp only
          rw [Results.loads_cut (printable.results run) (cut content found)]
          by_cases whole : run.results.text.length ≤ content.length + 1
          · rw [if_pos whole, if_pos whole]
          · rw [if_neg whole, if_neg whole]

/-- A run that was judged VALID is read as what its record says. -/
theorem Shows.read
    (printable : Printable spec)
    {ending : Ending (asked spec scenario mode numbers).args}
    (shows_ : Shows invocation ending) (valid : ending.Valid) :
    runHarness spec scenario mode invocation = some ⟨0, ending.values⟩ := by
  cases shows_ with
  | failed nameless => cases valid
  | garbled undecodable => cases valid
  | unnamed run stdout silent exited => cases valid
  | named run before after silent exited cut =>
      have read := runHarness_named printable silent exited cut
      generalize invocation.files run.path = file at read valid
      cases valid with
      | returned valid whole =>
          rw [read]
          dsimp only
          rw [if_pos whole, Outcome.exitCode, if_pos valid]
          rfl

/-- Nothing else counts. -/
theorem Shows.valid
    (printable : Printable spec)
    {ending : Ending (asked spec scenario mode numbers).args}
    (shows_ : Shows invocation ending) {trial : Trial}
    (read : runHarness spec scenario mode invocation = some trial)
    (ok : trial.ok = true) : ending.Valid := by
  have zero : trial.returncode = 0 := by
    rw [Trial.ok, Bool.and_eq_true, decide_eq_true_eq] at ok
    exact ok.2
  have noError (returncode : Int)
      (error : errorTrial spec scenario mode returncode = trial) : False := by
    rw [← error, ok_errorTrial] at ok
    cases ok
  cases shows_ with
  | failed nameless =>
      cases attempt : invocation.attempt with
      | timeout =>
          unfold runHarness at read
          rw [attempt] at read
          exact (noError _ (Option.some.inj read)).elim
      | undecodable =>
          unfold runHarness at read
          rw [attempt] at read
          cases read
      | exited returncode stdout =>
          have same := returncode_runHarness attempt read
          rw [zero] at same
          rw [← same] at attempt
          unfold runHarness at read
          rw [attempt] at read
          dsimp only at read
          rw [nameless stdout attempt] at read
          exact (noError _ (Option.some.inj read)).elim
  | garbled undecodable =>
      unfold runHarness at read
      rw [undecodable] at read
      cases read
  | unnamed run stdout silent exited =>
      unfold runHarness at read
      rw [exited] at read
      dsimp only at read
      rw [silent] at read
      exact (noError _ (Option.some.inj read)).elim
  | named run before after silent exited cut =>
      rw [runHarness_named printable silent exited cut] at read
      cases file : invocation.files run.path with
      | missing =>
          rw [file] at read
          exact (noError _ (Option.some.inj read)).elim
      | unreadable =>
          rw [file] at read
          exact (noError _ (Option.some.inj read)).elim
      | undecodable =>
          rw [file] at read
          cases read
      | text content =>
          rw [file] at read
          dsimp only at read
          split at read
          · rename_i whole
            rw [← Option.some.inj read, ok_values] at ok
            exact .returned ok.1 whole
          · exact (noError _ (Option.some.inj read)).elim

end Reads

/-! ## Computations over a list -/

section Lists

variable {α β : Type} {compute : α → Option β} {items : List α}
  {values : List β}

/-- They succeed together. -/
theorem exists_mapM
    (succeed : ∀ item ∈ items, ∃ value, compute item = some value) :
    ∃ values, items.mapM compute = some values := by
  induction items with
  | nil => exact ⟨[], rfl⟩
  | cons item items induction =>
      rw [List.forall_mem_cons] at succeed
      obtain ⟨value, first⟩ := succeed.1
      obtain ⟨values, rest⟩ := induction succeed.2
      exact ⟨value :: values, by rw [List.mapM_cons, first, rest]; rfl⟩

/-- Every item has its value, and every value its item. -/
theorem mapM_eq_some
    (succeeds : items.mapM compute = some values) :
    (∀ item ∈ items, ∃ value ∈ values, compute item = some value) ∧
      ∀ value ∈ values, ∃ item ∈ items, compute item = some value := by
  induction items generalizing values with
  | nil =>
      cases succeeds
      exact ⟨List.forall_mem_nil _, List.forall_mem_nil _⟩
  | cons item items induction =>
      rw [List.mapM_cons] at succeeds
      obtain ⟨value, first, rest⟩ := Option.bind_eq_some_iff.mp succeeds
      obtain ⟨later, behind, whole⟩ := Option.bind_eq_some_iff.mp rest
      cases whole
      obtain ⟨forward, backward⟩ := induction behind
      constructor
      · rintro item' (_ | ⟨_, member⟩)
        · exact ⟨value, List.mem_cons_self, first⟩
        · obtain ⟨value', member', computed⟩ := forward item' member
          exact ⟨value', List.mem_cons_of_mem _ member', computed⟩
      · rintro value' (_ | ⟨_, member⟩)
        · exact ⟨item, List.mem_cons_self, first⟩
        · obtain ⟨item', member', computed⟩ := backward value' member
          exact ⟨item', List.mem_cons_of_mem _ member', computed⟩

/-- A list of one value, however often it comes. -/
theorem length_dedup_eq_one
    [DecidableEq β] (some_ : values ≠ []) :
    values.dedup.length = 1 ↔ ∃ value, ∀ other ∈ values, other = value := by
  constructor
  · intro single
    obtain ⟨value, same⟩ := List.length_eq_one_iff.mp single
    refine ⟨value, fun other member => ?_⟩
    rw [← List.mem_dedup, same] at member
    exact List.mem_singleton.mp member
  · rintro ⟨value, same⟩
    have copies := List.eq_replicate_of_mem same
    have many : values.length ≠ 0 := fun none =>
      some_ (List.length_eq_zero_iff.mp none)
    rw [copies, List.replicate_dedup many]
    rfl

end Lists

theorem mapM_map_eq_some
    {α β γ : Type} {place : α → β} {compute : β → Option γ} {result : α → γ}
    {items : List α}
    (each : ∀ item ∈ items, compute (place item) = some (result item)) :
    (items.map place).mapM compute = some (items.map result) := by
  induction items with
  | nil => rfl
  | cons item items induction =>
      rw [List.forall_mem_cons] at each
      rw [List.map_cons, List.mapM_cons, each.1, induction each.2]
      rfl

/-! ## A challenge -/

/-- The endings of the runs of a challenge. -/
structure Endings (spec : List Char) (scenario : Scenario)
    (numbers : Numbers) where
  perf : Nat → Ending (asked spec scenario .perf numbers).args
  audit : Ending (asked spec scenario .audit numbers).args

/-- What the script gets to see of them. -/
structure Endings.Shown
    {spec : List Char} {scenario : Scenario} {numbers : Numbers}
    (endings : Endings spec scenario numbers) (perfRuns : Nat)
    (runs : Runs) : Prop where
  perf : ∀ i < perfRuns, Shows (runs.perf i) (endings.perf i)
  audit : Shows runs.audit endings.audit

/-- Every run was VALID, and the engine pushed the same in all of them. -/
structure Endings.Certified
    {spec : List Char} {scenario : Scenario} {numbers : Numbers}
    (endings : Endings spec scenario numbers) (perfRuns : Nat) : Prop where
  perf : ∀ i < perfRuns, (endings.perf i).Valid
  audit : endings.audit.Valid
  same : ∀ i < perfRuns,
    (endings.perf i).computed = endings.audit.computed

theorem Ending.Valid.record
    {args : Args} {ending : Ending args} (valid : ending.Valid) :
    ∃ r : Results, r.outcome.valid = true ∧ ending.values = r.values ∧
      ending.computed = r.computed := by
  cases valid with
  | returned valid whole => exact ⟨_, valid, rfl, rfl⟩

section Challenge

variable {ρ : Type} [LinearOrder ρ] {arithmetic : Arithmetic ρ}
  {spec : List Char} {scenario : Scenario} {numbers : Numbers}

/-- The verdict of a summary. -/
theorem summary_valid_iff
    {perf : List Trial} {audit : Trial} {cell : Cell ρ}
    (made : summary arithmetic spec scenario perf audit = some cell) :
    cell.valid = true ↔
      (∀ trial ∈ perf, trial.ok = true) ∧ audit.ok = true ∧
        ∃ hash, ∀ trial ∈ audit :: perf, trial.hash = some hash := by
  simp only [summary, Option.bind_eq_bind, Option.bind_eq_some_iff] at made
  obtain ⟨tputs, -, hashes, read, a, -, statuses, -, trades, -, same⟩ := made
  have gates := congrArg Cell.valid (Option.some.inj same)
  dsimp only at gates
  obtain ⟨forward, backward⟩ := mapM_eq_some read
  have order : ∀ trial, trial ∈ perf ++ [audit] ↔ trial ∈ audit :: perf := by
    intro trial
    rw [List.mem_append, List.mem_singleton, List.mem_cons, or_comm]
  have some_ : hashes ≠ [] := by
    obtain ⟨hash, member, -⟩ := forward audit
      ((order audit).mpr List.mem_cons_self)
    exact List.ne_nil_of_mem member
  rw [← gates, Bool.and_eq_true, Bool.and_eq_true, decide_eq_true_eq,
    List.all_eq_true, length_dedup_eq_one some_, and_assoc]
  refine and_congr_right' (and_congr_right' (exists_congr fun hash => ?_))
  constructor
  · intro all trial member
    obtain ⟨own, known, shows_⟩ := forward trial ((order trial).mpr member)
    rw [shows_, all own known]
  · intro all own known
    obtain ⟨trial, member, shows_⟩ := backward own known
    rw [all trial ((order trial).mp member)] at shows_
    exact (Option.some.inj shows_).symm

/-- Records of runs are summarised. -/
theorem exists_summary
    (arithmetic : Arithmetic ρ) (spec : List Char) (scenario : Scenario)
    {perf : List Trial} {audit : Trial}
    (records : ∀ trial ∈ audit :: perf, ∃ r : Results,
      trial = ⟨0, r.values⟩) :
    ∃ cell, summary arithmetic spec scenario perf audit = some cell := by
  have all {β : Type} {compute : Trial → Option β}
      (known : ∀ r : Results, ∃ value, compute ⟨0, r.values⟩ = some value)
      {trials : List Trial} (some_ : ∀ trial ∈ trials, trial ∈ audit :: perf) :
      ∃ values, trials.mapM compute = some values := by
    refine exists_mapM fun trial member => ?_
    obtain ⟨r, rfl⟩ := records trial (some_ trial member)
    exact known r
  obtain ⟨tputs, first⟩ := all
    (fun r => ⟨_, throughput_values r 0 arithmetic⟩)
    fun trial (member : trial ∈ perf.filter Trial.measured) =>
      List.mem_cons_of_mem _ (List.mem_filter.mp member).1
  obtain ⟨hashes, second⟩ := all (fun r => ⟨_, hash_values r 0⟩)
    fun trial (member : trial ∈ perf ++ [audit]) => by
      rw [List.mem_append, List.mem_singleton] at member
      exact List.mem_cons.mpr member.symm
  obtain ⟨statuses, third⟩ := all (fun r => ⟨_, status_values r 0⟩)
    fun trial (member : trial ∈ perf) => List.mem_cons_of_mem _ member
  have trades : ∃ trades, tradesOf perf = some trades := by
    cases perf with
    | nil => exact ⟨_, rfl⟩
    | cons trial perf =>
        obtain ⟨r, rfl⟩ := records trial
          (List.mem_cons_of_mem _ List.mem_cons_self)
        exact ⟨_, by rw [tradesOf, reports_values]; rfl⟩
  obtain ⟨trades, fourth⟩ := trades
  obtain ⟨last, rfl⟩ := records audit List.mem_cons_self
  rw [← Option.isSome_iff_exists, summary, first, second, audit_values, third,
    fourth]
  rfl

/-- What the verdict on an engine and a scenario says about the runs. -/
theorem challenge_valid_iff
    (arithmetic : Arithmetic ρ) (printable : Printable spec)
    {endings : Endings spec scenario numbers} {runs : Runs}
    {perfRuns : Nat} (shown : endings.Shown perfRuns runs) :
    (∃ cell, challenge arithmetic spec scenario perfRuns runs = some cell ∧
        cell.valid = true) ↔
      endings.Certified perfRuns := by
  have hash {args : Args} {ending : Ending args} (valid : ending.Valid) :
      Trial.hash ⟨0, ending.values⟩ = some ending.computed := by
    obtain ⟨r, -, values, computed⟩ := valid.record
    rw [values, computed, hash_values]
  constructor
  · rintro ⟨cell, made, valid⟩
    simp only [challenge, Option.bind_eq_bind, Option.bind_eq_some_iff]
      at made
    obtain ⟨perf, readPerf, audit, readAudit, made⟩ := made
    obtain ⟨oks, okAudit, digest, same⟩ := (summary_valid_iff made).mp valid
    have validAudit := shown.audit.valid printable readAudit okAudit
    have audited := shown.audit.read printable validAudit
    rw [readAudit] at audited
    have digestAudit := same audit List.mem_cons_self
    rw [Option.some.inj audited, hash validAudit] at digestAudit
    have each : ∀ i < perfRuns, (endings.perf i).Valid ∧
        (endings.perf i).computed = digest := by
      intro i below
      obtain ⟨trial, member, read⟩ :=
        (mapM_eq_some readPerf).1 i (List.mem_range.mpr below)
      have shows_ := shown.perf i below
      have validPerf := shows_.valid printable read (oks trial member)
      have known := shows_.read printable validPerf
      rw [read] at known
      have digestPerf := same trial (List.mem_cons_of_mem _ member)
      rw [Option.some.inj known, hash validPerf] at digestPerf
      exact ⟨validPerf, Option.some.inj digestPerf⟩
    exact
      { perf := fun i below => (each i below).1
        audit := validAudit
        same := fun i below =>
          (each i below).2.trans (Option.some.inj digestAudit).symm }
  · intro certified
    have readAudit := shown.audit.read printable certified.audit
    have readPerf : ∀ i ∈ List.range perfRuns,
        runHarness spec scenario .perf (runs.perf i) =
          some ⟨0, (endings.perf i).values⟩ := fun i member =>
      (shown.perf i (List.mem_range.mp member)).read printable
        (certified.perf i (List.mem_range.mp member))
    obtain ⟨perf, read⟩ := exists_mapM fun i member =>
      ⟨_, readPerf i member⟩
    have sources : ∀ trial ∈ perf, ∃ i < perfRuns,
        trial = ⟨0, (endings.perf i).values⟩ := by
      intro trial member
      obtain ⟨i, below, shows_⟩ := (mapM_eq_some read).2 trial member
      rw [readPerf i below] at shows_
      exact ⟨i, List.mem_range.mp below, (Option.some.inj shows_).symm⟩
    obtain ⟨last, validLast, valuesLast, -⟩ := certified.audit.record
    obtain ⟨cell, made⟩ := @exists_summary ρ _ arithmetic spec scenario perf
      ⟨0, endings.audit.values⟩ <| by
        refine List.forall_mem_cons.mpr ⟨⟨last, by rw [valuesLast]⟩, ?_⟩
        intro trial member
        obtain ⟨i, below, rfl⟩ := sources trial member
        obtain ⟨r, -, values, -⟩ := (certified.perf i below).record
        exact ⟨r, by rw [values]⟩
    refine ⟨cell, ?_, (summary_valid_iff made).mpr ⟨?_, ?_, ?_⟩⟩
    · rw [challenge, read, readAudit]
      exact made
    · intro trial member
      obtain ⟨i, below, rfl⟩ := sources trial member
      obtain ⟨r, valid, values, -⟩ := (certified.perf i below).record
      rw [values, ok_values]
      exact ⟨valid, rfl⟩
    · rw [valuesLast, ok_values]
      exact ⟨validLast, rfl⟩
    · refine ⟨endings.audit.computed, List.forall_mem_cons.mpr
        ⟨hash certified.audit, ?_⟩⟩
      intro trial member
      obtain ⟨i, below, rfl⟩ := sources trial member
      rw [hash (certified.perf i below), certified.same i below]

end Challenge

/-! ## The labels -/

theorem collision_eq_none_iff
    (seen : List (List Char × List Char)) (engines : List (List Char)) :
    collision seen engines = none ↔
      (∀ e ∈ engines, seen.lookup (engineLabel e) = none) ∧
        (engines.map engineLabel).Nodup := by
  induction engines generalizing seen with
  | nil => exact iff_of_true rfl ⟨List.forall_mem_nil _, List.nodup_nil⟩
  | cons e engines induction =>
      unfold collision
      dsimp only
      rw [List.forall_mem_cons, List.map_cons, List.nodup_cons]
      cases known : seen.lookup (engineLabel e) with
      | some first =>
          exact iff_of_false (Option.some_ne_none _) fun all =>
            Option.some_ne_none _ all.1.1
      | none =>
          dsimp only
          rw [induction]
          have later (other : List Char) :
              ((engineLabel e, e) :: seen).lookup (engineLabel other) = none ↔
                engineLabel other ≠ engineLabel e ∧
                  seen.lookup (engineLabel other) = none := by
            by_cases same : engineLabel other = engineLabel e
            · rw [List.lookup_cons, beq_iff_eq.mpr same]
              exact iff_of_false (Option.some_ne_none _) fun all =>
                all.1 same
            · rw [List.lookup_cons, beq_false_of_ne same]
              exact (and_iff_right same).symm
          simp only [later, List.mem_map, not_exists, not_and]
          constructor
          · rintro ⟨new, distinct⟩
            exact ⟨⟨trivial, fun other member => (new other member).2⟩,
              fun other member => (new other member).1, distinct⟩
          · rintro ⟨⟨-, free⟩, new, distinct⟩
            exact ⟨fun other member => ⟨new other member, free other member⟩,
              distinct⟩

/-! ## The grid -/

section Grid

variable {ρ : Type} [LinearOrder ρ] {arithmetic : Arithmetic ρ}
  {perfRuns : Nat} {runs : List Char → Scenario → Runs}

/-- The cell of an engine and a scenario. -/
def keyOf (pair : List Char × Scenario) : List Char × List Char :=
  (engineLabel pair.1, pair.2.name)

/-- The grid that the loops leave. -/
structure Filled
    (arithmetic : Arithmetic ρ) (perfRuns : Nat)
    (runs : List Char → Scenario → Runs)
    (pairs : List (List Char × Scenario)) (before after : Grid ρ) :
    Prop where
  /-- What is set is the summary of a pair. -/
  source : ∀ key cell, after.get key = some cell →
    before.get key = some cell ∨ ∃ pair ∈ pairs, keyOf pair = key ∧
      challenge arithmetic pair.1 pair.2 perfRuns (runs pair.1 pair.2) =
        some cell
  /-- Every pair is summarised, by itself or by another one of its key. -/
  summarised : ∀ pair ∈ pairs, ∃ cell, after.get (keyOf pair) = some cell ∧
    ∃ other ∈ pairs, keyOf other = keyOf pair ∧
      challenge arithmetic other.1 other.2 perfRuns (runs other.1 other.2) =
        some cell
  kept : ∀ key, (∀ pair ∈ pairs, keyOf pair ≠ key) →
    after.get key = before.get key

theorem fillGrid_eq_some
    {pairs : List (List Char × Scenario)} {before after : Grid ρ}
    (filled : fillGrid arithmetic perfRuns runs pairs before = some after) :
    Filled arithmetic perfRuns runs pairs before after := by
  induction pairs generalizing before with
  | nil =>
      cases filled
      exact
        { source := fun key cell found => Or.inl found
          summarised := List.forall_mem_nil _
          kept := fun key other => rfl }
  | cons pair pairs induction =>
      obtain ⟨e, s⟩ := pair
      unfold fillGrid at filled
      obtain ⟨cell, made, filled⟩ := Option.bind_eq_some_iff.mp filled
      have rest := induction filled
      have set_ (key : List Char × List Char) :
          (before.set (engineLabel e, s.name) cell).get key =
            if key = keyOf (e, s) then some cell else before.get key := by
        rw [HashMap.get_set, Function.update_apply]
        rfl
      refine ⟨fun key found held => ?_, ?_, fun key other => ?_⟩
      · rcases rest.source key found held with earlier | ⟨p, member, at_⟩
        · rw [set_] at earlier
          split at earlier
          · rename_i own
            cases earlier
            exact Or.inr ⟨(e, s), List.mem_cons_self, own.symm, made⟩
          · exact Or.inl earlier
        · exact Or.inr ⟨p, List.mem_cons_of_mem _ member, at_⟩
      · refine List.forall_mem_cons.mpr ⟨?_, fun p member => ?_⟩
        · by_cases again : ∃ p ∈ pairs, keyOf p = keyOf (e, s)
          · obtain ⟨p, member, same⟩ := again
            obtain ⟨found, held, other, known, key, source⟩ :=
              rest.summarised p member
            rw [same] at held key
            exact ⟨found, held, other, List.mem_cons_of_mem _ known, key,
              source⟩
          · have kept := rest.kept (keyOf (e, s)) fun p member same =>
              again ⟨p, member, same⟩
            rw [set_, if_pos rfl] at kept
            exact ⟨cell, kept, (e, s), List.mem_cons_self, rfl, made⟩
        · obtain ⟨found, held, other, known, key, source⟩ :=
            rest.summarised p member
          exact ⟨found, held, other, List.mem_cons_of_mem _ known, key,
            source⟩
      · rw [List.forall_mem_cons] at other
        rw [rest.kept key other.2, set_, if_neg (Ne.symm other.1)]

theorem exists_fillGrid
    {pairs : List (List Char × Scenario)} (before : Grid ρ)
    (made : ∀ pair ∈ pairs, ∃ cell,
      challenge arithmetic pair.1 pair.2 perfRuns (runs pair.1 pair.2) =
        some cell) :
    ∃ after, fillGrid arithmetic perfRuns runs pairs before = some after := by
  induction pairs generalizing before with
  | nil => exact ⟨before, rfl⟩
  | cons pair pairs induction =>
      rw [List.forall_mem_cons] at made
      obtain ⟨cell, first⟩ := made.1
      obtain ⟨after, rest⟩ :=
        induction (before.set (engineLabel pair.1, pair.2.name) cell) made.2
      refine ⟨after, ?_⟩
      unfold fillGrid
      rw [first]
      exact rest

end Grid

/-! ## The exit status -/

theorem mem_pairs
    {engines : List (List Char)} {scenarios : List Scenario}
    {pair : List Char × Scenario} :
    pair ∈ pairs engines scenarios ↔
      pair.1 ∈ engines ∧ pair.2 ∈ scenarios := by
  obtain ⟨e, s⟩ := pair
  simp [pairs]

theorem all_valid_iff {ρ : Type} (grid : Grid ρ) :
    (grid.entries.all fun entry => entry.2.valid) = true ↔
      ∀ key cell, grid.get key = some cell → cell.valid = true := by
  rw [List.all_eq_true]
  constructor
  · intro all key cell found
    exact all ⟨key, cell⟩ ((HashMap.mem_entries grid key cell).mpr found)
  · rintro all ⟨key, cell⟩ member
    exact all key cell ((HashMap.mem_entries grid key cell).mp member)

/-- Pairs of distinct labels have cells of their own. -/
theorem keyOf_injective
    {engines : List (List Char)}
    (distinct : (engines.map engineLabel).Nodup)
    {left right : List Char × Scenario} (known : left.1 ∈ engines)
    (other : right.1 ∈ engines) (same : keyOf left = keyOf right) :
    left = right := by
  rw [keyOf, keyOf, Prod.mk.injEq] at same
  obtain ⟨e, s, named⟩ := left
  obtain ⟨f, t, named'⟩ := right
  obtain ⟨labels, names⟩ := same
  have engine := List.inj_on_of_nodup_map distinct known other labels
  dsimp only at engine names
  subst engine names
  rfl

section Exit

variable {ρ : Type} [LinearOrder ρ] (arithmetic : Arithmetic ρ)

/-- The grid of distinct labels holds the verdicts on all pairs. -/
theorem exists_valid_grid_iff
    {engines : List (List Char)} {scenarios : List Scenario}
    (distinct : (engines.map engineLabel).Nodup) (perfRuns : Nat)
    (runs : List Char → Scenario → Runs) :
    (∃ grid, fillGrid arithmetic perfRuns runs (pairs engines scenarios) ∅ =
        some grid ∧
      (grid.entries.all fun entry => entry.2.valid) = true) ↔
      ∀ e ∈ engines, ∀ s ∈ scenarios, ∃ cell,
        challenge arithmetic e s perfRuns (runs e s) = some cell ∧
          cell.valid = true := by
  constructor
  · rintro ⟨grid, filled, valid⟩ e known s asked
    rw [all_valid_iff] at valid
    obtain ⟨cell, found, other, member, same, made⟩ :=
      (fillGrid_eq_some filled).summarised (e, s)
        (mem_pairs.mpr ⟨known, asked⟩)
    rw [keyOf_injective distinct (mem_pairs.mp member).1 known same] at made
    exact ⟨cell, made, valid _ cell found⟩
  · intro all
    have made : ∀ pair ∈ pairs engines scenarios, ∃ cell,
        challenge arithmetic pair.1 pair.2 perfRuns (runs pair.1 pair.2) =
          some cell := by
      intro pair member
      obtain ⟨known, asked⟩ := mem_pairs.mp member
      obtain ⟨cell, made, -⟩ := all pair.1 known pair.2 asked
      exact ⟨cell, made⟩
    obtain ⟨grid, filled⟩ := exists_fillGrid ∅ made
    refine ⟨grid, filled, (all_valid_iff grid).mpr fun key cell found => ?_⟩
    rcases (fillGrid_eq_some filled).source key cell found with
      earlier | ⟨pair, member, -, made⟩
    · rw [HashMap.get_empty] at earlier
      cases earlier
    · obtain ⟨known, asked⟩ := mem_pairs.mp member
      obtain ⟨own, made', valid⟩ := all pair.1 known pair.2 asked
      rw [made] at made'
      rw [Option.some.inj made']
      exact valid

variable {numbers : Numbers} (request : Request) (harnessBuilt : Bool)
  {runs : List Char → Scenario → Runs} {endings : ∀ e s, Endings e s numbers}
  (printable : ∀ e ∈ request.engines, Printable e)
  (shown : ∀ e ∈ request.engines, ∀ s ∈ request.scenarios,
    (endings e s).Shown request.perfRuns.toNat (runs e s))
include printable shown

theorem exitStatus_eq_zero_iff :
    exitStatus arithmetic request harnessBuilt runs = 0 ↔
      1 ≤ request.perfRuns ∧ harnessBuilt = true ∧
        (request.engines.map engineLabel).Nodup ∧
        ∀ e ∈ request.engines, ∀ s ∈ request.scenarios,
          (endings e s).Certified request.perfRuns.toNat := by
  unfold exitStatus
  split
  · rename_i few
    exact iff_of_false (by decide) fun all => by omega
  rename_i enough
  split
  · rename_i missing
    rw [missing]
    exact iff_of_false (by decide) fun all => Bool.false_ne_true all.2.1
  rename_i built
  rw [Bool.not_eq_false] at built
  split
  · rename_i collides
    refine iff_of_false (by decide) fun all => ?_
    rw [(collision_eq_none_iff [] request.engines).mpr
      ⟨fun _ _ => rfl, all.2.2.1⟩] at collides
    cases collides
  rename_i free
  rw [Bool.not_eq_true, Option.isSome_eq_false_iff, Option.isNone_iff_eq_none]
    at free
  have distinct := ((collision_eq_none_iff [] request.engines).mp free).2
  have certified : (∀ e ∈ request.engines, ∀ s ∈ request.scenarios, ∃ cell,
      challenge arithmetic e s request.perfRuns.toNat (runs e s) =
          some cell ∧ cell.valid = true) ↔
        ∀ e ∈ request.engines, ∀ s ∈ request.scenarios,
          (endings e s).Certified request.perfRuns.toNat :=
    forall₂_congr fun e known => forall₂_congr fun s asked =>
      challenge_valid_iff arithmetic (printable e known) (shown e known s asked)
  rw [← certified, ← exists_valid_grid_iff arithmetic distinct]
  unfold Request.grid
  cases fillGrid arithmetic request.perfRuns.toNat runs
      (pairs request.engines request.scenarios) ∅ with
  | none =>
      refine iff_of_false Nat.one_ne_zero fun all => ?_
      obtain ⟨grid, made, -⟩ := all.2.2.2
      cases made
  | some grid =>
      dsimp only
      split
      · rename_i valid
        exact iff_of_true rfl ⟨by omega, built, distinct, grid, rfl, valid⟩
      · rename_i invalid
        refine iff_of_false Nat.one_ne_zero fun all => ?_
        obtain ⟨other, same, valid⟩ := all.2.2.2
        rw [← Option.some.inj same] at valid
        exact invalid valid

end Exit

/-! ## Conforming engines -/

/-- A run of a conforming engine, against a hash and a baseline that conform. -/
structure Completed.Conforming
    {args : Args} (run : Completed args)
    (mt19937_64 : UInt64 → Nat → UInt64) (workload : Workload) : Prop where
  loaded : run.workload = workload.msgs
  conforms : Conforms run.engine workload.msgs
  baseline : ∃ (τ : Type) (baseline : Engine τ),
    Conforms baseline workload.msgs ∧
      run.baselines (baseName args.engineName) = .loads baseline.toEngineLib
  written : Wrote mt19937_64 workload args.wantTag run.preRead
  picked : Picked mt19937_64 run.machine workload.msgs run.auditIdx
  drained : Drained (run.engine.pushed (engineEnd run.engine args.mode
    run.machine.initNonce workload.msgs run.auditIdx)) run.drain

/-- The start came to such a run. -/
inductive Ending.Conforming
    (mt19937_64 : UInt64 → Nat → UInt64) (workload : Workload) {args : Args} :
    Ending args → Prop where
  | returned
      {run : Completed args} {file : FileState}
      (conforming : run.Conforming mt19937_64 workload) :
      Conforming mt19937_64 workload (.returned run file)

/-- The threads were pinned, the clocks kept their bounds, the disk its file. -/
inductive Ending.Measured {args : Args} : Ending args → Prop where
  | returned
      {run : Completed args} {content : List Char}
      (pinned : run.results.outcome.affinityOk = true)
      (translated : run.results.outcome.prebuildTimeOk = true)
      (probed : run.results.outcome.probeTimeOk = true)
      (whole : run.results.text.length ≤ content.length + 1) :
      Measured (.returned run (.text content))

section Conforming

variable {mt19937_64 : UInt64 → Nat → UInt64} {workload : Workload}
  {spec : List Char} {scenario : Scenario} {mode : Mode} {numbers : Numbers}
  {ending : Ending (asked spec scenario mode numbers).args}

/-- Only the measurement can gate the run of a conforming engine. -/
theorem Ending.Conforming.valid_iff
    (conforming : ending.Conforming mt19937_64 workload) :
    ending.Valid ↔ ending.Measured := by
  cases conforming with
  | returned conforming =>
      rename_i run file
      obtain ⟨machine, preRead, reRead, messages, engine, baselines, auditIdx,
        drain, readings, timestamp, pid, stamped⟩ := run
      obtain ⟨rfl, conforms, ⟨τ, baseline, replayed, built⟩, written, picked,
        drained⟩ := conforming
      obtain ⟨-, -, gated⟩ := conforms.judgedValid replayed built rfl machine
        preRead reRead auditIdx drain written picked drained
      constructor
      · intro valid
        cases valid with
        | returned valid whole =>
            obtain ⟨pinned, translated, probed, -⟩ := gated.mp valid
            exact .returned pinned translated probed whole
      · intro measured
        cases measured with
        | returned pinned translated probed whole =>
            exact .returned (gated.mpr ⟨pinned, translated, probed, rfl⟩)
              whole

/-- Conforming engines push the same. -/
theorem Ending.Conforming.computed
    (conforming : ending.Conforming mt19937_64 workload) :
    ending.computed =
      (canonicalDigest (reportsOf (messagesOf workload.msgs))).hex := by
  cases conforming with
  | returned conforming =>
      rename_i run file
      obtain ⟨machine, preRead, reRead, messages, engine, baselines, auditIdx,
        drain, readings, timestamp, pid, stamped⟩ := run
      obtain ⟨rfl, conforms, -, -, picked, drained⟩ := conforming
      obtain ⟨ascending, below, -, -⟩ := picked.spec
      have pushed := conforms.engineEnd mode machine.initNonce ascending below
      change (Correctness.computeCanonicalHash sha256HexOf
        drain.collected).1.toList = _
      rw [drained.collected, computed_eq]
      exact canonicalDigest_eq_iff.mpr (congrArg Canonical.Sha256.sha256
        (canonicalBytes_eq_iff.mpr pushed.1))

end Conforming

/-! ## A quiet challenge -/

/-- Throughputs as lengths of texts. -/
def lengths : Arithmetic Nat where
  millions := List.length
  mean a b := (a + b) / 2
  pstdev _ := 0
  zero := 0

/-- Two baselines in all scenarios, with two perf runs each. -/
def rivalsRequest : Request where
  engines := ["liquibook".toList, "quantcup".toList]
  scenario := none
  allScenarios := false
  perfRuns := 2
  choice := nofun

theorem printable_rivals :
    ∀ e ∈ rivalsRequest.engines, Printable e := by
  intro e known
  have all : (rivalsRequest.engines.all fun e => e.all fun char =>
      plain char && !breaks char) = true := by
    decide
  intro char member
  have own := List.all_eq_true.mp (List.all_eq_true.mp all e known) char member
  rw [Bool.and_eq_true, Bool.not_eq_true'] at own
  exact own

/-- A quiet run of an engine that is handed runs, published in `file`. -/
def quietRun
    (file : Scenario → Option (List Char)) (drain : Mode → DrainState)
    (args : Args) : Completed args where
  machine := quietMachine
  preRead := file args.scenario
  reRead := none
  workload := crossing.msgs
  engine := recomputing
  baselines := onlyReference
  auditIdx := [0, 1, 2, 3, 4]
  drain := drain args.mode
  readings := noReadings
  timestamp := "20260101T000000".toList
  pid := 1
  stamped := by decide

/-- What the script sees of a run that leaves its whole record. -/
def invocationOf {args : Args} (run : Completed args) : Invocation where
  attempt := .exited run.results.outcome.exitCode
    ([] ++ "\nResult file: ".toList ++ run.path ++ '\n' :: [])
  files _ := .text run.results.text

theorem shows_invocationOf {args : Args} (run : Completed args) :
    Shows (invocationOf run) (.returned run (.text run.results.text)) :=
  .named run [] [] rfl rfl fun content same => by
    cases same
    exact List.prefix_refl _

/-- The count of a short workload. -/
def fewOrders : Numbers :=
  ⟨none, some 5, none, none⟩

/-- Such runs, with hashes that the reference wrote. -/
theorem exists_quietRun :
    ∃ file drain, ∀ e, ∀ s ∈ SCENARIOS, ∀ mode,
      (quietRun file drain (asked e s mode fewOrders).args).Conforming
        counting crossing := by
  have reference := referenceEngine_conforms crossing.msgs
  have readable : ∀ s ∈ SCENARIOS,
      Readable (asked [] s .perf fewOrders).args.wantTag := by
    intro s known
    refine (readable_wantTag_iff _ _ _).mpr ?_
    revert s
    decide
  have written (s : Scenario) : ∃ file, s ∈ SCENARIOS →
      Wrote counting crossing (asked [] s .perf fewOrders).args.wantTag
        file := by
    by_cases known : s ∈ SCENARIOS
    · obtain ⟨file, written⟩ :=
        exists_wrote reference picked_crossing (readable s known)
      exact ⟨file, fun _ => written⟩
    · exact ⟨none, fun other => absurd other known⟩
  choose file written using written
  choose drain drained using fun mode => exists_drained
    (recomputing.pushed (engineEnd recomputing mode
      quietMachine.initNonce crossing.msgs [0, 1, 2, 3, 4]))
  refine ⟨file, drain, fun e s known mode => ?_⟩
  exact
    { loaded := rfl
      conforms := recomputing_conforms crossing.msgs
      baseline := ⟨_, referenceEngine, reference, rfl⟩
      written := written s known
      picked := picked_crossing
      drained := drained mode }

section Quiet

variable (file : Scenario → Option (List Char)) (drain : Mode → DrainState)
  (e : List Char) (s : Scenario)

/-- The starts of a challenge that come to quiet runs. -/
def quietRuns : Runs where
  perf _ := invocationOf (quietRun file drain (asked e s .perf fewOrders).args)
  audit :=
    invocationOf (quietRun file drain (asked e s .audit fewOrders).args)

/-- How they end. -/
def quietEndings : Endings e s fewOrders where
  perf _ :=
    .returned (quietRun file drain (asked e s .perf fewOrders).args)
      (.text (quietRun file drain
        (asked e s .perf fewOrders).args).results.text)
  audit :=
    .returned (quietRun file drain (asked e s .audit fewOrders).args)
      (.text (quietRun file drain
        (asked e s .audit fewOrders).args).results.text)

theorem shown_quietEndings (perfRuns : Nat) :
    (quietEndings file drain e s).Shown perfRuns
      (quietRuns file drain e s) where
  perf _ _ := shows_invocationOf _
  audit := shows_invocationOf _

/-- Nothing gates a quiet run. -/
theorem measured_quietRun (args : Args)
    (exports : args.canonicalOutput = false) :
    (Ending.returned (quietRun file drain args)
      (.text (quietRun file drain args).results.text)).Measured := by
  obtain ⟨pinned, translated, probed, -⟩ := judge_quietMachine exports
    (file args.scenario) none crossing.msgs
    (observe recomputing args.mode quietMachine.initNonce crossing.msgs
      [0, 1, 2, 3, 4]) onlyReference (drain args.mode)
  exact .returned pinned translated probed (Nat.le_succ _)

end Quiet

/-- Quiet runs of conforming engines are certified. -/
theorem certified_quietEndings
    {file : Scenario → Option (List Char)} {drain : Mode → DrainState}
    {e : List Char} {s : Scenario}
    (conforming : ∀ mode,
      (quietRun file drain (asked e s mode fewOrders).args).Conforming
        counting crossing) (perfRuns : Nat) :
    (quietEndings file drain e s).Certified perfRuns where
  perf _ _ :=
    (Ending.Conforming.returned (conforming .perf)).valid_iff.mpr
      (measured_quietRun file drain _ rfl)
  audit :=
    (Ending.Conforming.returned (conforming .audit)).valid_iff.mpr
      (measured_quietRun file drain _ rfl)
  same _ _ :=
    (Ending.Conforming.returned (conforming .perf)).computed.trans
      (Ending.Conforming.returned (conforming .audit)).computed.symm

/-- Starts that never come to an end. -/
def hanging : Runs where
  perf _ := ⟨.timeout, fun _ => .missing⟩
  audit := ⟨.timeout, fun _ => .missing⟩

theorem shown_hanging
    (e : List Char) (s : Scenario) (numbers : Numbers) (perfRuns : Nat) :
    (⟨fun _ => .failed, .failed⟩ : Endings e s numbers).Shown perfRuns
      hanging where
  perf _ _ := .failed fun _ => nofun
  audit := .failed fun _ => nofun

/-! ## What a challenge certifies -/

section Exit

variable {ρ : Type} [LinearOrder ρ] (arithmetic : Arithmetic ρ)
  {numbers : Numbers} (request : Request) (harnessBuilt : Bool)
  {runs : List Char → Scenario → Runs} {endings : ∀ e s, Endings e s numbers}

/--
A challenge exits with 0 exactly when there is a perf run at least, the harness
is built, no two engines share a label, and for every engine and every scenario
all perf runs and the audit run were judged VALID, exited with 0 and left the
whole of their records, and the engine pushed the same in all of them.  That is
so however the other starts end: killed, crashed before or behind their record,
cut off in the middle of it, without a file or with output that is no text.
-/
theorem challenge_certifies
    (printable : ∀ e ∈ request.engines, Printable e)
    (shown : ∀ e ∈ request.engines, ∀ s ∈ request.scenarios,
      (endings e s).Shown request.perfRuns.toNat (runs e s)) :
    exitStatus arithmetic request harnessBuilt runs = 0 ↔
      1 ≤ request.perfRuns ∧ harnessBuilt = true ∧
        (request.engines.map engineLabel).Nodup ∧
        ∀ e ∈ request.engines, ∀ s ∈ request.scenarios,
          (endings e s).Certified request.perfRuns.toNat :=
  exitStatus_eq_zero_iff arithmetic request harnessBuilt printable shown

end Exit

/--
Two engines whose runs are all quiet are certified in all scenarios; where one
of them hangs the challenge fails.
-/
theorem challenge_certifies_rivals :
    ∃ runs : List Char → Scenario → Runs,
      exitStatus lengths rivalsRequest true runs = 0 ∧
        exitStatus lengths rivalsRequest true
          (fun e s => if e = "quantcup".toList then hanging else runs e s) ≠
            0 := by
  obtain ⟨file, drain, conforming⟩ := exists_quietRun
  refine ⟨quietRuns file drain, ?_, fun exits => ?_⟩
  · refine (challenge_certifies lengths rivalsRequest true printable_rivals
      (fun e _ s _ => shown_quietEndings file drain e s _)).mpr
      ⟨by decide, rfl, by decide, fun e _ s asked => ?_⟩
    exact certified_quietEndings (conforming e s asked) _
  · let endings (e : List Char) (s : Scenario) : Endings e s fewOrders :=
      if e = "quantcup".toList then ⟨fun _ => .failed, .failed⟩
      else quietEndings file drain e s
    have shown : ∀ e ∈ rivalsRequest.engines,
        ∀ s ∈ rivalsRequest.scenarios,
        (endings e s).Shown rivalsRequest.perfRuns.toNat
          (if e = "quantcup".toList then hanging
            else quietRuns file drain e s) := by
      intro e _ s _
      dsimp only [endings]
      split
      · exact shown_hanging e s _ _
      · exact shown_quietEndings file drain e s _
    have certified := ((challenge_certifies lengths rivalsRequest true
      printable_rivals shown).mp exits).2.2.2 "quantcup".toList (by decide)
      ⟨"normal".toList, normal_accepted⟩
      (List.mem_map.mpr ⟨⟨"normal".toList, by decide⟩,
        List.mem_attach _ _, rfl⟩)
    cases certified.audit

section Exit

variable {ρ : Type} [LinearOrder ρ] (arithmetic : Arithmetic ρ)

/--
A challenge of conforming engines, whose starts all come to an end, exits with 0
exactly when no measurement was gated and every record reached the disk; as
always there has to be a perf run, a harness, and a label for each engine.
-/
theorem conforming_challenge
    {numbers : Numbers} (request : Request) (harnessBuilt : Bool)
    {runs : List Char → Scenario → Runs}
    {endings : ∀ e s, Endings e s numbers}
    (printable : ∀ e ∈ request.engines, Printable e)
    (shown : ∀ e ∈ request.engines, ∀ s ∈ request.scenarios,
      (endings e s).Shown request.perfRuns.toNat (runs e s))
    {mt19937_64 : UInt64 → Nat → UInt64} {workloads : Scenario → Workload}
    (perf : ∀ e ∈ request.engines, ∀ s ∈ request.scenarios,
      ∀ i < request.perfRuns.toNat,
        ((endings e s).perf i).Conforming mt19937_64 (workloads s))
    (audit : ∀ e ∈ request.engines, ∀ s ∈ request.scenarios,
      (endings e s).audit.Conforming mt19937_64 (workloads s)) :
    exitStatus arithmetic request harnessBuilt runs = 0 ↔
      1 ≤ request.perfRuns ∧ harnessBuilt = true ∧
        (request.engines.map engineLabel).Nodup ∧
        ∀ e ∈ request.engines, ∀ s ∈ request.scenarios,
          (∀ i < request.perfRuns.toNat,
            ((endings e s).perf i).Measured) ∧
            (endings e s).audit.Measured := by
  rw [exitStatus_eq_zero_iff arithmetic request harnessBuilt printable shown]
  refine and_congr_right' (and_congr_right' (and_congr_right' ?_))
  refine forall₂_congr fun e known => forall₂_congr fun s asked => ?_
  have each := perf e known s asked
  have last := audit e known s asked
  constructor
  · intro certified
    exact ⟨fun i below => (each i below).valid_iff.mp (certified.perf i below),
      last.valid_iff.mp certified.audit⟩
  · rintro ⟨measured, final⟩
    exact
      { perf := fun i below => (each i below).valid_iff.mpr (measured i below)
        audit := last.valid_iff.mpr final
        same := fun i below => by
          rw [(each i below).computed, last.computed] }

end Exit

/-- Two engines pass the challenge against a hash and answers not their own. -/
theorem conforming_challenge_rivals :
    ∃ runs, exitStatus lengths rivalsRequest true runs = 0 := by
  obtain ⟨file, drain, conforming⟩ := exists_quietRun
  refine ⟨quietRuns file drain, (@conforming_challenge Nat _ lengths fewOrders
    rivalsRequest true _ (quietEndings file drain) printable_rivals
    (fun e _ s _ => shown_quietEndings file drain e s _)
    counting (fun _ => crossing) ?_ ?_).mpr
    ⟨by decide, rfl, by decide, ?_⟩⟩
  · intro e _ s asked i _
    exact .returned (conforming e s asked .perf)
  · intro e _ s asked
    exact .returned (conforming e s asked .audit)
  · intro e _ s asked
    exact ⟨fun i _ => measured_quietRun file drain _ rfl,
      measured_quietRun file drain _ rfl⟩

end MatchingBench.Scripts.ChallengeVerdict
