import MatchingBench.Harness.ReferenceHash
import MatchingBench.Lib.Shell
import MatchingBench.Workload.Loaded

/-!
# The cached workload files

The harness keeps one workload file for each scenario, seed and count and has
the generator write it when it is not there.  Whatever has been run in a
directory, and however writes were cut off, a file is only ever loaded for the
key it was generated for.
-/

set_option autoImplicit false

namespace MatchingBench.Harness.WorkloadCache

open MatchingBench.Harness.Marshalling
open MatchingBench.Harness.ReferenceHash (scenarioChar)
open MatchingBench.Lib.DecimalText
open MatchingBench.Lib.Shell
open MatchingBench.Lib.Stdio
open MatchingBench.Lib.TextScan (split_last)
open MatchingBench.Workload.File
open MatchingBench.Workload.Generator
open MatchingBench.Workload.Loaded
open MatchingBench.Workload.Structure (halves steady threeOrders)

/-- The files of the working directory, by name. -/
abbrev Directory : Type :=
  List Char → Option (List UInt8)

/-! ## `generator` -/

/-- `SCENARIOS`, by name. -/
def scenarios : List (List Char × Scenario) :=
  [("static".toList, .static),
    ("normal".toList, .normal),
    ("swing-25".toList, .swing25),
    ("swing-40".toList, .swing40),
    ("flash-crash".toList, .flashCrash)]

/-- `DEFAULT_SEED`. -/
def defaultSeed : UInt64 := 23

/-- `std::strtoull` in base ten. -/
def strtoull (text : List Char) : UInt64 :=
  ((scanUInt64 text).map Prod.fst).getD 0

/-- A number on the command line, if it is given. -/
def argument (args : List (List Char)) (i : Nat) (default : UInt64) :
    UInt64 :=
  ((args[i]?).map strtoull).getD default

/-- What the checks of `main` leave. -/
structure Accepted where
  request : Request
  seed : UInt32
  outPath : List Char

/-- The checks of `main`: its exit status and what it prints, or a request. -/
def checkArgs (argv0 : List Char) (args : List (List Char)) :
    Except (Nat × List Char) Accepted :=
  match args with
  | scenario :: outPath :: _ =>
      let count := argument args 2 1000000
      let seedIn := argument args 3 defaultSeed
      match scenarios.lookup scenario with
      | none =>
          .error (2, "ERROR: unknown scenario '".toList ++ scenario ++
            "'\n".toList)
      | some sc =>
          if enough : 2 ≤ count.toNat then
            if seedIn > 4294967295 then
              .error (2, "ERROR: seed ".toList ++ decimal seedIn.toNat ++
                (" exceeds the supported 32-bit range (max 4294967295); " ++
                "std::mt19937 takes a uint32_t. Pick a seed in " ++
                "[0, 4294967295].\n").toList)
            else
              .ok
                { request := { scenario := sc, count := count
                               enough := enough }
                  seed := seedIn.toUInt32
                  outPath := outPath }
          else .error (2, "ERROR: count must be >= 2\n".toList)
  | _ =>
      .error (2, "usage: ".toList ++ argv0 ++
        (" <scenario> <out.bin> [count] [seed]\n  scenario: static | " ++
        "normal | swing-25 | swing-40 | flash-crash\n").toList)

section Programs

variable (num : Numerics) (mt19937 : UInt32 → Nat → Uniform)

/-- The messages for a request and a seed. -/
def generated (request : Request) (seed : UInt32) : List Msg :=
  (generate num request).run (mt19937 seed)

/-- `main` of the generator: the files afterwards and the exit status. -/
def generatorMain
    (dir : Directory) (argv0 : List Char) (args : List (List Char))
    (file : FileOutcome) : Directory × Nat :=
  match checkArgs argv0 args with
  | .error (status, _) => (dir, status)
  | .ok { request, seed, outPath } =>
      let (ok, content) := writeBinary (generated num mt19937 request seed)
        file
      (match content with
        | some content => Function.update dir outPath (some content)
        | none => dir,
        if ok then 0 else 1)

/-! ## `main` up to the loaded workload -/

/-- The key of a workload and what the C library makes of a write. -/
structure Call where
  scenario : List Char
  seed : UInt64
  count : UInt64
  file : FileOutcome

/-- `workload_path`. -/
def workloadPath (scenario : List Char) (seed count : UInt64) : List Char :=
  "orders_".toList ++ scenario ++ "_s".toList ++ decimal seed.toNat ++
    "_n".toList ++ decimal count.toNat ++ ".bin".toList

/-- `cmd`. -/
def command (scenario : List Char) (seed count : UInt64) : List Char :=
  "./generator ".toList ++ scenario ++ " ".toList ++
    workloadPath scenario seed count ++ " ".toList ++ decimal count.toNat ++
    " ".toList ++ decimal seed.toNat

/-- How the harness comes by its workload. -/
inductive Obtained where
  | invalidScenario (message : List Char)
  | generationFailed (message : List Char)
  | notLoaded (message : String)
  | loaded (msgs : List WorkloadMsg)
  /-- The shell was handed something else than a simple command. -/
  | strayCommand (command : List Char)

/-- `std::system`, for commands that run the generator. -/
def system
    (dir : Directory) (command : List Char) (file : FileOutcome) :
    Option (Directory × Nat) :=
  match simpleCommand command with
  | some (program :: args) =>
      if program = "./generator".toList then
        some (generatorMain num mt19937 dir program args file)
      else none
  | _ => none

/-- `load_workload` of a file. -/
def load (path : List Char) (file : Option (List UInt8)) : Obtained :=
  match loadWorkload (String.ofList path) file with
  | .ok msgs => .loaded msgs
  | .error message => .notLoaded message

/-- The part of `main` between the command line and the engine. -/
def obtainWorkload (dir : Directory) (call : Call) : Directory × Obtained :=
  if call.scenario = [] ∨ ¬call.scenario.all scenarioChar then
    (dir, .invalidScenario ("ERROR: invalid --scenario '".toList ++
      call.scenario ++ "' (allowed: letters, digits, '_', '-')\n".toList))
  else
    let path := workloadPath call.scenario call.seed call.count
    if (dir path).isSome then (dir, load path (dir path))
    else
      let cmd := command call.scenario call.seed call.count
      match system num mt19937 dir cmd call.file with
      | none => (dir, .strayCommand cmd)
      | some (dir, status) =>
          if status ≠ 0 then
            (dir, .generationFailed
              "ERROR: workload generation failed\n".toList)
          else (dir, load path (dir path))

end Programs

/-! ## Keys -/

theorem workloadPath_eq (scenario : List Char) (seed count : UInt64) :
    workloadPath scenario seed count =
      "orders_".toList ++ ((scenario ++ '_' :: 's' :: decimal seed.toNat) ++
        '_' :: 'n' :: decimal count.toNat) ++ ".bin".toList := by
  have regroup (a b c d e : List Char) :
      a ++ b ++ ['_', 's'] ++ c ++ ['_', 'n'] ++ d ++ e =
        a ++ ((b ++ '_' :: 's' :: c) ++ '_' :: 'n' :: d) ++ e := by
    simp only [List.append_assoc, List.cons_append, List.nil_append]
  exact regroup _ _ _ _ _

/-- Different keys have different files. -/
theorem workloadPath_injective
    {scenario scenario' : List Char} {seed seed' count count' : UInt64}
    (same : workloadPath scenario seed count =
      workloadPath scenario' seed' count') :
    scenario = scenario' ∧ seed = seed' ∧ count = count' := by
  have free {letter : Char} (other : letter ≠ '_') (value : UInt64) :
      '_' ∉ letter :: decimal value.toNat := by
    rw [List.mem_cons, not_or]
    exact ⟨Ne.symm other, not_mem_decimal rfl⟩
  have number {letter : Char} {value value' : UInt64}
      (equal : letter :: decimal value.toNat =
        letter :: decimal value'.toNat) : value = value' :=
    UInt64.toNat_inj.mp (decimal_injective (List.cons.inj equal).2)
  rw [workloadPath_eq, workloadPath_eq] at same
  obtain ⟨fronts, counts⟩ := split_last (free (by decide) count)
    (free (by decide) count')
    (List.append_cancel_left (List.append_cancel_right same))
  obtain ⟨scenarios, seeds⟩ := split_last (free (by decide) seed)
    (free (by decide) seed') fronts
  exact ⟨scenarios, number seeds, number counts⟩

/-- The request that a key stands for. -/
structure Keyed
    (scenario : List Char) (seed count : UInt64) (request : Request)
    (seed32 : UInt32) : Prop where
  scenario : scenarios.lookup scenario = some request.scenario
  count : request.count = count
  seed : seed32.toUInt64 = seed

theorem Keyed.unique
    {scenario : List Char} {seed count : UInt64} {request request' : Request}
    {seed32 seed32' : UInt32}
    (left : Keyed scenario seed count request seed32)
    (right : Keyed scenario seed count request' seed32') :
    request = request' ∧ seed32 = seed32' := by
  obtain ⟨named, counted, seeded⟩ := left
  obtain ⟨named', counted', seeded'⟩ := right
  constructor
  · cases request
    cases request'
    obtain rfl : _ = _ := Option.some.inj (named.symm.trans named')
    cases counted.trans counted'.symm
    rfl
  · exact UInt32.toUInt64_inj.mp (seeded.trans seeded'.symm)

/-! ## The command -/

theorem strtoull_decimal (value : UInt64) :
    strtoull (decimal value.toNat) = value := by
  have read := scanUInt64_decimal value endsNumber_nil
  rw [List.append_nil] at read
  rw [strtoull, read]
  rfl

section Arguments

variable {argv0 scenario path : List Char} {seed count : UInt64}

theorem argument_count :
    argument [scenario, path, decimal count.toNat, decimal seed.toNat] 2
      1000000 = count :=
  strtoull_decimal count

theorem argument_seed :
    argument [scenario, path, decimal count.toNat, decimal seed.toNat] 3
      defaultSeed = seed :=
  strtoull_decimal seed

/-- What the generator accepts is the request of the key. -/
theorem keyed_of_checkArgs
    {accepted : Accepted}
    (ok : checkArgs argv0
        [scenario, path, decimal count.toNat, decimal seed.toNat] =
      .ok accepted) :
    accepted.outPath = path ∧
      Keyed scenario seed count accepted.request accepted.seed := by
  simp only [checkArgs, argument_count, argument_seed] at ok
  split at ok
  · cases ok
  · rename_i sc named
    split at ok
    · split at ok
      · cases ok
      · rename_i small
        cases ok
        refine ⟨rfl, named, rfl, ?_⟩
        rw [← UInt64.toNat_inj, UInt32.toNat_toUInt64, UInt64.toNat_toUInt32]
        rw [gt_iff_lt, UInt64.not_lt, UInt64.le_iff_toNat_le] at small
        exact Nat.mod_eq_of_lt (Nat.lt_succ_of_le small)
    · cases ok

theorem status_of_checkArgs
    {args : List (List Char)} {reason : Nat × List Char}
    (error : checkArgs argv0 args = .error reason) : reason.1 = 2 := by
  unfold checkArgs at error
  split at error
  · dsimp only at error
    split at error
    · cases error
      rfl
    · split at error
      · split at error
        · cases error
          rfl
        · cases error
      · cases error
        rfl
  · cases error
    rfl

/-- And it accepts every request. -/
theorem Keyed.checkArgs
    {request : Request} {seed32 : UInt32}
    (keyed : Keyed scenario seed count request seed32) :
    checkArgs argv0
        [scenario, path, decimal count.toNat, decimal seed.toNat] =
      .ok { request := request, seed := seed32, outPath := path } := by
  obtain ⟨named, rfl, rfl⟩ := keyed
  have few := seed32.toNat_lt
  have small : ¬seed32.toUInt64 > 4294967295 := by
    rw [gt_iff_lt, UInt64.not_lt, UInt64.le_iff_toNat_le,
      UInt32.toNat_toUInt64]
    exact Nat.le_of_lt_succ few
  simp only [WorkloadCache.checkArgs, argument_count, argument_seed, named,
    dif_pos request.enough, if_neg small, UInt32.toUInt32_toUInt64]

end Arguments

/-- The command runs the generator with the key and the file as arguments. -/
theorem system_command
    (num : Numerics) (mt19937 : UInt32 → Nat → Uniform) (dir : Directory)
    {scenario : List Char} (nonempty : scenario ≠ [])
    (valid : scenario.all scenarioChar = true) (seed count : UInt64)
    (file : FileOutcome) :
    system num mt19937 dir (command scenario seed count) file =
      some (generatorMain num mt19937 dir "./generator".toList
        [scenario, workloadPath scenario seed count, decimal count.toNat,
          decimal seed.toNat] file) := by
  have number (value : UInt64) : ∀ char ∈ decimal value.toNat,
      plain char = true := by
    intro char member
    rw [plain, isDigit_of_mem_decimal member]
    simp
  have fixed {text : List Char} (all : text.all plain = true) :
      ∀ char ∈ text, plain char = true := List.all_eq_true.mp all
  have named : ∀ char ∈ scenario, plain char = true := by
    intro char member
    have inSet := List.all_eq_true.mp valid char member
    rw [scenarioChar] at inSet
    rw [plain, inSet]
    rfl
  have path : ∀ char ∈ workloadPath scenario seed count,
      plain char = true := by
    unfold workloadPath
    simp only [List.forall_mem_append]
    exact ⟨⟨⟨⟨⟨⟨fixed (by decide), named⟩, fixed (by decide)⟩, number _⟩,
      fixed (by decide)⟩, number _⟩, fixed (by decide)⟩
  have text : command scenario seed count =
      joined ' ' ["./generator".toList, scenario,
        workloadPath scenario seed count, decimal count.toNat,
        decimal seed.toNat] := by
    have regroup (a b c d : List Char) :
        "./generator ".toList ++ a ++ " ".toList ++ b ++ " ".toList ++ c ++
            " ".toList ++ d =
          joined ' ' ["./generator".toList, a, b, c, d] := by
      have program : "./generator ".toList = "./generator".toList ++ [' '] :=
        rfl
      have blank : " ".toList = [' '] := rfl
      rw [program, blank]
      simp only [joined_cons_cons, joined_singleton, List.append_assoc,
        List.cons_append, List.nil_append]
    exact regroup _ _ _ _
  rw [system, text, simpleCommand_joined]
  · dsimp only
    rw [if_pos rfl]
  · simp only [List.forall_mem_cons]
    refine ⟨⟨by decide, fixed (by decide)⟩, ⟨nonempty, named⟩, ⟨?_, path⟩,
      ⟨decimal_ne_nil _, number _⟩, ⟨decimal_ne_nil _, number _⟩,
      List.forall_mem_nil _⟩
    rw [workloadPath_eq]
    simp

/-! ## What a call does -/

theorem Keyed.valid
    {scenario : List Char} {seed count : UInt64} {request : Request}
    {seed32 : UInt32} (keyed : Keyed scenario seed count request seed32) :
    scenario ≠ [] ∧ scenario.all scenarioChar = true := by
  have known : ∀ entry ∈ scenarios,
      entry.1 ≠ [] ∧ entry.1.all scenarioChar = true := by decide
  obtain ⟨before, after, found, _⟩ :=
    List.lookup_eq_some_iff.mp keyed.scenario
  exact known (scenario, request.scenario) (by rw [found]; simp)

/-- `workload_path` of a call. -/
def Call.path (call : Call) : List Char :=
  workloadPath call.scenario call.seed call.count

/-- The request that a call stands for. -/
def Call.Keyed (call : Call) (request : Request) (seed32 : UInt32) : Prop :=
  WorkloadCache.Keyed call.scenario call.seed call.count request seed32

section Calls

variable {num : Numerics} {mt19937 : UInt32 → Nat → Uniform}
  {dir : Directory} {call : Call}

/-- What a call can do to the files, and what it yields. -/
inductive Does
    (num : Numerics) (mt19937 : UInt32 → Nat → Uniform) (dir : Directory)
    (call : Call) : Directory × Obtained → Prop where
  | refused
      (unkeyed : ∀ request seed32, ¬call.Keyed request seed32)
      (message : List Char) :
      Does num mt19937 dir call (dir, .invalidScenario message)
  | cached {content : List UInt8} (present : dir call.path = some content) :
      Does num mt19937 dir call (dir, load call.path (some content))
  | rejected
      (absent : dir call.path = none)
      (unkeyed : ∀ request seed32, ¬call.Keyed request seed32)
      (message : List Char) :
      Does num mt19937 dir call (dir, .generationFailed message)
  | unopened
      (absent : dir call.path = none) (unopened : call.file.opened = false)
      (message : List Char) :
      Does num mt19937 dir call (dir, .generationFailed message)
  | failed {request : Request} {seed32 : UInt32}
      (absent : dir call.path = none) (opened : call.file.opened = true)
      (keyed : call.Keyed request seed32)
      (failed : (writeBinary (generated num mt19937 request seed32)
        call.file).1 = false)
      (message : List Char) :
      Does num mt19937 dir call
        (Function.update dir call.path
          (some ((workloadBytes (generated num mt19937 request seed32)).take
            call.file.accepted)), .generationFailed message)
  | wrote {request : Request} {seed32 : UInt32}
      (absent : dir call.path = none) (opened : call.file.opened = true)
      (keyed : call.Keyed request seed32)
      (whole : (writeBinary (generated num mt19937 request seed32)
        call.file).1 = true) :
      Does num mt19937 dir call
        (Function.update dir call.path
          (some ((workloadBytes (generated num mt19937 request seed32)).take
            call.file.accepted)),
          load call.path (some ((workloadBytes
            (generated num mt19937 request seed32)).take
              call.file.accepted)))

theorem obtainWorkload_does :
    Does num mt19937 dir call (obtainWorkload num mt19937 dir call) := by
  unfold obtainWorkload
  split
  · rename_i bad
    refine Does.refused ?_ _
    intro request seed32 keyed
    rcases bad with empty | stray
    · exact keyed.valid.1 empty
    · exact stray keyed.valid.2
  · rename_i valid
    rw [not_or, not_not] at valid
    dsimp only
    split
    · rename_i present
      obtain ⟨content, found⟩ := Option.isSome_iff_exists.mp present
      rw [found]
      exact Does.cached found
    · rename_i absent
      rw [Option.not_isSome_iff_eq_none] at absent
      rw [system_command num mt19937 dir valid.1 valid.2, generatorMain]
      cases checked : checkArgs "./generator".toList
          [call.scenario, workloadPath call.scenario call.seed call.count,
            decimal call.count.toNat, decimal call.seed.toNat] with
      | error reason =>
          dsimp only
          rw [status_of_checkArgs checked, if_pos (by decide)]
          refine Does.rejected absent ?_ _
          intro request seed32 keyed
          rw [keyed.checkArgs] at checked
          cases checked
      | ok accepted =>
          obtain ⟨request, seed32, outPath⟩ := accepted
          obtain ⟨named, keyed⟩ := keyed_of_checkArgs checked
          dsimp only at named keyed ⊢
          obtain rfl := named
          cases opened : call.file.opened with
          | false =>
              rw [writeBinary, opened, if_neg Bool.false_ne_true]
              exact Does.unopened absent opened _
          | true =>
              have content : (writeBinary (generated num mt19937 request
                  seed32) call.file).2 = some ((workloadBytes (generated num
                    mt19937 request seed32)).take call.file.accepted) := by
                rw [writeBinary, opened, if_pos rfl]
              rw [content]
              dsimp only
              cases status : (writeBinary (generated num mt19937 request
                  seed32) call.file).1 with
              | false =>
                  rw [if_neg Bool.false_ne_true, if_pos (by decide)]
                  exact Does.failed absent opened keyed status _
              | true =>
                  rw [if_pos rfl, if_neg (by decide), Function.update_self]
                  exact Does.wrote absent opened keyed status

theorem Does.kept
    {result : Directory × Obtained} (does : Does num mt19937 dir call result)
    {path : List Char} {content : List UInt8}
    (present : dir path = some content) : result.1 path = some content := by
  have other (absent : dir call.path = none) : path ≠ call.path := by
    rintro rfl
    rw [absent] at present
    cases present
  cases does with
  | refused | cached | rejected | unopened => exact present
  | failed absent | wrote absent =>
      dsimp only
      rw [Function.update_of_ne (other absent)]
      exact present

theorem Does.frame
    {result : Directory × Obtained} (does : Does num mt19937 dir call result)
    {path : List Char} (other : path ≠ call.path) :
    result.1 path = dir path := by
  cases does with
  | refused | cached | rejected | unopened => rfl
  | failed | wrote => exact Function.update_of_ne other _ _

theorem Does.content
    {result : Directory × Obtained} (does : Does num mt19937 dir call result)
    {request : Request} {seed32 : UInt32} (keyed : call.Keyed request seed32) :
    result.1 call.path = (dir call.path).or
      (if call.file.opened then
        some ((workloadBytes (generated num mt19937 request seed32)).take
          call.file.accepted)
      else none) := by
  cases does with
  | refused unkeyed | rejected _ unkeyed => exact absurd keyed (unkeyed _ _)
  | cached present =>
      dsimp only
      rw [present, Option.some_or]
  | unopened absent unopened =>
      dsimp only
      rw [absent, unopened]
      rfl
  | failed absent opened keyed' | wrote absent opened keyed' =>
      obtain ⟨rfl, rfl⟩ := keyed.unique keyed'
      dsimp only
      rw [absent, opened, Function.update_self]
      rfl

theorem Does.unkeyed
    {result : Directory × Obtained} (does : Does num mt19937 dir call result)
    (unkeyed : ∀ request seed32, ¬call.Keyed request seed32) :
    result.1 = dir := by
  cases does with
  | refused | cached | rejected | unopened => rfl
  | failed _ _ keyed | wrote _ _ keyed => exact absurd keyed (unkeyed _ _)

end Calls

/-! ## Any number of calls -/

/-- The directory after some calls. -/
def directoryAfter
    (num : Numerics) (mt19937 : UInt32 → Nat → Uniform) (dir : Directory)
    (history : List Call) : Directory :=
  history.foldl (fun dir call => (obtainWorkload num mt19937 dir call).1) dir

/-- The calls that can have created a file. -/
def openings (path : List Char) (history : List Call) : List Call :=
  history.filter fun call => call.path = path ∧ call.file.opened

section Runs

variable {num : Numerics} {mt19937 : UInt32 → Nat → Uniform}
  {dir : Directory} (fresh : ∀ call : Call, dir call.path = none)
  (history : List Call) {call : Call}
include fresh

/-- A file holds what its first opening let through. -/
theorem directoryAfter_keyed
    {request : Request} {seed32 : UInt32} (keyed : call.Keyed request seed32) :
    directoryAfter num mt19937 dir history call.path =
      (openings call.path history).head?.map fun first =>
        (workloadBytes (generated num mt19937 request seed32)).take
          first.file.accepted := by
  induction history using List.reverseRecOn with
  | nil => exact fresh call
  | append_singleton history last induction =>
      have does := @obtainWorkload_does num mt19937
        (directoryAfter num mt19937 dir history) last
      rw [directoryAfter, List.foldl_append, List.foldl_cons, List.foldl_nil,
        ← directoryAfter, openings, List.filter_append, ← openings,
        List.head?_append]
      by_cases same : last.path = call.path
      · have keyed' : last.Keyed request seed32 := by
          obtain ⟨scenarios, seeds, counts⟩ := workloadPath_injective same
          rw [Call.Keyed, scenarios, seeds, counts]
          exact keyed
        rw [← same, does.content keyed', same, induction]
        cases opened : last.file.opened with
        | true =>
            cases (openings call.path history).head? <;> simp [same, opened]
        | false => simp [opened]
      · rw [does.frame (Ne.symm same), induction]
        simp [same]

/-- Nothing is ever stored for a key that the generator rejects. -/
theorem directoryAfter_unkeyed
    (unkeyed : ∀ request seed32, ¬call.Keyed request seed32) :
    directoryAfter num mt19937 dir history call.path = none := by
  induction history using List.reverseRecOn with
  | nil => exact fresh call
  | append_singleton history last induction =>
      have does := @obtainWorkload_does num mt19937
        (directoryAfter num mt19937 dir history) last
      rw [directoryAfter, List.foldl_append, List.foldl_cons, List.foldl_nil,
        ← directoryAfter]
      by_cases same : last.path = call.path
      · obtain ⟨scenarios, seeds, counts⟩ := workloadPath_injective same
        rw [does.unkeyed, induction]
        intro request seed32 keyed
        refine unkeyed request seed32 ?_
        rw [Call.Keyed, ← scenarios, ← seeds, ← counts]
        exact keyed
      · rw [does.frame (Ne.symm same), induction]

end Runs

/-! ## What is loaded -/

theorem load_ne_strayCommand
    (path command : List Char) (file : Option (List UInt8)) :
    load path file ≠ .strayCommand command := by
  rw [load]
  split
  · intro equal
    cases equal
  · intro equal
    cases equal

section Loading

variable {tl : List Msg} (typed : ∀ m ∈ tl, m.type ≤ 2)
include typed

theorem loaded_take
    {path : List Char} {accepted : Nat} {msgs : List WorkloadMsg}
    (loaded : load path (some ((workloadBytes tl).take accepted)) =
      .loaded msgs) :
    msgs = (tl.take (tl.length % 2 ^ 32)).mapIdx decoded := by
  rw [load] at loaded
  split at loaded
  · rename_i found
    cases loaded
    exact loadWorkload_of_prefix typed (List.take_prefix _ _) found
  · cases loaded

/-- A whole file is what it takes to load. -/
theorem load_take_iff
    (nonempty : 1 ≤ tl.length) (capped : tl.length ≤ workloadMax)
    (path : List Char) (accepted : Nat) :
    load path (some ((workloadBytes tl).take accepted)) =
        .loaded (tl.mapIdx decoded) ↔
      (workloadBytes tl).length ≤ accepted := by
  constructor
  · intro loaded
    by_contra short
    rw [Nat.not_le] at short
    have strict : (workloadBytes tl).take accepted ≠ workloadBytes tl := by
      intro same
      have lengths := congrArg List.length same
      rw [List.length_take] at lengths
      omega
    obtain ⟨message, error⟩ := loadWorkload_of_cut nonempty capped
      (List.take_prefix accepted _) strict (String.ofList path)
    rw [load, error] at loaded
    cases loaded
  · intro whole
    rw [List.take_of_length_le whole, load,
      loadWorkload_workloadBytes nonempty capped typed]

end Loading

/-! ## The cache -/

section Cache

variable (num : Numerics) (mt19937 : UInt32 → Nat → Uniform)
  (dir : Directory)

/--
In a directory without workload files, whatever the harness has been called
for and however writes were cut off: every call hands the shell one simple
command, changes no file that is there, and loads nothing but the messages of
its own scenario, seed and count.  It does load them when the first call for
them that could open the file has written all of it, and never again after one
that has not.
-/
theorem workload_cache
    (fresh : ∀ call : Call, dir call.path = none)
    (history : List Call) (call : Call) :
    let before := directoryAfter num mt19937 dir history
    let result := obtainWorkload num mt19937 before call
    (∀ command, result.2 ≠ .strayCommand command) ∧
      (∀ path content, before path = some content →
        result.1 path = some content) ∧
      (∀ msgs, result.2 = .loaded msgs → ∃ request seed32,
        call.Keyed request seed32 ∧
          let tl := generated num mt19937 request seed32
          msgs = (tl.take (tl.length % 2 ^ 32)).mapIdx decoded) ∧
      ∀ request seed32, call.Keyed request seed32 →
        let tl := generated num mt19937 request seed32
        tl.length ≤ workloadMax →
          (result.2 = .loaded (tl.mapIdx decoded) ↔
            match (openings call.path history).head? with
            | some first => (workloadBytes tl).length ≤ first.file.accepted
            | none => (writeBinary tl call.file).1 = true) := by
  intro before result
  have does : Does num mt19937 before call result := obtainWorkload_does
  have typed (request : Request) (seed32 : UInt32) :
      ∀ m ∈ generated num mt19937 request seed32, m.type ≤ 2 :=
    fun m member => (generated_wellFormed num request _ member).typed
  have stored {request : Request} {seed32 : UInt32}
      (keyed : call.Keyed request seed32) :
      before call.path = _ := directoryAfter_keyed fresh history keyed
  refine ⟨?_, fun _ _ => does.kept, ?_, ?_⟩
  · intro command stray
    generalize result = result at does stray
    cases does with
    | refused | rejected | unopened | failed => cases stray
    | cached | wrote => exact load_ne_strayCommand _ _ _ stray
  · intro msgs loaded
    generalize result = result at does loaded
    cases does with
    | refused | rejected | unopened | failed => cases loaded
    | cached present =>
        by_cases keyed : ∃ request seed32, call.Keyed request seed32
        · obtain ⟨request, seed32, keyed⟩ := keyed
          refine ⟨request, seed32, keyed, ?_⟩
          rw [stored keyed, Option.map_eq_some_iff] at present
          obtain ⟨first, -, rfl⟩ := present
          exact loaded_take (typed request seed32) loaded
        · have unkeyed : ∀ request seed32, ¬call.Keyed request seed32 :=
            fun request seed32 found => keyed ⟨request, seed32, found⟩
          have absent : before call.path = none :=
            directoryAfter_unkeyed fresh history unkeyed
          rw [absent] at present
          cases present
    | @wrote request seed32 _ _ keyed =>
        exact ⟨request, seed32, keyed, loaded_take (typed _ _) loaded⟩
  · intro request seed32 keyed tl capped
    have nonempty : 1 ≤ tl.length := generated_nonempty num request _
    have content := stored keyed
    generalize result = result at does
    cases does with
    | refused unkeyed | rejected _ unkeyed => exact absurd keyed (unkeyed _ _)
    | cached present =>
        rw [present, eq_comm, Option.map_eq_some_iff] at content
        obtain ⟨first, found, rfl⟩ := content
        rw [found]
        exact load_take_iff (typed _ _) nonempty capped _ _
    | unopened absent unopened =>
        rw [absent, eq_comm, Option.map_eq_none_iff] at content
        rw [content, writeBinary, unopened]
        refine iff_of_false (fun loaded => ?_) Bool.false_ne_true
        cases loaded
    | failed absent _ keyed' failed =>
        obtain ⟨rfl, rfl⟩ := keyed.unique keyed'
        rw [absent, eq_comm, Option.map_eq_none_iff] at content
        rw [content, failed]
        refine iff_of_false (fun loaded => ?_) Bool.false_ne_true
        cases loaded
    | wrote absent opened keyed' whole =>
        obtain ⟨rfl, rfl⟩ := keyed.unique keyed'
        rw [absent, eq_comm, Option.map_eq_none_iff] at content
        rw [content, whole]
        refine iff_of_true ?_ rfl
        refine (load_take_iff (typed _ _) nonempty capped _ _).mpr ?_
        rw [writeBinary, opened, if_pos rfl, Bool.and_eq_true,
          decide_eq_true_eq] at whole
        exact whole.1

end Cache

/-- Three orders with the default seed, and how much of them is written. -/
def threeOrdersCall (accepted : Nat) : Call where
  scenario := "static".toList
  seed := 23
  count := 3
  file := { opened := true, accepted := accepted, closed := true }

/-- A file that was cut off stays in the way of every later call. -/
theorem workload_cache_threeOrders :
    let before := directoryAfter steady (fun _ => halves) (fun _ => none)
      [threeOrdersCall 100]
    (obtainWorkload steady (fun _ => halves) before
        (threeOrdersCall 1000)).2 ≠
      .loaded ((generated steady (fun _ => halves) threeOrders 23).mapIdx
        decoded) := by
  intro before loaded
  have decided := (workload_cache steady (fun _ => halves)
    (fun _ => none) (fun _ => rfl) [threeOrdersCall 100]
    (threeOrdersCall 1000)).2.2.2 threeOrders 23
    ⟨rfl, rfl, rfl⟩ (by decide +kernel)
  have opened : openings (threeOrdersCall 1000).path [threeOrdersCall 100] =
      [threeOrdersCall 100] :=
    List.filter_cons_of_pos (by simp [threeOrdersCall, Call.path])
  rw [opened] at decided
  have whole : (workloadBytes (generated steady (fun _ => halves)
      threeOrders 23)).length ≤ 100 := decided.mp loaded
  exact absurd whole (by decide +kernel)

end MatchingBench.Harness.WorkloadCache
