import MatchingBench.Harness.Verdict
import MatchingBench.Harness.WorkloadCache

/-!
# The command line of the harness

`main` up to the check of the scenario: the loop over the arguments, the
refusals with exit status 2, the path and the name of the engine.  Where paths
lead is asked of the file system.
-/

set_option autoImplicit false

namespace MatchingBench.Harness.CommandLine

open MatchingBench.Lib.DecimalText
open MatchingBench.Lib.Stdio
open MatchingBench.Harness.Audit
open MatchingBench.Harness.Marshalling
open MatchingBench.Harness.ReferenceHash
open MatchingBench.Harness.Verdict
open MatchingBench.Harness.WorkloadCache (strtoull)

/-! ## The loop over the arguments -/

/-- The locals that the loop sets. -/
structure Options where
  engineArg : List Char
  baseline : List Char
  scenario : List Char
  canonicalOutputPath : List Char
  seed : UInt64
  count : UInt64
  matcherCore : Int32
  drainerCore : Int32
  writeReference : Bool
  canonicalOutputRequested : Bool
  mode : Mode

/-- The locals before the loop. -/
def Options.initial : Options where
  engineArg := []
  baseline := []
  scenario := "normal".toList
  canonicalOutputPath := []
  seed := 23
  count := 1000000
  matcherCore := 2
  drainerCore := 3
  writeReference := false
  canonicalOutputRequested := false
  mode := .perf

/-- `std::atoi`, by `strtol` and a conversion. -/
def atoi (text : List Char) : Int32 :=
  (((scanInt64 text).map Prod.fst).getD 0).toInt32

/-- What an argument does to the locals. -/
inductive Setting where
  | flag (options : Options)
  /-- The argument behind it is its value. -/
  | valued (options : Options)
  | refused (message : List Char)

/-- One turn of the loop; `next` is the argument behind, empty at the end. -/
def setting (o : Options) (a next : List Char) : Setting :=
  if a = "--engine".toList then .valued { o with engineArg := next }
  else if a = "--baseline".toList then .valued { o with baseline := next }
  else if a = "--scenario".toList then .valued { o with scenario := next }
  else if a = "--seed".toList then .valued { o with seed := strtoull next }
  else if a = "--count".toList then .valued { o with count := strtoull next }
  else if a = "--matcher-core".toList then
    .valued { o with matcherCore := atoi next }
  else if a = "--drainer-core".toList then
    .valued { o with drainerCore := atoi next }
  else if a = "--write-reference".toList then
    .flag { o with writeReference := true }
  else if a = "--write-canonical-output".toList then
    .valued { o with canonicalOutputRequested := true
                     canonicalOutputPath := next }
  else if a = "--mode".toList then
    if next = "perf".toList then .valued { o with mode := .perf }
    else if next = "audit".toList then .valued { o with mode := .audit }
    else
      .refused ("unknown --mode '".toList ++ next ++
        "' (use perf|audit)\n".toList)
  else .refused ("unknown argument: ".toList ++ a ++ ['\n'])

/-- The loop, or the message of a refusal. -/
def parse : Options → List (List Char) → Except (List Char) Options
  | o, [] => .ok o
  | o, a :: rest =>
      match setting o a (rest.headD []) with
      | .refused message => .error message
      | .flag o => parse o rest
      | .valued o =>
          match rest with
          | [] => .ok o
          | _ :: rest => parse o rest

/-! ## The checks -/

/-- `std::filesystem::weakly_canonical`, part by part. -/
abbrev FileSystem : Type :=
  List Char → Option (List (List Char))

/-- `path_is_under_reference`. -/
def pathIsUnderReference (weaklyCanonical : FileSystem)
    (rawPath : List Char) : Bool :=
  match weaklyCanonical "reference".toList, weaklyCanonical rawPath with
  | some reference, some output => reference.isPrefixOf output
  | _, _ => true

/-- `mode_name`. -/
def modeName : Mode → List Char
  | .perf => "perf".toList
  | .audit => "audit".toList

/-- What `main` goes on with. -/
structure Accepted where
  args : Args
  enginePath : List Char
  canonicalOutputPath : List Char
  matcherCore : Int32
  drainerCore : Int32

/-- The name without an ending, where it has it. -/
def erased (suffix name : List Char) : List Char :=
  if suffix.isSuffixOf name then name.take (name.length - suffix.length)
  else name

/-- What stands behind the last slash. -/
def lastPart (path : List Char) : List Char :=
  (path.reverse.takeWhile (· ≠ '/')).reverse

/-- `engine_name`. -/
def engineName (o : Options) : List Char :=
  erased "_adapter".toList
    (erased ".so".toList
      (lastPart (if o.baseline ≠ [] then o.baseline else o.engineArg)))

/-- `engine_path`. -/
def enginePath (o : Options) : List Char :=
  if o.engineArg ≠ [] then o.engineArg
  else "./".toList ++ o.baseline ++ "_adapter.so".toList

/-- The checks of the locals, in order: the message of the first that fails. -/
def refusal (weaklyCanonical : FileSystem) (argv0 : List Char)
    (o : Options) : Option (List Char) :=
  if o.engineArg = [] ∧ o.baseline = [] then
    some ("usage: ".toList ++ argv0 ++
      (" (--engine <path.so> | --baseline <name>) [--scenario s] " ++
      "[--mode perf|audit] [--seed n] [--count n] [--write-reference] " ++
      "[--write-canonical-output <path>]\n").toList)
  else if o.canonicalOutputRequested ∧ o.canonicalOutputPath = [] then
    some "--write-canonical-output requires a non-empty path\n".toList
  else if o.writeReference ∧ o.canonicalOutputPath ≠ [] then
    some ("--write-reference and --write-canonical-output are mutually " ++
      "exclusive\n").toList
  else if o.canonicalOutputPath ≠ [] ∧
      pathIsUnderReference weaklyCanonical o.canonicalOutputPath then
    some ("--write-canonical-output refuses paths under reference/; " ++
      "candidate output must not overwrite consensus artifacts\n").toList
  else if o.writeReference ∧ o.baseline = [] then
    some ("--write-reference refuses to run with --engine: the reference " ++
      "hash and canonical_output.txt are the byte-identical three-baseline " ++
      "consensus, not the output of a single engine under test. Re-run " ++
      "with --baseline liquibook (or quantcup, exchange_core) to " ++
      "regenerate.\n").toList
  else none

/-- What the checks leave to go on with. -/
theorem refusal_eq_none
    {weaklyCanonical : FileSystem} {argv0 : List Char} {o : Options} :
    refusal weaklyCanonical argv0 o = none ↔
      ¬(o.engineArg = [] ∧ o.baseline = []) ∧
        ¬(o.canonicalOutputRequested = true ∧ o.canonicalOutputPath = []) ∧
        ¬(o.writeReference = true ∧ o.canonicalOutputPath ≠ []) ∧
        ¬(o.canonicalOutputPath ≠ [] ∧
          pathIsUnderReference weaklyCanonical o.canonicalOutputPath =
            true) ∧
        ¬(o.writeReference = true ∧ o.baseline = []) := by
  unfold refusal
  split
  · rename_i refused
    exact iff_of_false (Option.some_ne_none _) fun all => all.1 refused
  rename_i named
  split
  · rename_i refused
    exact iff_of_false (Option.some_ne_none _) fun all => all.2.1 refused
  rename_i given
  split
  · rename_i refused
    exact iff_of_false (Option.some_ne_none _) fun all => all.2.2.1 refused
  rename_i exclusive
  split
  · rename_i refused
    exact iff_of_false (Option.some_ne_none _) fun all => all.2.2.2.1 refused
  rename_i outside
  split
  · rename_i refused
    exact iff_of_false (Option.some_ne_none _) fun all => all.2.2.2.2 refused
  · rename_i built
    exact iff_of_true rfl ⟨named, given, exclusive, outside, built⟩

/-- Where `main` ends before it has a workload, or what it goes on with. -/
inductive Start where
  | exits (status : Nat) (message : List Char)
  | runs (accepted : Accepted)

/-- `main` up to the check of the scenario. -/
def start (weaklyCanonical : FileSystem) (argv0 : List Char)
    (argv : List (List Char)) : Start :=
  match parse .initial argv with
  | .error message => .exits 2 message
  | .ok o =>
      match checked : refusal weaklyCanonical argv0 o with
      | some message => .exits 2 message
      | none =>
          if named : o.scenario ≠ [] ∧ o.scenario.all scenarioChar = true then
            .runs
              { args :=
                  { engineName := String.ofList (engineName o)
                    scenario := ⟨o.scenario, named⟩
                    seed := o.seed
                    count := o.count
                    mode := o.mode
                    writeReference := o.writeReference
                    canonicalOutput := o.canonicalOutputPath ≠ []
                    exclusive := fun both =>
                      (refusal_eq_none.mp checked).2.2.1
                        ⟨both.1, of_decide_eq_true both.2⟩ }
                enginePath := enginePath o
                canonicalOutputPath := o.canonicalOutputPath
                matcherCore := o.matcherCore
                drainerCore := o.drainerCore }
          else
            .exits 1 ("ERROR: invalid --scenario '".toList ++ o.scenario ++
              "' (allowed: letters, digits, '_', '-')\n".toList)

/-! ## Arguments with their values -/

theorem parse_valued
    {o next : Options} {a value : List Char}
    (sets : setting o a value = .valued next) (rest : List (List Char)) :
    parse o (a :: value :: rest) = parse next rest := by
  rw [parse, List.headD_cons, sets]

theorem parse_scenario (o : Options) (value : List Char)
    (rest : List (List Char)) :
    parse o ("--scenario".toList :: value :: rest) =
      parse { o with scenario := value } rest :=
  parse_valued rfl rest

theorem parse_mode (o : Options) (mode : Mode) (rest : List (List Char)) :
    parse o ("--mode".toList :: modeName mode :: rest) =
      parse { o with mode := mode } rest := by
  cases mode <;> exact parse_valued rfl rest

theorem parse_engine (o : Options) (value : List Char)
    (rest : List (List Char)) :
    parse o ("--engine".toList :: value :: rest) =
      parse { o with engineArg := value } rest :=
  parse_valued rfl rest

theorem parse_baseline (o : Options) (value : List Char)
    (rest : List (List Char)) :
    parse o ("--baseline".toList :: value :: rest) =
      parse { o with baseline := value } rest :=
  parse_valued rfl rest

/-! ## Printed integers -/

/-- What `strtoull` makes of an integer. -/
def asUInt64 (value : Int) : UInt64 :=
  unsignedValue (value < 0) value.natAbs

/-- What `atoi` makes of an integer. -/
def asInt32 (value : Int) : Int32 :=
  (signedValue (value < 0) value.natAbs).toInt32

theorem scanDigits_signedDecimal (value : Int) :
    scanDigits (signedDecimal value) =
      some (decide (value < 0), value.natAbs, []) := by
  cases value with
  | ofNat value =>
      have read := scanDigits_decimal value endsNumber_nil
      rw [List.append_nil] at read
      exact read
  | negSucc value =>
      have read := scanDigits_minus (value + 1) endsNumber_nil
      rw [List.append_nil] at read
      have negative : decide (Int.negSucc value < 0) = true :=
        decide_eq_true (Int.negSucc_lt_zero value)
      rw [negative]
      exact read

theorem strtoull_signedDecimal (value : Int) :
    strtoull (signedDecimal value) = asUInt64 value := by
  rw [strtoull, scanUInt64, scanDigits_signedDecimal]
  rfl

theorem atoi_signedDecimal (value : Int) :
    atoi (signedDecimal value) = asInt32 value := by
  rw [atoi, scanInt64, scanDigits_signedDecimal]
  rfl

/-- A number that fits is understood as itself. -/
theorem asUInt64_of_fits {value : Nat} (fits : value < 2 ^ 64) :
    (asUInt64 value).toNat = value := by
  have positive : decide ((value : Int) < 0) = false :=
    decide_eq_false (by omega)
  rw [asUInt64, positive, Int.natAbs_natCast, unsignedValue,
    if_neg (by omega), if_neg Bool.false_ne_true, UInt64.toNat_ofNat',
    Nat.mod_eq_of_lt fits]

/-- A flag with a number, where the number is given. -/
def numberFlag (flag : List Char) (value : Option Int) : List (List Char) :=
  match value with
  | none => []
  | some value => [flag, signedDecimal value]

theorem parse_numberFlag
    {o : Options} {flag : List Char} {set : Int → Options}
    (sets : ∀ value, setting o flag (signedDecimal value) =
      .valued (set value)) (value : Option Int) (rest : List (List Char)) :
    parse o (numberFlag flag value ++ rest) =
      parse ((value.map set).getD o) rest := by
  cases value with
  | none => rfl
  | some value => exact parse_valued (sets value) rest

theorem parse_seed (o : Options) (value : Option Int)
    (rest : List (List Char)) :
    parse o (numberFlag "--seed".toList value ++ rest) =
      parse { o with seed := (value.map asUInt64).getD o.seed } rest := by
  rw [@parse_numberFlag o _ (fun value => { o with seed := asUInt64 value })
    fun value => by rw [← strtoull_signedDecimal]; rfl]
  cases value <;> rfl

theorem parse_count (o : Options) (value : Option Int)
    (rest : List (List Char)) :
    parse o (numberFlag "--count".toList value ++ rest) =
      parse { o with count := (value.map asUInt64).getD o.count } rest := by
  rw [@parse_numberFlag o _ (fun value => { o with count := asUInt64 value })
    fun value => by rw [← strtoull_signedDecimal]; rfl]
  cases value <;> rfl

theorem parse_matcherCore (o : Options) (value : Option Int)
    (rest : List (List Char)) :
    parse o (numberFlag "--matcher-core".toList value ++ rest) =
      parse { o with matcherCore := (value.map asInt32).getD o.matcherCore }
        rest := by
  rw [@parse_numberFlag o _
    (fun value => { o with matcherCore := asInt32 value })
    fun value => by rw [← atoi_signedDecimal]; rfl]
  cases value <;> rfl

theorem parse_drainerCore (o : Options) (value : Option Int)
    (rest : List (List Char)) :
    parse o (numberFlag "--drainer-core".toList value ++ rest) =
      parse { o with drainerCore := (value.map asInt32).getD o.drainerCore }
        rest := by
  rw [@parse_numberFlag o _
    (fun value => { o with drainerCore := asInt32 value })
    fun value => by rw [← atoi_signedDecimal]; rfl]
  cases value <;> rfl

end MatchingBench.Harness.CommandLine
