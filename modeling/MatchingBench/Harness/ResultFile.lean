import MatchingBench.Harness.CommandLine
import MatchingBench.Harness.Printed
import MatchingBench.Lib.JsonText

/-!
# The result file

The JSON record that `main` leaves for a run, with the fingerprint of the
machine.  Read back, it says what the run came to; and however little of it
reached the disk, it is never read as another result.
-/

set_option autoImplicit false

namespace MatchingBench.Harness.ResultFile

open MatchingBench.Lib.DecimalText
open MatchingBench.Lib.Json
open MatchingBench.Harness.Audit
open MatchingBench.Harness.CommandLine (modeName)
open MatchingBench.Harness.Drainer
open MatchingBench.Harness.Marshalling
open MatchingBench.Harness.Printed
open MatchingBench.Harness.ReferenceHash
open MatchingBench.Correctness
open MatchingBench.Canonical.Sha256
open MatchingBench.Harness.Verdict

/-! ## `json_escape` -/

/-- A character of `json_escape`. -/
def escaped (char : Char) : List Char :=
  if char = '"' then ['\\', '"']
  else if char = '\\' then ['\\', '\\']
  else if char = '\n' then ['\\', 'n']
  else if char = '\r' then ['\\', 'r']
  else if char = '\t' then ['\\', 't']
  else if char.toNat < 32 then
    ['\\', 'u', '0', '0', Nat.digitChar (char.toNat / 16),
      Nat.digitChar (char.toNat % 16)]
  else [char]

/-- `json_escape`. -/
def jsonEscape (text : List Char) : List Char :=
  text.flatMap escaped

/-- `jstr`. -/
def jstr (text : List Char) : List Char :=
  if text = [] then "null".toList else quoted (jsonEscape text)

/-! ## `platform_fingerprint_json` -/

/-- What is found out about the machine; an empty text stands for nothing. -/
structure Fingerprint where
  cpuModel : List Char
  cores : Nat
  cpuHash : List Char
  memTotal : List Char
  kernel : List Char
  arch : List Char
  product : List Char
  aws : List Char
  compiler : List Char

/-- Members on one line. -/
def inline : Layout where
  opening := []
  between := [' ']
  closing := []
  white_opening := rfl
  white_between := rfl
  white_closing := rfl

/-- Members on a line each. -/
def multiline : Layout where
  opening := ['\n', ' ', ' ']
  between := ['\n', ' ', ' ']
  closing := ['\n']
  white_opening := rfl
  white_between := rfl
  white_closing := rfl

/-- The members of the fingerprint. -/
def Fingerprint.members (host : Fingerprint) :
    List (List Char × List Char) :=
  [("cpu_model".toList, jstr host.cpuModel),
    ("cpu_cores".toList, decimal host.cores),
    ("cpuinfo_sha256".toList, jstr host.cpuHash),
    ("mem_total".toList, jstr host.memTotal),
    ("kernel".toList, jstr host.kernel),
    ("arch".toList, jstr host.arch),
    ("system_product".toList, jstr host.product),
    ("aws_instance_type".toList, jstr host.aws),
    ("compiler".toList, jstr host.compiler)]

/-- `platform_fingerprint_json`. -/
def platformFingerprintJson (host : Fingerprint) : List Char :=
  objectText inline host.members

/-! ## The file -/

/-- The readings of a run that only its record shows. -/
structure Readings where
  wallTime : NumberText
  throughput : NumberText
  prebuildRatio : NumberText
  excludedFrac : NumberText
  threadsAfterInit : Int
  threadsAfterRun : Int
  matcherCore : Int
  drainerCore : Int
  /-- `cores_same_physical`, where the topology can be read. -/
  smtSame : Option Bool
  host : Fingerprint

/-- What the record of a run is printed from. -/
structure Results where
  args : Args
  machine : Machine
  preRead : Option (List Char)
  workload : List WorkloadMsg
  drain : DrainState
  computed : List Char
  outcome : Outcome
  readings : Readings

/-- `VALID` or `INVALID`. -/
def verdictText (valid : Bool) : List Char :=
  if valid then "VALID".toList else "INVALID".toList

/-- `true` or `false`. -/
def boolText (value : Bool) : List Char :=
  if value then "true".toList else "false".toList

namespace Results

variable (r : Results)

/-- `mode == Mode::PERF ? mps * 1e6 : 0.0`. -/
def throughput : List Char :=
  match r.args.mode with
  | .perf => r.readings.throughput.text
  | .audit => ['0']

/-- `engine_threads`. -/
def engineThreads : Int :=
  if r.readings.threadsAfterInit < r.readings.threadsAfterRun then
    r.readings.threadsAfterRun - r.readings.threadsAfterInit
  else 0

/-- `audit.baseline`. -/
def baseline : List Char :=
  match r.args.mode with
  | .perf => []
  | .audit => (baseName r.args.engineName).toList

/-- `audit.verify_seed`. -/
def verifySeed : UInt64 :=
  if r.outcome.audit.ran then r.machine.verifySeed else 0

/-- `expected`, empty without a published hash. -/
def expectedText : List Char :=
  (expected r.args r.preRead).getD []

/-- The reports by type. -/
def reports : List (List Char × List Char) :=
  [("order_ack".toList, decimal r.drain.orderAcks),
    ("trade".toList, decimal r.drain.trades),
    ("cancel_ack".toList, decimal r.drain.cancelAcks),
    ("modify_ack".toList, decimal r.drain.modifyAcks),
    ("cancel_reject".toList, decimal r.drain.cancelRejects),
    ("modify_reject".toList, decimal r.drain.modifyRejects)]

def correctness : List (List Char × List Char) :=
  [("status".toList, quoted (statusText r.outcome.status)),
    ("expected_hash".toList, quoted r.expectedText),
    ("computed_hash".toList, quoted r.computed)]

def threads : List (List Char × List Char) :=
  [("after_init".toList, signedDecimal r.readings.threadsAfterInit),
    ("after_run".toList, signedDecimal r.readings.threadsAfterRun),
    ("engine_spawned".toList, signedDecimal r.engineThreads)]

def audit : List (List Char × List Char) :=
  [("ran".toList, boolText r.outcome.audit.ran),
    ("passed".toList, boolText r.outcome.audit.passed),
    ("checks".toList, decimal r.outcome.audit.checks),
    ("mismatches".toList, decimal r.outcome.audit.mismatches),
    ("baseline".toList, quoted r.baseline),
    ("verify_seed".toList, decimal r.verifySeed.toNat),
    ("note".toList, quoted r.outcome.audit.note.toList)]

def affinity : List (List Char × List Char) :=
  [("matcher".toList, boolText r.machine.matcherPinned),
    ("drainer".toList, boolText r.machine.drainerPinned),
    ("matcher_core".toList, signedDecimal r.readings.matcherCore),
    ("drainer_core".toList, signedDecimal r.readings.drainerCore),
    ("same_physical_core".toList,
      (r.readings.smtSame.map boolText).getD "null".toList)]

/-- The members of the record. -/
def members : List (List Char × List Char) :=
  [("engine".toList, quoted r.args.engineName.toList),
    ("scenario".toList, quoted r.args.scenario.name),
    ("mode".toList, quoted (modeName r.args.mode)),
    ("seed".toList, decimal r.args.seed.toNat),
    ("messages".toList, decimal r.workload.length),
    ("wall_time_s".toList, r.readings.wallTime.text),
    ("throughput_msgs_per_s".toList, r.throughput),
    ("prebuild_ratio".toList, r.readings.prebuildRatio.text),
    ("excluded_frac".toList, r.readings.excludedFrac.text),
    ("reports".toList, objectText inline r.reports),
    ("correctness".toList, objectText inline r.correctness),
    ("threads".toList, objectText inline r.threads),
    ("audit".toList, objectText inline r.audit),
    ("affinity".toList, objectText inline r.affinity),
    ("verdict".toList, quoted (verdictText r.outcome.valid)),
    ("platform".toList, platformFingerprintJson r.readings.host)]

/-- The record as `main` prints it. -/
def text : List Char :=
  objectText multiline r.members ++ ['\n']

/-- What stands between the directory and the ending in `result_path`. -/
def stem (timestamp : List Char) (pid : Nat) : List Char :=
  r.args.engineName.toList ++ ['_'] ++ r.args.scenario.name ++ ['_'] ++
    modeName r.args.mode ++ "_s".toList ++ decimal r.args.seed.toNat ++
    ['_'] ++ timestamp ++ "_p".toList ++ decimal pid

/-- `result_path`. -/
def path (timestamp : List Char) (pid : Nat) : List Char :=
  "results/".toList ++ r.stem timestamp pid ++ ".json".toList

/-! ## What the record says -/

/-- The value of `jstr`. -/
def jstrValue (text : List Char) : Value :=
  if text = [] then .null else .string text

/-- What the fingerprint says. -/
def hostValues (host : Fingerprint) : List (List Char × Value) :=
  [("cpu_model".toList, jstrValue host.cpuModel),
    ("cpu_cores".toList, .number (decimal host.cores)),
    ("cpuinfo_sha256".toList, jstrValue host.cpuHash),
    ("mem_total".toList, jstrValue host.memTotal),
    ("kernel".toList, jstrValue host.kernel),
    ("arch".toList, jstrValue host.arch),
    ("system_product".toList, jstrValue host.product),
    ("aws_instance_type".toList, jstrValue host.aws),
    ("compiler".toList, jstrValue host.compiler)]

def reportValues : List (List Char × Value) :=
  [("order_ack".toList, .number (decimal r.drain.orderAcks)),
    ("trade".toList, .number (decimal r.drain.trades)),
    ("cancel_ack".toList, .number (decimal r.drain.cancelAcks)),
    ("modify_ack".toList, .number (decimal r.drain.modifyAcks)),
    ("cancel_reject".toList, .number (decimal r.drain.cancelRejects)),
    ("modify_reject".toList, .number (decimal r.drain.modifyRejects))]

def correctnessValues : List (List Char × Value) :=
  [("status".toList, .string (statusText r.outcome.status)),
    ("expected_hash".toList, .string r.expectedText),
    ("computed_hash".toList, .string r.computed)]

def threadValues : List (List Char × Value) :=
  [("after_init".toList,
      .number (signedDecimal r.readings.threadsAfterInit)),
    ("after_run".toList, .number (signedDecimal r.readings.threadsAfterRun)),
    ("engine_spawned".toList, .number (signedDecimal r.engineThreads))]

def auditValues : List (List Char × Value) :=
  [("ran".toList, .bool r.outcome.audit.ran),
    ("passed".toList, .bool r.outcome.audit.passed),
    ("checks".toList, .number (decimal r.outcome.audit.checks)),
    ("mismatches".toList, .number (decimal r.outcome.audit.mismatches)),
    ("baseline".toList, .string r.baseline),
    ("verify_seed".toList, .number (decimal r.verifySeed.toNat)),
    ("note".toList, .string r.outcome.audit.note.toList)]

def affinityValues : List (List Char × Value) :=
  [("matcher".toList, .bool r.machine.matcherPinned),
    ("drainer".toList, .bool r.machine.drainerPinned),
    ("matcher_core".toList, .number (signedDecimal r.readings.matcherCore)),
    ("drainer_core".toList, .number (signedDecimal r.readings.drainerCore)),
    ("same_physical_core".toList,
      (r.readings.smtSame.map Value.bool).getD .null)]

/-- What the record says. -/
def values : List (List Char × Value) :=
  [("engine".toList, .string r.args.engineName.toList),
    ("scenario".toList, .string r.args.scenario.name),
    ("mode".toList, .string (modeName r.args.mode)),
    ("seed".toList, .number (decimal r.args.seed.toNat)),
    ("messages".toList, .number (decimal r.workload.length)),
    ("wall_time_s".toList, .number r.readings.wallTime.text),
    ("throughput_msgs_per_s".toList, .number r.throughput),
    ("prebuild_ratio".toList, .number r.readings.prebuildRatio.text),
    ("excluded_frac".toList, .number r.readings.excludedFrac.text),
    ("reports".toList, .object r.reportValues),
    ("correctness".toList, .object r.correctnessValues),
    ("threads".toList, .object r.threadValues),
    ("audit".toList, .object r.auditValues),
    ("affinity".toList, .object r.affinityValues),
    ("verdict".toList, .string (verdictText r.outcome.valid)),
    ("platform".toList, .object (hostValues r.readings.host))]

end Results

/-! ## Values of texts -/

/-- What `json_escape` makes of a character stands for the character. -/
theorem spells_escaped (char : Char) : Spells (escaped char) char := by
  intro rest
  have hexadecimal : ∀ code < 32,
      unicode '0' '0' (Nat.digitChar (code / 16)) (Nat.digitChar (code % 16)) =
        some (Char.ofNat code) := by
    decide
  unfold escaped
  split
  · rename_i quote
    subst quote
    exact scanString_unescape (by decide) rfl rest
  split
  · rename_i backslash
    subst backslash
    exact scanString_unescape (by decide) rfl rest
  split
  · rename_i newline
    subst newline
    exact scanString_unescape (by decide) rfl rest
  split
  · rename_i carriage
    subst carriage
    exact scanString_unescape (by decide) rfl rest
  split
  · rename_i tab
    subst tab
    exact scanString_unescape (by decide) rfl rest
  split
  · rename_i control
    have code := hexadecimal char.toNat control
    rw [Char.ofNat_toNat] at code
    exact scanString_unicode code rest
  · rename_i quote backslash _ _ _ printable
    exact scanString_plain quote backslash printable rest

/-- A text is read back from its escaped form, whatever it holds. -/
theorem scans_jstr (text : List Char) :
    Scans (jstr text) (Results.jstrValue text) := by
  rw [jstr, Results.jstrValue]
  split
  · exact scans_null
  · exact scans_string (scanString_spelled spells_escaped text)

theorem scans_plain {text : List Char} (all : text.all plain = true) :
    Scans (quoted text) (.string text) :=
  scans_string (scanString_of_plain (List.all_eq_true.mp all))

theorem scans_boolText (value : Bool) :
    Scans (boolText value) (.bool value) := by
  cases value with
  | true => exact scans_true
  | false => exact scans_false

/-! ## The members stand for what the record says -/

theorem members_host (host : Fingerprint) :
    List.Forall₂ Member host.members (Results.hostValues host) := by
  refine .cons (.of rfl (scans_jstr _)) <| .cons (.of rfl (scans_decimal _)) <|
    .cons (.of rfl (scans_jstr _)) <| .cons (.of rfl (scans_jstr _)) <|
    .cons (.of rfl (scans_jstr _)) <| .cons (.of rfl (scans_jstr _)) <|
    .cons (.of rfl (scans_jstr _)) <| .cons (.of rfl (scans_jstr _)) <|
    .cons (.of rfl (scans_jstr _)) .nil

namespace Results

variable {r : Results}

theorem members_reports :
    List.Forall₂ Member r.reports r.reportValues := by
  refine .cons (.of rfl (scans_decimal _)) <|
    .cons (.of rfl (scans_decimal _)) <|
    .cons (.of rfl (scans_decimal _)) <|
    .cons (.of rfl (scans_decimal _)) <|
    .cons (.of rfl (scans_decimal _)) <|
    .cons (.of rfl (scans_decimal _)) .nil

theorem members_threads :
    List.Forall₂ Member r.threads r.threadValues := by
  refine .cons (.of rfl (scans_signedDecimal _)) <|
    .cons (.of rfl (scans_signedDecimal _)) <|
    .cons (.of rfl (scans_signedDecimal _)) .nil

theorem members_affinity :
    List.Forall₂ Member r.affinity r.affinityValues := by
  have physical : Scans ((r.readings.smtSame.map boolText).getD
      "null".toList) ((r.readings.smtSame.map Value.bool).getD .null) := by
    cases r.readings.smtSame with
    | none => exact scans_null
    | some same => exact scans_boolText same
  refine .cons (.of rfl (scans_boolText _)) <|
    .cons (.of rfl (scans_boolText _)) <|
    .cons (.of rfl (scans_signedDecimal _)) <|
    .cons (.of rfl (scans_signedDecimal _)) <|
    .cons (.of rfl physical) .nil

/-- The texts that are printed without being escaped need no escapes. -/
structure Plain (r : Results) : Prop where
  engine : r.args.engineName.toList.all plain = true
  expected : r.expectedText.all plain = true
  computed : r.computed.all plain = true
  note : r.outcome.audit.note.toList.all plain = true

theorem plain_statusText (status : Status) :
    (statusText status).all plain = true := by
  cases status <;> decide

theorem plain_baseline : r.baseline.all plain = true := by
  rw [baseline]
  cases r.args.mode with
  | perf => rfl
  | audit =>
      dsimp only
      rw [baseName]
      split <;> decide

theorem plain_scenario : r.args.scenario.name.all plain = true := by
  have accepted := r.args.scenario.accepted.2
  rw [List.all_eq_true] at accepted ⊢
  intro char member
  have named := accepted char member
  have printable := scenarioChar_printable named
  simp only [plain, Bool.and_eq_true, decide_eq_true_eq]
  refine ⟨⟨?_, ?_⟩, by omega⟩
  · rintro rfl
    exact absurd named (by decide)
  · rintro rfl
    exact absurd named (by decide)

theorem plain_of_isHash {hash : List Char} (valid : isHash hash = true) :
    hash.all plain = true := by
  rw [isHash, Bool.and_eq_true, List.all_eq_true] at valid
  rw [List.all_eq_true]
  intro char member
  have digits : "0123456789abcdef".toList.all plain = true := by decide
  exact List.all_eq_true.mp digits char
    (List.contains_iff_mem.mp (valid.2 char member))

theorem scans_throughput :
    Scans r.throughput (.number r.throughput) := by
  rw [throughput]
  cases r.args.mode with
  | perf => exact scans_number _
  | audit => exact scans_decimal 0

section Printed

variable (all : Plain r)
include all

theorem members_correctness :
    List.Forall₂ Member r.correctness r.correctnessValues := by
  refine .cons (.of rfl (scans_plain (plain_statusText _))) <|
    .cons (.of rfl (scans_plain all.expected)) <|
    .cons (.of rfl (scans_plain all.computed)) .nil

theorem members_audit :
    List.Forall₂ Member r.audit r.auditValues := by
  refine .cons (.of rfl (scans_boolText _)) <|
    .cons (.of rfl (scans_boolText _)) <|
    .cons (.of rfl (scans_decimal _)) <|
    .cons (.of rfl (scans_decimal _)) <|
    .cons (.of rfl (scans_plain plain_baseline)) <|
    .cons (.of rfl (scans_decimal _)) <|
    .cons (.of rfl (scans_plain all.note)) .nil

theorem members_values : List.Forall₂ Member r.members r.values := by
  have mode : (modeName r.args.mode).all plain = true := by
    cases r.args.mode <;> decide
  have verdict : (verdictText r.outcome.valid).all plain = true := by
    cases r.outcome.valid <;> decide
  have some_ {α : Type} {first : α} {rest : List α} : first :: rest ≠ [] :=
    List.cons_ne_nil _ _
  refine .cons (.of rfl (scans_plain all.engine)) <|
    .cons (.of rfl (scans_plain plain_scenario)) <|
    .cons (.of rfl (scans_plain mode)) <|
    .cons (.of rfl (scans_decimal _)) <|
    .cons (.of rfl (scans_decimal _)) <|
    .cons (.of rfl (scans_number _)) <|
    .cons (.of rfl scans_throughput) <|
    .cons (.of rfl (scans_number _)) <|
    .cons (.of rfl (scans_number _)) <|
    .cons (.of rfl (scans_object some_ members_reports)) <|
    .cons (.of rfl (scans_object some_ (members_correctness all))) <|
    .cons (.of rfl (scans_object some_ members_threads)) <|
    .cons (.of rfl (scans_object some_ (members_audit all))) <|
    .cons (.of rfl (scans_object some_ members_affinity)) <|
    .cons (.of rfl (scans_plain verdict)) <|
    .cons (.of rfl (scans_object some_ (members_host _))) .nil

theorem scans_members :
    Scans (objectText multiline r.members) (.object r.values) :=
  scans_object (List.cons_ne_nil _ _) (members_values all)

/-- The record is read back. -/
theorem loads_text : loads r.text = some (.object r.values) :=
  (scans_members all).loads rfl

/-- What reached the disk of it is refused unless it is all of the object. -/
theorem loads_cut {part : List Char} (cut : part <+: r.text) :
    loads part =
      if r.text.length ≤ part.length + 1 then some (.object r.values)
      else none := by
  obtain ⟨behind, whole⟩ := cut
  obtain ⟨front, last⟩ := objectText_last multiline r.members
  have length := congrArg List.length whole
  rw [List.length_append] at length
  split
  · rename_i complete
    cases behind with
    | nil =>
        rw [List.append_nil] at whole
        rw [whole]
        exact loads_text all
    | cons char behind =>
        have newline : behind = [] := by
          rw [List.length_cons] at length
          exact List.length_eq_zero_iff.mp (by omega)
        subst newline
        have same := List.append_inj_left' whole rfl
        have read := @Scans.loads _ _ (scans_members all) [] rfl
        rw [List.append_nil] at read
        rw [same]
        exact read
  · rename_i short
    cases found : loads part with
    | none => rfl
    | some value =>
        have read := loads_text all
        rw [← whole] at read
        have opens : (part ++ behind).head? = some '{' := by
          rw [whole]
          rfl
        have spaces := (loads_of_cut opens read found).2
        rw [skip, List.dropWhile_eq_nil_iff] at spaces
        have ending : ['}', '\n'] <:+ behind := by
          refine List.suffix_of_suffix_length_le ⟨front, ?_⟩
            ⟨part, whole⟩ ?_
          · rw [text, last, List.append_assoc]
            rfl
          · rw [List.length_cons, List.length_singleton]
            omega
        have brace := spaces '}' (ending.subset List.mem_cons_self)
        cases brace

end Printed

end Results

/-! ## The record of a run -/

section Run

variable {σ : Type} (args : Args) (machine : Machine)
  (preRead reRead : Option (List Char)) (workload : List WorkloadMsg)
  (engine : Engine σ) (baselines : String → BaselineFile)
  (auditIdx : List Nat) (drain : DrainState) (readings : Readings)

/-- What the record of a run of `main` is printed from. -/
def resultsOf : Results where
  args := args
  machine := machine
  preRead := preRead
  workload := workload
  drain := drain
  computed :=
    (computeCanonicalHash sha256HexOf drain.collected).1.toList
  outcome := harnessMain args machine preRead reRead workload engine
    baselines auditIdx drain
  readings := readings

theorem plain_expected :
    ((expected args preRead).getD []).all plain = true := by
  cases published : expected args preRead with
  | none => rfl
  | some hash => exact Results.plain_of_isHash (isHash_expected published)

theorem plain_stateAudit (utSnaps : List QuerySnapshot) :
    (stateAudit args baselines workload utSnaps).note.toList.all plain =
      true := by
  have notes : ∀ base ∈ ["quantcup", "liquibook"],
      ("baseline '" ++ base ++
        "' not built — run scripts/build_baselines.sh").toList.all plain =
          true ∧
        ("baseline '" ++ base ++ "' failed to load").toList.all plain =
          true := by
    decide
  have base : baseName args.engineName ∈ ["quantcup", "liquibook"] := by
    rw [baseName]
    split <;> decide
  rw [stateAudit]
  cases args.mode with
  | perf => rfl
  | audit =>
      dsimp only
      cases baselines (baseName args.engineName) with
      | missing => exact (notes _ base).1
      | broken => exact (notes _ base).2
      | loads lib =>
          dsimp only
          rw [runStateAudit]
          split
          · decide
          · dsimp only
            split <;> decide

theorem plain_computed (reports : List CollectedReport) :
    (computeCanonicalHash sha256HexOf reports).1.toList.all plain = true := by
  have digest : (computeCanonicalHash sha256HexOf reports).1.toList =
      (hexDigest (textBytes (buildCanonicalText reports).1)).hex :=
    String.toList_ofList
  rw [digest]
  exact Results.plain_of_isHash (Digest.isHash _)

/-- Only the name of the engine is printed as it was given. -/
theorem plain_resultsOf
    (engineName : args.engineName.toList.all plain = true) :
    (resultsOf args machine preRead reRead workload engine baselines auditIdx
      drain readings).Plain where
  engine := engineName
  expected := plain_expected args preRead
  computed := plain_computed drain.collected
  note := plain_stateAudit args workload baselines _

/--
What reaches the disk of the record of a run, be it cut off behind any
character, is read back as all that the record says or not at all; it is read
back exactly when nothing but the last line feed can be missing.  Bytes that
end inside a character of more than one byte are no text: nothing is read.
-/
theorem result_file_exact
    (engineName : args.engineName.toList.all plain = true)
    {part : List Char}
    (cut : part <+: (resultsOf args machine preRead reRead workload engine
      baselines auditIdx drain readings).text) :
    loads part =
      if (resultsOf args machine preRead reRead workload engine baselines
          auditIdx drain readings).text.length ≤ part.length + 1 then
        some (.object (resultsOf args machine preRead reRead workload engine
          baselines auditIdx drain readings).values)
      else none :=
  Results.loads_cut
    (plain_resultsOf args machine preRead reRead workload engine baselines
      auditIdx drain readings engineName) cut

end Run

/-- The readings of a run that took no time on a machine without a name. -/
def noReadings : Readings where
  wallTime := printedInt 0
  throughput := printedInt 0
  prebuildRatio := printedInt 0
  excludedFrac := printedInt 0
  threadsAfterInit := 1
  threadsAfterRun := 1
  matcherCore := 2
  drainerCore := 3
  smtSame := none
  host :=
    { cpuModel := [], cores := 0, cpuHash := [], memTotal := [], kernel := []
      arch := [], product := [], aws := [], compiler := "gcc".toList }

/-- The record of the audit of two reports on a message, cut off in the end. -/
theorem result_file_exact_singleBuy :
    loads (resultsOf auditArgs quietMachine none none singleBuy.msgs twice
        (fun _ => .missing) [0] .start noReadings).text.dropLast =
      some (.object (resultsOf auditArgs quietMachine none none singleBuy.msgs
        twice (fun _ => .missing) [0] .start noReadings).values) := by
  rw [result_file_exact auditArgs quietMachine none none singleBuy.msgs twice
    (fun _ => .missing) [0] .start noReadings (by decide)
    (List.dropLast_prefix _), List.length_dropLast, if_pos (by omega)]

end MatchingBench.Harness.ResultFile
