import MatchingBench.Canonical.Sha256
import MatchingBench.Harness.Deliveries
import MatchingBench.Pgellert.ReportCount

/-!
# The verdict

`main` of `harness.cpp`, from the snapshot of the reference hashes to the exit
code.  The engine is any machine that pushes reports while it is called; its
reports reach the drainer under any schedule.  The two comparisons of clock
readings are answers of the machine that runs the harness.
-/

set_option autoImplicit false

namespace MatchingBench.Harness.Verdict

open MatchingBench.Api
open MatchingBench.Correctness
open MatchingBench.Canonical.Sha256
open MatchingBench.Lib.Runs
open MatchingBench.Harness.Audit
open MatchingBench.Harness.Deliveries
open MatchingBench.Harness.Drainer
open MatchingBench.Harness.Marshalling
open MatchingBench.Harness.ReferenceHash
open MatchingBench.Pgellert.ReportCount

variable {σ : Type}

/-! ## What a run is given -/

/-- The ABI with `engine_flush`, and the reports pushed to the sink so far. -/
structure Engine (σ : Type) extends EngineLib σ where
  flush : σ → σ
  pushed : σ → List Report

/-- The command line, as far as it is used past the loading of the workload. -/
structure Args where
  engineName : String
  scenario : Scenario
  seed : UInt64
  count : UInt64
  mode : Mode
  writeReference : Bool
  /-- `--write-canonical-output` names a file. -/
  canonicalOutput : Bool
  exclusive : ¬(writeReference = true ∧ canonicalOutput = true)

/-- Without `--write-reference` nothing excludes the other flag. -/
theorem not_writing {canonicalOutput : Bool} :
    ¬(false = true ∧ canonicalOutput = true) :=
  fun both => Bool.false_ne_true both.1

/-- `want_tag` of a run. -/
def Args.wantTag (args : Args) : List Char :=
  ReferenceHash.wantTag args.scenario args.seed args.count

/-- What the machine answers in the course of a run. -/
structure Machine where
  initNonce : UInt64
  verifySeed : UInt64
  matcherPinned : Bool
  drainerPinned : Bool
  /-- `prebuild_ratio <= PREBUILD_FAIL_RATIO`, of an engine that prebuilds. -/
  prebuildRatioOk : Bool
  /-- `excluded_frac <= PROBE_FAIL_FRAC`. -/
  excludedFracOk : Bool
  reserveSlack : Nat
  grow : Nat → Nat
  grows : ∀ capacity, capacity < grow capacity
  canonicalFile : FileOutcome
  tmp : TmpOutcome

/-- What becomes of `load_engine` on the baseline's adapter. -/
inductive BaselineFile where
  | missing
  | broken
  | loads {τ : Type} (lib : EngineLib τ)

/-! ## The correctness status -/

/-- The bytes of a text of ASCII characters. -/
def textBytes (text : List Char) : List UInt8 :=
  text.map fun char => UInt8.ofNat char.toNat

/-- `sha256_hex` of a text. -/
def sha256HexOf (text : List Char) : String :=
  String.ofList (hexDigest (textBytes text)).hex

/-- The digest of the canonical text of a list of reports. -/
def canonicalDigest (reports : List Report) : Digest :=
  hexDigest (textBytes (buildCanonicalText (reports.map collect)).1)

/-- `status`. -/
inductive Status where
  | pass
  | fail
  | noReference
  | referenceWritten
deriving DecidableEq, Repr

/-- The status of a computed hash, by the entries read before the engine. -/
def statusOf
    (writeReference : Bool) (preReadHashEntries : HashEntries)
    (wantTag computed : List Char) : Status :=
  if writeReference then
    .referenceWritten
  else
    match preReadHashEntries.get wantTag with
    | none => .noReference
    | some expected => if expected = computed then .pass else .fail

/-! ## The state audit -/

/-- The baseline of the audit. -/
def baseName (engineName : String) : String :=
  if engineName = "liquibook" then "quantcup" else "liquibook"

/-- `AuditReport` before an audit. -/
def auditSkipped (note : String) : AuditReport where
  ran := false
  passed := false
  checks := 0
  mismatches := 0
  note := note

/-- The random-point audit of a run in audit mode. -/
def stateAudit
    (args : Args) (baselines : String → BaselineFile)
    (workload : List WorkloadMsg) (utSnaps : List QuerySnapshot) :
    AuditReport :=
  match args.mode with
  | .perf => auditSkipped ""
  | .audit =>
      let base := baseName args.engineName
      match baselines base with
      | .missing =>
          auditSkipped ("baseline '" ++ base ++
            "' not built — run scripts/build_baselines.sh")
      | .broken => auditSkipped ("baseline '" ++ base ++ "' failed to load")
      | .loads lib => runStateAudit lib workload utSnaps

/-! ## `main` -/

/-- What a run leaves behind. -/
structure Outcome where
  status : Status
  audit : AuditReport
  correctnessOk : Bool
  auditOk : Bool
  affinityOk : Bool
  prestartBookEmpty : Bool
  prebuildTimeOk : Bool
  reportBufferOk : Bool
  probeTimeOk : Bool
  canonicalOutputOk : Bool
  /-- The reference hash file after the run. -/
  hashFile : Option (List Char)

/-- `valid`. -/
def Outcome.valid (o : Outcome) : Bool :=
  o.correctnessOk && o.auditOk && o.affinityOk && o.prestartBookEmpty &&
    o.prebuildTimeOk && o.reportBufferOk && o.probeTimeOk &&
    o.canonicalOutputOk

/-- The exit code. -/
def Outcome.exitCode (o : Outcome) : Nat :=
  if o.valid then 0 else 1

/-- The engine behind the timed window, flushed. -/
def engineEnd
    (engine : Engine σ) (mode : Mode) (initNonce : UInt64)
    (workload : List WorkloadMsg) (auditIdx : List Nat) : σ :=
  engine.flush
    (measuredRun engine.toEngineLib mode initNonce workload auditIdx).engine

/-- What a run observes of the engine, its reports aside. -/
structure Observed where
  prestartBid : Int64
  prestartAsk : Int64
  /-- The engine exports `engine_prebuild`. -/
  prebuilds : Bool
  utSnaps : List QuerySnapshot

/-- The observations of an engine whose queries leave no trace. -/
def observe
    (engine : Engine σ) (mode : Mode) (initNonce : UInt64)
    (workload : List WorkloadMsg) (auditIdx : List Nat) : Observed :=
  let prestart := engineStart engine.toEngineLib initNonce workload
  { prestartBid := engine.queryBestBid prestart
    prestartAsk := engine.queryBestAsk prestart
    prebuilds := engine.prebuild.isSome
    utSnaps :=
      (measuredRun engine.toEngineLib mode initNonce workload
        auditIdx).utSnaps }

/-- The gates and the hash file, from what was observed and drained. -/
def judge
    (args : Args) (machine : Machine) (preRead reRead : Option (List Char))
    (workload : List WorkloadMsg) (observed : Observed)
    (baselines : String → BaselineFile) (drain : DrainState) : Outcome :=
  let collected0 := collectedReserve workload.length machine.reserveSlack
  let collected := drain.collected.foldl
    (ReportVector.pushBack machine.grow) collected0
  let (computed, sorted) := computeCanonicalHash sha256HexOf collected.items
  let status := statusOf args.writeReference (readHashFile preRead)
    args.wantTag computed.toList
  let audit := stateAudit args baselines workload observed.utSnaps
  { status := status
    audit := audit
    correctnessOk := status == .pass
    auditOk := args.mode == .perf || (audit.ran && audit.passed)
    affinityOk := machine.matcherPinned && machine.drainerPinned
    prestartBookEmpty :=
      observed.prestartBid == int64Min && observed.prestartAsk == int64Max
    prebuildTimeOk := !observed.prebuilds || machine.prebuildRatioOk
    reportBufferOk := reportBufferOk collected collected0.capacity
    probeTimeOk := machine.excludedFracOk
    canonicalOutputOk :=
      !args.canonicalOutput ||
        (writeCanonicalOutput sorted machine.canonicalFile).1
    hashFile :=
      if args.writeReference then
        writeReference reRead args.wantTag computed.toList machine.tmp
      else
        reRead }

/--
`main` from `read_hash_file` on.  `preRead` is the content of the hash file
before the engine is loaded, `reRead` the one at the end of the run, and
`drain` what the drainer returns with.
-/
def harnessMain
    (args : Args) (machine : Machine) (preRead reRead : Option (List Char))
    (workload : List WorkloadMsg) (engine : Engine σ)
    (baselines : String → BaselineFile) (auditIdx : List Nat)
    (drain : DrainState) : Outcome :=
  judge args machine preRead reRead workload
    (observe engine args.mode machine.initNonce workload auditIdx) baselines
    drain

/-! ## The gates -/

/-- A vector keeps its capacity exactly as long as it has room. -/
theorem capacity_foldl_pushBack
    {grow : Nat → Nat} (grows : ∀ capacity, capacity < grow capacity)
    (reports : List CollectedReport) (v : ReportVector)
    (fits : v.items.length ≤ v.capacity) :
    v.capacity ≤ (reports.foldl (ReportVector.pushBack grow) v).capacity ∧
      ((reports.foldl (ReportVector.pushBack grow) v).capacity =
          v.capacity ↔
        v.items.length + reports.length ≤ v.capacity) := by
  induction reports generalizing v with
  | nil => exact ⟨Nat.le_refl _, iff_of_true rfl fits⟩
  | cons r reports induction =>
      have length : (v.pushBack grow r).items.length =
          v.items.length + 1 := by
        rw [ReportVector.pushBack, List.length_append,
          List.length_singleton]
      rw [List.foldl_cons, List.length_cons]
      by_cases room : v.items.length < v.capacity
      · have kept : (v.pushBack grow r).capacity = v.capacity := by
          rw [ReportVector.pushBack, if_pos room]
        obtain ⟨more, exact_⟩ :=
          induction (v.pushBack grow r) (by rw [length, kept]; omega)
        rw [kept] at more exact_
        rw [length] at exact_
        refine ⟨more, exact_.trans ?_⟩
        omega
      · have grown : (v.pushBack grow r).capacity = grow v.capacity := by
          rw [ReportVector.pushBack, if_neg room]
        have larger := grows v.capacity
        obtain ⟨more, -⟩ :=
          induction (v.pushBack grow r) (by rw [length, grown]; omega)
        rw [grown] at more
        refine ⟨by omega, ?_⟩
        constructor <;> intro <;> omega

theorem reportBufferOk_iff
    {grow : Nat → Nat} (grows : ∀ capacity, capacity < grow capacity)
    (count slack : Nat) (reports : List CollectedReport) :
    reportBufferOk
        (reports.foldl (ReportVector.pushBack grow)
          (collectedReserve count slack))
        (collectedReserve count slack).capacity = true ↔
      reports.length ≤ count * 2 + 1024 + slack := by
  have exact_ := (capacity_foldl_pushBack grows reports
    (collectedReserve count slack) (Nat.zero_le _)).2
  rw [reportBufferOk, beq_iff_eq, exact_]
  change 0 + reports.length ≤ count * 2 + 1024 + slack ↔ _
  rw [Nat.zero_add]

theorem items_foldl_pushBack
    (grow : Nat → Nat) (reports : List CollectedReport) (v : ReportVector) :
    (reports.foldl (ReportVector.pushBack grow) v).items =
      v.items ++ reports := by
  induction reports generalizing v with
  | nil => exact (List.append_nil _).symm
  | cons r reports induction =>
      rw [List.foldl_cons, induction, ReportVector.pushBack,
        List.append_assoc, List.singleton_append]

theorem statusOf_pass_iff
    {writing : Bool} {entries : HashEntries} {tag computed : List Char} :
    (statusOf writing entries tag computed == .pass) = true ↔
      writing = false ∧ entries.get tag = some computed := by
  unfold statusOf
  cases writing with
  | true => simp
  | false =>
      cases entries.get tag with
      | none => simp
      | some expected =>
          by_cases same : expected = computed <;> simp [same]

/-- The audited indices with which the rejection loop of a run ends. -/
def Picked
    (mt19937_64 : UInt64 → Nat → UInt64) (machine : Machine)
    (workload : List WorkloadMsg) (auditIdx : List Nat) : Prop :=
  ∃ fuel, auditPickIndices (mt19937_64 machine.verifySeed) workload.length
    auditPoints fuel = some auditIdx

theorem Picked.spec
    {mt19937_64 : UInt64 → Nat → UInt64} {machine : Machine}
    {workload : Workload} {auditIdx : List Nat}
    (picked : Picked mt19937_64 machine workload.msgs auditIdx) :
    auditIdx.Pairwise (· < ·) ∧
      (∀ i ∈ auditIdx, i < workload.msgs.length) ∧
      auditIdx.length = min 64 workload.msgs.length ∧ auditIdx ≠ [] := by
  obtain ⟨fuel, ends⟩ := picked
  obtain ⟨ascending, below, length⟩ :=
    auditPickIndices_spec workload.nonempty (by decide) ends
  have count : auditIdx.length = min 64 workload.msgs.length := length
  refine ⟨ascending, below, count, ?_⟩
  have some_ := workload.nonempty
  rw [← List.length_pos_iff, count]
  omega

/-- Some schedule over some queue returns the drainer in this state. -/
def Drained (pushed : List Report) (drain : DrainState) : Prop :=
  ∃ capacity actions last,
    schedule (step capacity) (start pushed) actions = some last ∧
      last.pc = .returned ∧ last.drain = drain

/-- Whatever the schedule, the drainer holds what was pushed. -/
theorem Drained.collected
    {pushed : List Report} {drain : DrainState}
    (drained : Drained pushed drain) :
    drain.collected = pushed.map collect := by
  obtain ⟨capacity, actions, last, ran, returned, rfl⟩ := drained
  obtain ⟨⟨consumed, counted, conserved⟩, stopped, observed, emptied⟩ :=
    schedule_invariant invariant_step (invariant_start pushed) ran
  have finished :=
    stopped (observed (DrainerPc.sawStop_of_returned returned))
  have all : consumed = pushed := by
    rw [← conserved, returned, emptied returned, finished]
    simp [DrainerPc.batch]
  rw [counted.collected, all]

/-- Every sequence of reports can be drained. -/
theorem exists_drained (pushed : List Report) :
    ∃ drain, Drained pushed drain := by
  have served (todo : List Report) (drain : DrainState) :
      ∃ actions last,
        schedule (step 1)
            { todo := todo, queue := [], running := true, pc := .load
              drain := drain } actions = some last ∧
          last.pc = .returned := by
    induction todo generalizing drain with
    | nil => exact ⟨[.stop, .load, .pop 0], _, rfl, rfl⟩
    | cons report todo induction =>
        obtain ⟨actions, last, ran, returned⟩ :=
          induction (drain.consume report)
        exact ⟨.push :: .load :: .pop 1 :: .consume :: .consume :: actions,
          last, ran, returned⟩
  obtain ⟨actions, last, ran, returned⟩ := served pushed DrainState.start
  exact ⟨last.drain, 1, actions, last, ran, returned, rfl⟩

section Gates

variable {args : Args} {machine : Machine}
  {preRead reRead : Option (List Char)} {workload : List WorkloadMsg}
  {observed : Observed} {baselines : String → BaselineFile}
  {drain : DrainState} {pushed : List Report}

theorem collected_items
    (collected : drain.collected = pushed.map collect) :
    (drain.collected.foldl (ReportVector.pushBack machine.grow)
        (collectedReserve workload.length machine.reserveSlack)).items =
      pushed.map collect := by
  rw [items_foldl_pushBack, collected]
  rfl

theorem computed_eq (reports : List Report) :
    (computeCanonicalHash sha256HexOf (reports.map collect)).1.toList =
      (canonicalDigest reports).hex :=
  String.toList_ofList

theorem judge_correctnessOk
    (collected : drain.collected = pushed.map collect) :
    (judge args machine preRead reRead workload observed baselines
        drain).correctnessOk = true ↔
      args.writeReference = false ∧
        (readHashFile preRead).get args.wantTag =
          some (canonicalDigest pushed).hex := by
  simp only [judge, collected_items collected, statusOf_pass_iff,
    computed_eq]

theorem judge_hashFile
    (collected : drain.collected = pushed.map collect)
    (writing : args.writeReference = true) :
    (judge args machine preRead reRead workload observed baselines
        drain).hashFile =
      writeReference reRead args.wantTag (canonicalDigest pushed).hex
        machine.tmp := by
  simp only [judge, collected_items collected, computed_eq, writing, if_true]

theorem judge_reportBufferOk
    (collected : drain.collected = pushed.map collect) :
    (judge args machine preRead reRead workload observed baselines
        drain).reportBufferOk = true ↔
      pushed.length ≤
        workload.length * 2 + 1024 + machine.reserveSlack := by
  have room := reportBufferOk_iff machine.grows workload.length
    machine.reserveSlack drain.collected
  rw [collected, List.length_map, ← collected] at room
  exact room

theorem judge_canonicalOutputOk
    (collected : drain.collected = pushed.map collect) :
    (judge args machine preRead reRead workload observed baselines
        drain).canonicalOutputOk = true ↔
      (args.canonicalOutput = true →
        machine.canonicalFile.opened = true ∧
          (buildCanonicalText (pushed.map collect)).1.length ≤
            machine.canonicalFile.accepted) := by
  have again :
      (buildCanonicalText (computeCanonicalHash sha256HexOf
        (pushed.map collect)).2).1 =
          (buildCanonicalText (pushed.map collect)).1 :=
    congrArg Prod.fst (buildCanonicalText_sorted _)
  simp only [judge, collected_items collected, Bool.or_eq_true,
    Bool.not_eq_true', writeCanonicalOutput_ok_iff, again]
  cases args.canonicalOutput <;> simp

theorem judge_prestartBookEmpty :
    (judge args machine preRead reRead workload observed baselines
        drain).prestartBookEmpty = true ↔
      observed.prestartBid = int64Min ∧ observed.prestartAsk = int64Max := by
  simp only [judge, Bool.and_eq_true, beq_iff_eq]

theorem judge_affinityOk :
    (judge args machine preRead reRead workload observed baselines
        drain).affinityOk = true ↔
      machine.matcherPinned = true ∧ machine.drainerPinned = true := by
  simp only [judge, Bool.and_eq_true]

theorem judge_prebuildTimeOk :
    (judge args machine preRead reRead workload observed baselines
        drain).prebuildTimeOk = true ↔
      (observed.prebuilds = true → machine.prebuildRatioOk = true) := by
  simp only [judge]
  cases observed.prebuilds <;> simp

/-- The audit gate. -/
theorem judge_auditOk :
    (judge args machine preRead reRead workload observed baselines
        drain).auditOk = true ↔
      (args.mode = .audit → ∃ (τ : Type) (lib : EngineLib τ),
        baselines (baseName args.engineName) = .loads lib ∧
          (runStateAudit lib workload observed.utSnaps).ran = true ∧
          (runStateAudit lib workload observed.utSnaps).passed = true) := by
  simp only [judge, stateAudit]
  cases mode : args.mode with
  | perf => simp
  | audit =>
      simp only [forall_const]
      cases found : baselines (baseName args.engineName) with
      | missing => simp [auditSkipped]
      | broken => simp [auditSkipped]
      | loads lib =>
          dsimp only
          rw [show (Mode.audit == Mode.perf) = false from rfl,
            Bool.false_or, Bool.and_eq_true]
          constructor
          · intro passed
            exact ⟨_, lib, rfl, passed⟩
          · rintro ⟨τ, other, equal, passed⟩
            cases equal
            exact passed

end Gates

/-! ## What a verdict means -/

/-- Two machines answer alike at every audited index. -/
def AnswersAlike {τ : Type}
    (engine : EngineLib σ) (baseline : EngineLib τ) (initNonce : UInt64)
    (workload : List WorkloadMsg) (auditIdx : List Nat) : Prop :=
  ∀ i ∈ auditIdx, ∀ m, workload[i]? = some m →
    engine.answers (measuredState engine initNonce workload auditIdx i) m =
      baseline.answers (replayedState baseline workload i) m

/-- The audit gate of a measured run. -/
theorem harnessMain_auditOk
    {args : Args} {machine : Machine} {preRead reRead : Option (List Char)}
    {workload : Workload} {engine : Engine σ}
    {baselines : String → BaselineFile} {auditIdx : List Nat}
    {drain : DrainState} {mt19937_64 : UInt64 → Nat → UInt64}
    (picked : Picked mt19937_64 machine workload.msgs auditIdx) :
    (harnessMain args machine preRead reRead workload.msgs engine baselines
        auditIdx drain).auditOk = true ↔
      (args.mode = .audit → ∃ (τ : Type) (lib : EngineLib τ),
        baselines (baseName args.engineName) = .loads lib ∧
          AnswersAlike engine.toEngineLib lib machine.initNonce
            workload.msgs auditIdx) := by
  obtain ⟨ascending, below, -, nonempty⟩ := picked.spec
  refine judge_auditOk.trans (imp_congr_right fun mode => ?_)
  rw [observe, mode]
  refine exists_congr fun τ => exists_congr fun lib =>
    and_congr_right fun _ => ?_
  obtain ⟨ran, -, passed⟩ := runStateAudit_measuredRun engine.toEngineLib lib
    machine.initNonce workload.capped nonempty ascending below
  exact (and_iff_right ran).trans passed

/-- The verdict is the conjunction of the gates. -/
theorem Outcome.valid_iff {o : Outcome} :
    o.valid = true ↔
      o.correctnessOk = true ∧ o.auditOk = true ∧ o.affinityOk = true ∧
        o.prestartBookEmpty = true ∧ o.prebuildTimeOk = true ∧
        o.reportBufferOk = true ∧ o.probeTimeOk = true ∧
        o.canonicalOutputOk = true := by
  simp only [Outcome.valid, Bool.and_eq_true, and_assoc]

/-! ## A run on which nothing goes wrong -/

/-- An engine that pushes the same two reports whatever it is given. -/
def twice : Engine (Int64 × UInt64) :=
  { lastBid with
    flush := id
    pushed := fun _ => twoReports }

/-- A workload of one buy at 100. -/
def singleBuy : Workload where
  msgs :=
    [{ type := 0, side := 0, ioc := 0, qty := 5, seq := 1, orderId := 7,
       priceTicks := 100 }]
  nonempty := by decide
  capped := by decide
  typed := by decide

/-- The name of a scenario passes the check of its characters. -/
theorem normal_accepted :
    "normal".toList ≠ [] ∧ "normal".toList.all scenarioChar = true := by
  decide

/-- The audit of a short scenario. -/
def auditArgs : Args where
  engineName := "twice"
  scenario := ⟨"normal".toList, normal_accepted⟩
  seed := 23
  count := 1
  mode := .audit
  writeReference := false
  canonicalOutput := false
  exclusive := not_writing

/-- A machine on which nothing goes wrong. -/
def quietMachine : Machine where
  initNonce := 0
  verifySeed := 1
  matcherPinned := true
  drainerPinned := true
  prebuildRatioOk := true
  excludedFracOk := true
  reserveSlack := 0
  grow capacity := capacity + 1
  grows capacity := Nat.lt_succ_self capacity
  canonicalFile := ⟨true, 0, true, 0⟩
  tmp := TmpOutcome.success

/-- Its measurement gates hold whatever is judged. -/
theorem judge_quietMachine
    {args : Args} (exports : args.canonicalOutput = false)
    (preRead reRead : Option (List Char)) (workload : List WorkloadMsg)
    (observed : Observed) (baselines : String → BaselineFile)
    (drain : DrainState) :
    let outcome := judge args quietMachine preRead reRead workload observed
      baselines drain
    outcome.affinityOk = true ∧ outcome.prebuildTimeOk = true ∧
      outcome.probeTimeOk = true ∧ outcome.canonicalOutputOk = true := by
  simp [judge, quietMachine, exports]

end MatchingBench.Harness.Verdict
