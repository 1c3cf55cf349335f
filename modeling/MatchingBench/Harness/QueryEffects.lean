import MatchingBench.Harness.Contract

/-!
# Queries with effects

Nothing keeps an engine from changing its state when it is queried.  What
VALID means is said of all of them.  A run of such an engine is judged like
the run of one whose queries leave no trace, if all that its queries change is
how it represents the state of that one.
-/

set_option autoImplicit false

namespace MatchingBench.Harness.QueryEffects

open MatchingBench.Api
open MatchingBench.Canonical.Sha256
open MatchingBench.Correctness
open MatchingBench.Reference
open MatchingBench.Harness.Audit
open MatchingBench.Harness.Contract
open MatchingBench.Harness.Deliveries
open MatchingBench.Harness.Dispatch
open MatchingBench.Harness.Drainer
open MatchingBench.Harness.Marshalling
open MatchingBench.Harness.ReferenceHash
open MatchingBench.Harness.Verdict
open MatchingBench.Pgellert.ReportCount

variable {σ τ υ : Type}

/-! ## Engines and runs -/

/-- The ABI of an engine, with the state that each query leaves behind. -/
structure ActiveEngine (σ : Type) extends Engine σ where
  afterBestBid : σ → σ
  afterBestAsk : σ → σ
  afterDepthAt : σ → Int64 → UInt8 → σ

/-- The engine after the three queries of a probe. -/
def ActiveEngine.probed
    (engine : ActiveEngine σ) (state : σ) (m : WorkloadMsg) : σ :=
  engine.afterDepthAt (engine.afterBestAsk (engine.afterBestBid state))
    m.priceTicks m.side

/-- The snapshot of message `i = m`, each query in the state it meets. -/
def ActiveEngine.snapshot
    (engine : ActiveEngine σ) (state : σ) (i : Nat) (m : WorkloadMsg) :
    QuerySnapshot :=
  let afterBid := engine.afterBestBid state
  let afterAsk := engine.afterBestAsk afterBid
  { index := i
    bestBid := engine.queryBestBid state
    bestAsk := engine.queryBestAsk afterBid
    probePrice := m.priceTicks
    probeSide := m.side
    depth := engine.queryDepthAt afterAsk m.priceTicks m.side }

/-- The effect of one harness call; perf runs probe as well. -/
def activeCall
    (engine : ActiveEngine σ) (mode : Mode) (workload : List WorkloadMsg)
    (run : RunState σ) : HarnessCall → RunState σ
  | .probe i =>
      match workload[i]? with
      | some m =>
          { engine := engine.probed run.engine m
            utSnaps :=
              match mode with
              | .audit => run.utSnaps ++ [engine.snapshot run.engine i m]
              | .perf => run.utSnaps }
      | none => run
  | call => runCall engine.toEngineLib mode workload run call

/-- The engine after the pre-flight queries. -/
def activeStart
    (engine : ActiveEngine σ) (initNonce : UInt64)
    (workload : List WorkloadMsg) : σ :=
  engine.afterBestAsk (engine.afterBestBid
    (engineStart engine.toEngineLib initNonce workload))

/-- The timed window up to `engine_flush`. -/
def activeRun
    (engine : ActiveEngine σ) (mode : Mode) (initNonce : UInt64)
    (workload : List WorkloadMsg) (auditIdx : List Nat) : RunState σ :=
  (dispatchCalls engine.toEngineLib workload.length auditIdx).foldl
    (activeCall engine mode workload)
    { engine := activeStart engine initNonce workload, utSnaps := [] }

/-- The engine behind the timed window, flushed. -/
def activeEnd
    (engine : ActiveEngine σ) (mode : Mode) (initNonce : UInt64)
    (workload : List WorkloadMsg) (auditIdx : List Nat) : σ :=
  engine.flush (activeRun engine mode initNonce workload auditIdx).engine

/-- What a run observes of such an engine. -/
def activeObserve
    (engine : ActiveEngine σ) (mode : Mode) (initNonce : UInt64)
    (workload : List WorkloadMsg) (auditIdx : List Nat) : Observed :=
  let started := engineStart engine.toEngineLib initNonce workload
  { prestartBid := engine.queryBestBid started
    prestartAsk := engine.queryBestAsk (engine.afterBestBid started)
    prebuilds := engine.prebuild.isSome
    utSnaps :=
      (activeRun engine mode initNonce workload auditIdx).utSnaps }

/-- `main` with such an engine. -/
def activeMain
    (args : Args) (machine : Machine) (preRead reRead : Option (List Char))
    (workload : List WorkloadMsg) (engine : ActiveEngine σ)
    (baselines : String → BaselineFile) (auditIdx : List Nat)
    (drain : DrainState) : Outcome :=
  judge args machine preRead reRead workload
    (activeObserve engine args.mode machine.initNonce workload auditIdx)
    baselines drain

/-! ## Representing a state -/

/--
An engine whose states represent those of another one: its handlers act on
what is represented, its queries answer from it and leave it alone.  Neither
exports an optional function.
-/
structure Represents
    (engine : ActiveEngine σ) (plain : Engine τ) (view : σ → τ) : Prop where
  init : ∀ initNonce, view (engine.init initNonce) = plain.init initNonce
  call : ∀ state m, view (engine.call state m) = plain.call (view state) m
  bestBid : ∀ state, engine.queryBestBid state = plain.queryBestBid (view state)
  bestAsk : ∀ state, engine.queryBestAsk state = plain.queryBestAsk (view state)
  depthAt : ∀ state price side,
    engine.queryDepthAt state price side =
      plain.queryDepthAt (view state) price side
  afterBestBid : ∀ state, view (engine.afterBestBid state) = view state
  afterBestAsk : ∀ state, view (engine.afterBestAsk state) = view state
  afterDepthAt : ∀ state price side,
    view (engine.afterDepthAt state price side) = view state
  pushed : ∀ state,
    engine.pushed (engine.flush state) =
      plain.pushed (plain.flush (view state))
  bare : engine.prebuild = none ∧ engine.onBatch = none
  plainBare : plain.prebuild = none ∧ plain.onBatch = none

section Represents

variable {engine : ActiveEngine σ} {plain : Engine τ} {view : σ → τ}
  {mode : Mode} {initNonce : UInt64} {workload : List WorkloadMsg}
  {auditIdx : List Nat}

/-- A run of the one, as a run of the other. -/
def viewed (view : σ → τ) (run : RunState σ) : RunState τ where
  engine := view run.engine
  utSnaps := run.utSnaps

theorem Represents.snapshot
    (represents : Represents engine plain view) (state : σ) (i : Nat)
    (m : WorkloadMsg) :
    engine.snapshot state i m =
      takeSnapshot plain.toEngineLib (view state) i m := by
  simp only [ActiveEngine.snapshot, takeSnapshot, represents.bestBid,
    represents.bestAsk, represents.depthAt, represents.afterBestBid,
    represents.afterBestAsk]

theorem Represents.probed
    (represents : Represents engine plain view) (state : σ)
    (m : WorkloadMsg) : view (engine.probed state m) = view state := by
  rw [ActiveEngine.probed, represents.afterDepthAt, represents.afterBestAsk,
    represents.afterBestBid]

theorem Represents.foldl_call
    (represents : Represents engine plain view) (run : List PreparedMsg)
    (state : σ) :
    view (run.foldl
        (fun state p => engine.call state (dispatchMsg p)) state) =
      run.foldl (fun state p => plain.call state (dispatchMsg p))
        (view state) := by
  induction run generalizing state with
  | nil => rfl
  | cons p run induction =>
      rw [List.foldl_cons, induction, represents.call, List.foldl_cons]

/-- One harness call does to both what it does to one. -/
theorem Represents.activeCall
    (represents : Represents engine plain view) (run : RunState σ)
    (call : HarnessCall) :
    viewed view (activeCall engine mode workload run call) =
      runCall plain.toEngineLib mode workload (viewed view run) call := by
  cases call with
  | dispatch i =>
      simp only [QueryEffects.activeCall, runCall]
      cases (workload.map prepare)[i]? with
      | none => rfl
      | some p => simp only [viewed, represents.call]
  | onBatch start length =>
      simp only [QueryEffects.activeCall, runCall, viewed, deliverRun,
        represents.bare.2, represents.plainBare.2, represents.foldl_call]
  | probe i =>
      simp only [QueryEffects.activeCall, runCall]
      cases workload[i]? with
      | none => cases mode <;> rfl
      | some m =>
          cases mode <;>
            simp only [viewed, represents.probed, represents.snapshot]

theorem Represents.foldl_activeCall
    (represents : Represents engine plain view) (calls : List HarnessCall)
    (run : RunState σ) :
    viewed view (calls.foldl (QueryEffects.activeCall engine mode workload)
        run) =
      calls.foldl (runCall plain.toEngineLib mode workload)
        (viewed view run) := by
  induction calls generalizing run with
  | nil => rfl
  | cons call calls induction =>
      rw [List.foldl_cons, induction, represents.activeCall, List.foldl_cons]

theorem Represents.engineStart
    (represents : Represents engine plain view) :
    view (Audit.engineStart engine.toEngineLib initNonce workload) =
      Audit.engineStart plain.toEngineLib initNonce workload := by
  simp only [Audit.engineStart, represents.bare.1, represents.plainBare.1,
    represents.init]

theorem Represents.activeRun
    (represents : Represents engine plain view) :
    viewed view (activeRun engine mode initNonce workload auditIdx) =
      measuredRun plain.toEngineLib mode initNonce workload auditIdx := by
  have calls :
      dispatchCalls engine.toEngineLib workload.length auditIdx =
        dispatchCalls plain.toEngineLib workload.length auditIdx := by
    simp only [dispatchCalls, represents.bare.2, represents.plainBare.2]
  rw [QueryEffects.activeRun, represents.foldl_activeCall, calls]
  simp only [viewed, activeStart, represents.afterBestAsk,
    represents.afterBestBid, represents.engineStart]
  rfl

/-- Both have pushed the same when they are flushed. -/
theorem Represents.activeEnd
    (represents : Represents engine plain view) :
    engine.pushed (activeEnd engine mode initNonce workload auditIdx) =
      plain.pushed (engineEnd plain mode initNonce workload auditIdx) := by
  rw [QueryEffects.activeEnd, represents.pushed, engineEnd,
    ← represents.activeRun]
  rfl

/-- Both runs are judged alike. -/
theorem Represents.activeMain
    (represents : Represents engine plain view) (args : Args)
    (machine : Machine) (preRead reRead : Option (List Char))
    (baselines : String → BaselineFile) (drain : DrainState) :
    activeMain args machine preRead reRead workload engine baselines
        auditIdx drain =
      harnessMain args machine preRead reRead workload plain baselines
        auditIdx drain := by
  have snaps := congrArg RunState.utSnaps
    (@Represents.activeRun _ _ _ _ _ args.mode machine.initNonce workload
      auditIdx represents)
  simp only [QueryEffects.activeMain, harnessMain, activeObserve, observe,
    represents.bestBid, represents.bestAsk, represents.afterBestBid,
    represents.engineStart, represents.bare.1, represents.plainBare.1,
    ← snaps]
  rfl

end Represents

/-! ## A deferring engine -/

/-- Messages kept back, behind a book and what it has pushed. -/
abbrev Deferred : Type :=
  List Msg × LiveBook × List Report

/-- The book and the reports once nothing is kept back. -/
def settled (state : Deferred) : LiveBook × List Report :=
  state.1.foldl handle state.2

/-- The reference, which matches only when it is queried or flushed. -/
def deferring : ActiveEngine Deferred where
  init _ := ([], Lib.OrderBook.Book.empty, [])
  onNewOrder state order := (state.1 ++ [.newOrder order], state.2)
  onCancel state request := (state.1 ++ [.cancel request], state.2)
  onModify state request := (state.1 ++ [.modify request], state.2)
  queryBestBid state := bestBid (settled state).1
  queryBestAsk state := bestAsk (settled state).1
  queryDepthAt state price side := depthAt (settled state).1 price side
  prebuild := none
  onBatch := none
  flush state := ([], settled state)
  pushed state := state.2.2
  afterBestBid state := ([], settled state)
  afterBestAsk state := ([], settled state)
  afterDepthAt state _ _ := ([], settled state)

theorem deferring_represents :
    Represents deferring referenceEngine settled where
  init _ := rfl
  call state m := by
    have kept : deferring.call state m = (state.1 ++ [m], state.2) := by
      cases m <;> rfl
    have matched : referenceEngine.call (settled state) m =
        handle (settled state) m := by
      cases m <;> rfl
    rw [kept, matched, settled, List.foldl_append, List.foldl_cons,
      List.foldl_nil, settled]
  bestBid _ := rfl
  bestAsk _ := rfl
  depthAt _ _ _ := rfl
  afterBestBid _ := rfl
  afterBestAsk _ := rfl
  afterDepthAt _ _ _ := rfl
  pushed _ := rfl
  bare := ⟨rfl, rfl⟩
  plainBare := ⟨rfl, rfl⟩

/-- The harness takes it for the reference. -/
theorem deferring_judged
    {file : Option (List Char)} {drain : DrainState}
    (written : Wrote counting crossing auditArgs.wantTag file)
    (drained : Drained
      (deferring.pushed (activeEnd deferring .audit 0 crossing.msgs
        [0, 1, 2, 3, 4])) drain) :
    let outcome := activeMain auditArgs quietMachine file none crossing.msgs
      deferring onlyReference [0, 1, 2, 3, 4] drain
    outcome.correctnessOk = true ∧ outcome.auditOk = true ∧
      outcome.prestartBookEmpty = true ∧ outcome.reportBufferOk = true := by
  have conforms := referenceEngine_conforms crossing.msgs
  dsimp only
  rw [deferring_represents.activeMain]
  rw [deferring_represents.activeEnd] at drained
  exact @conforming_gates _ _ auditArgs quietMachine file crossing
    referenceEngine referenceEngine onlyReference _ _ _ conforms conforms rfl
    rfl written picked_crossing drained none

/-! ## What a run records -/

/-- The answers of a probe, each query in the state it meets. -/
def ActiveEngine.probeAnswers
    (engine : ActiveEngine σ) (state : σ) (m : WorkloadMsg) :
    Int64 × Int64 × UInt64 :=
  let afterBid := engine.afterBestBid state
  (engine.queryBestBid state, engine.queryBestAsk afterBid,
    engine.queryDepthAt (engine.afterBestAsk afterBid) m.priceTicks m.side)

/-- The engine of a run when message `i` is about to be probed. -/
def activeState
    (engine : ActiveEngine σ) (mode : Mode) (initNonce : UInt64)
    (workload : List WorkloadMsg) (auditIdx : List Nat) (i : Nat) : σ :=
  (((dispatchCalls engine.toEngineLib workload.length auditIdx).takeWhile
      (· ≠ .probe i)).foldl (activeCall engine mode workload)
    { engine := activeStart engine initNonce workload, utSnaps := [] }).engine

/-- The indices that calls probe. -/
def probesOf (calls : List HarnessCall) : List Nat :=
  calls.filterMap fun
    | .probe i => some i
    | _ => none

theorem probesOf_cons_probe (i : Nat) (calls : List HarnessCall) :
    probesOf (.probe i :: calls) = i :: probesOf calls :=
  rfl

theorem probesOf_batchedFrom (size start : Nat) (auditIdx : List Nat) :
    probesOf (batchedFrom size start auditIdx) = auditIdx := by
  induction auditIdx generalizing start with
  | nil =>
      unfold batchedFrom
      split <;> rfl
  | cons b auditIdx induction =>
      exact congrArg (b :: ·) (induction (b + 1))

theorem probesOf_messageCalls (auditIdx indices : List Nat) :
    probesOf (indices.flatMap (messageCalls auditIdx)) =
      indices.filter (· ∈ auditIdx) := by
  induction indices with
  | nil => rfl
  | cons i indices induction =>
      rw [probesOf] at induction
      rw [List.flatMap_cons, probesOf, List.filterMap_append, induction]
      by_cases audited : i ∈ auditIdx <;> simp [messageCalls, audited]

/-- Either loop probes the audited indices, in order. -/
theorem probesOf_dispatchCalls
    (engine : EngineLib σ) {size : Nat} {auditIdx : List Nat}
    (ascending : auditIdx.Pairwise (· < ·))
    (below : ∀ i ∈ auditIdx, i < size) :
    probesOf (dispatchCalls engine size auditIdx) = auditIdx := by
  unfold dispatchCalls
  cases engine.onBatch with
  | some onBatch => exact probesOf_batchedFrom size 0 auditIdx
  | none =>
      dsimp only
      rw [perMessageDispatch_eq ascending, probesOf_messageCalls,
        filter_range_mem ascending below]

/--
Calls that probe no index twice record, for each index they probe, the answers
in the state that the calls before it lead to.
-/
theorem foldl_activeCall_utSnaps
    (engine : ActiveEngine σ) (workload : List WorkloadMsg)
    {calls : List HarnessCall} (distinct : (probesOf calls).Nodup)
    (run : RunState σ) :
    (calls.foldl (activeCall engine .audit workload) run).utSnaps =
      run.utSnaps ++ (probesOf calls).filterMap fun i =>
        workload[i]?.map (engine.snapshot
          ((calls.takeWhile (· ≠ .probe i)).foldl
            (activeCall engine .audit workload) run).engine i) := by
  induction calls generalizing run with
  | nil => exact (List.append_nil _).symm
  | cons call calls induction =>
      have passed {i : Nat} (other : call ≠ .probe i) :
          ((call :: calls).takeWhile (· ≠ .probe i)).foldl
              (activeCall engine .audit workload) run =
            (calls.takeWhile (· ≠ .probe i)).foldl
              (activeCall engine .audit workload)
              (activeCall engine .audit workload run call) := by
        rw [List.takeWhile_cons, if_pos (decide_eq_true other),
          List.foldl_cons]
      by_cases probes : ∃ i, call = .probe i
      · obtain ⟨i, rfl⟩ := probes
        rw [probesOf_cons_probe, List.nodup_cons] at distinct
        have later :
            (probesOf calls).filterMap (fun j =>
                workload[j]?.map (engine.snapshot
                  (((.probe i :: calls).takeWhile (· ≠ .probe j)).foldl
                    (activeCall engine .audit workload) run).engine j)) =
              (probesOf calls).filterMap fun j =>
                workload[j]?.map (engine.snapshot
                  ((calls.takeWhile (· ≠ .probe j)).foldl
                    (activeCall engine .audit workload)
                    (activeCall engine .audit workload run
                      (.probe i))).engine j) := by
          refine List.filterMap_congr fun j member => ?_
          rw [passed]
          intro same
          cases same
          exact distinct.1 member
        have none_before :
            (HarnessCall.probe i :: calls).takeWhile (· ≠ .probe i) = [] := by
          rw [List.takeWhile_cons, if_neg (by simp)]
        rw [List.foldl_cons, induction distinct.2, probesOf_cons_probe,
          List.filterMap_cons, later, none_before, List.foldl_nil]
        simp only [activeCall]
        cases workload[i]? with
        | none => rfl
        | some m => simp only [Option.map_some, List.append_assoc,
            List.singleton_append]
      · have same : probesOf (call :: calls) = probesOf calls := by
          cases call with
          | probe i => exact absurd ⟨i, rfl⟩ probes
          | dispatch i => rfl
          | onBatch start length => rfl
        have unrecorded :
            (activeCall engine .audit workload run call).utSnaps =
              run.utSnaps := by
          cases call with
          | probe i => exact absurd ⟨i, rfl⟩ probes
          | dispatch i =>
              simp only [activeCall, runCall]
              split <;> rfl
          | onBatch start length => rfl
        rw [same] at distinct ⊢
        rw [List.foldl_cons, induction distinct, unrecorded]
        congr 1
        refine List.filterMap_congr fun i _ => ?_
        rw [passed fun probe => probes ⟨i, probe⟩]

/-- An audited run records the answers of every probe. -/
theorem activeRun_utSnaps
    (engine : ActiveEngine σ) (initNonce : UInt64)
    (workload : List WorkloadMsg) {auditIdx : List Nat}
    (ascending : auditIdx.Pairwise (· < ·))
    (below : ∀ i ∈ auditIdx, i < workload.length) :
    (activeRun engine .audit initNonce workload auditIdx).utSnaps =
      auditIdx.filterMap fun i => workload[i]?.map (engine.snapshot
        (activeState engine .audit initNonce workload auditIdx i) i) := by
  have probes :=
    probesOf_dispatchCalls engine.toEngineLib ascending below
  have recorded := foldl_activeCall_utSnaps engine workload
    (probes.symm ▸ ascending.imp Nat.ne_of_lt)
    { engine := activeStart engine initNonce workload, utSnaps := [] }
  rw [probes] at recorded
  exact recorded

/-! ## What VALID means -/

/-- The engine's answers at every probe are those of the fed baseline. -/
def ProbesAlike
    (engine : ActiveEngine σ) (baseline : EngineLib τ) (initNonce : UInt64)
    (workload : List WorkloadMsg) (auditIdx : List Nat) : Prop :=
  ∀ i ∈ auditIdx, ∀ m, workload[i]? = some m →
    engine.probeAnswers
        (activeState engine .audit initNonce workload auditIdx i) m =
      baseline.answers
        (handled baseline (engineStart baseline 0 workload)
          (workload.take (i + 1))) m

theorem differs_eq_zero {α : Type} {a b : α} [Decidable (a ≠ b)] :
    (if a ≠ b then 1 else 0) = 0 ↔ b = a := by
  by_cases same : a = b <;> simp [same, eq_comm]

/-- A snapshot has no mismatch exactly when all three answers agree. -/
theorem mismatchesAt_snapshot
    (engine : ActiveEngine σ) (baseline : EngineLib τ) (state : σ)
    (replayed : τ) (i : Nat) (m : WorkloadMsg) :
    mismatchesAt baseline replayed (engine.snapshot state i m) = 0 ↔
      engine.probeAnswers state m = baseline.answers replayed m := by
  simp only [mismatchesAt, ActiveEngine.snapshot, ActiveEngine.probeAnswers,
    EngineLib.answers, Prod.mk.injEq, Nat.add_eq_zero_iff, and_assoc]
  exact and_congr differs_eq_zero
    (and_congr differs_eq_zero differs_eq_zero)

section Meaning

variable {engine : ActiveEngine σ} {args : Args} {machine : Machine}
  {preRead reRead : Option (List Char)} {workload : Workload}
  {baselines : String → BaselineFile} {auditIdx : List Nat}
  {drain : DrainState} {mt19937_64 : UInt64 → Nat → UInt64}

/-- The audit of an audited run passes exactly when all probes agree. -/
theorem runStateAudit_activeRun
    (engine : ActiveEngine σ) (baseline : EngineLib τ) (initNonce : UInt64)
    (nonempty : auditIdx ≠ []) (ascending : auditIdx.Pairwise (· < ·))
    (below : ∀ i ∈ auditIdx, i < workload.msgs.length) :
    let report := runStateAudit baseline workload.msgs
      (activeRun engine .audit initNonce workload.msgs auditIdx).utSnaps
    report.ran = true ∧
      (report.passed = true ↔
        ProbesAlike engine baseline initNonce workload.msgs auditIdx) := by
  have recorded :=
    activeRun_utSnaps engine initNonce workload.msgs ascending below
  generalize (activeRun engine .audit initNonce workload.msgs
    auditIdx).utSnaps = snaps at recorded ⊢
  have indices : snaps.map QuerySnapshot.index = auditIdx := by
    rw [recorded, List.map_filterMap]
    refine Eq.trans ?_ List.filterMap_some
    refine List.filterMap_congr fun i audited => ?_
    rw [List.getElem?_eq_getElem (below i audited)]
    rfl
  have some_ : snaps ≠ [] := by
    rintro rfl
    exact nonempty indices.symm
  obtain ⟨ran, -, passed⟩ := runStateAudit_spec baseline some_
    (indices.symm ▸ ascending)
    (fun ut member => below ut.index
      (indices ▸ List.mem_map_of_mem member))
  refine ⟨ran, passed.trans ?_⟩
  constructor
  · intro clean i audited m found
    have snap := clean _ (by
      rw [recorded, List.mem_filterMap]
      exact ⟨i, audited, by rw [found, Option.map_some]⟩)
    rw [← replayedState_eq baseline workload.typed]
    exact (mismatchesAt_snapshot engine baseline _ _ i m).mp snap
  · intro alike ut snap
    rw [recorded, List.mem_filterMap] at snap
    obtain ⟨i, audited, taken⟩ := snap
    obtain ⟨m, found, rfl⟩ := Option.map_eq_some_iff.mp taken
    refine (mismatchesAt_snapshot engine baseline _ _ i m).mpr ?_
    rw [replayedState_eq baseline workload.typed]
    exact alike i audited m found

/-- The audit gate. -/
theorem activeMain_auditOk
    (picked : Picked mt19937_64 machine workload.msgs auditIdx) :
    (activeMain args machine preRead reRead workload.msgs engine baselines
        auditIdx drain).auditOk = true ↔
      (args.mode = .audit → ∃ (τ : Type) (lib : EngineLib τ),
        baselines (baseName args.engineName) = .loads lib ∧
          ProbesAlike engine lib machine.initNonce workload.msgs
            auditIdx) := by
  obtain ⟨ascending, below, -, nonempty⟩ := picked.spec
  refine judge_auditOk.trans (imp_congr_right fun mode => ?_)
  rw [activeObserve, mode]
  refine exists_congr fun τ => exists_congr fun lib =>
    and_congr_right fun _ => ?_
  obtain ⟨ran, passed⟩ := runStateAudit_activeRun engine lib
    machine.initNonce nonempty ascending below
  exact (and_iff_right ran).trans passed

/-- All that a run must bring along to be marked VALID. -/
structure Validated
    (args : Args) (machine : Machine) (preRead : Option (List Char))
    (workload : List WorkloadMsg) (engine : ActiveEngine σ)
    (baselines : String → BaselineFile) (auditIdx : List Nat)
    (pushed : List Report) : Prop where
  /-- The file held the digest before the engine was loaded. -/
  published : args.writeReference = false ∧
    (readHashFile preRead).get args.wantTag =
      some (canonicalDigest pushed).hex
  audited : args.mode = .audit →
    ∃ (τ : Type) (lib : EngineLib τ),
      baselines (baseName args.engineName) = .loads lib ∧
        ProbesAlike engine lib machine.initNonce workload auditIdx
  pinned : machine.matcherPinned = true ∧ machine.drainerPinned = true
  /-- The ask is queried behind the bid. -/
  prestart :
    let started := engineStart engine.toEngineLib machine.initNonce workload
    engine.queryBestBid started = int64Min ∧
      engine.queryBestAsk (engine.afterBestBid started) = int64Max
  translated : engine.prebuild.isSome = true → machine.prebuildRatioOk = true
  roomy : pushed.length ≤ workload.length * 2 + 1024 + machine.reserveSlack
  probed : machine.excludedFracOk = true
  exported : args.canonicalOutput = true →
    machine.canonicalFile.opened = true ∧
      (buildCanonicalText (pushed.map collect)).1.length ≤
        machine.canonicalFile.accepted

end Meaning

/--
A run is marked VALID, and exits with 0, exactly when the reference file held
the digest of everything the engine pushed before the engine was loaded, the
audit found the engine's answers equal to the baseline's, and every gate on
the measurement held.  That is so for any engine, whatever its queries do to
its state, any schedule of the report path and whatever the engine makes of
the reference file meanwhile.
-/
theorem verdict_exact
    (args : Args) (machine : Machine) (preRead reRead : Option (List Char))
    (workload : Workload) (engine : ActiveEngine σ)
    (baselines : String → BaselineFile)
    {mt19937_64 : UInt64 → Nat → UInt64} {auditIdx : List Nat}
    (picked : Picked mt19937_64 machine workload.msgs auditIdx)
    {drain : DrainState}
    (drained : Drained
      (engine.pushed (activeEnd engine args.mode machine.initNonce
        workload.msgs auditIdx)) drain) :
    let outcome := activeMain args machine preRead reRead workload.msgs
      engine baselines auditIdx drain
    (outcome.valid = true ↔
        Validated args machine preRead workload.msgs engine baselines
          auditIdx (engine.pushed (activeEnd engine args.mode
            machine.initNonce workload.msgs auditIdx))) ∧
      (outcome.exitCode = 0 ↔ outcome.valid = true) := by
  intro outcome
  have collected := drained.collected
  generalize engine.pushed (activeEnd engine args.mode machine.initNonce
    workload.msgs auditIdx) = pushed at collected ⊢
  constructor
  · refine Outcome.valid_iff.trans ?_
    refine Iff.trans (and_congr (judge_correctnessOk collected)
      (and_congr (activeMain_auditOk picked) (and_congr judge_affinityOk
        (and_congr judge_prestartBookEmpty (and_congr judge_prebuildTimeOk
          (and_congr (judge_reportBufferOk collected)
            (and_congr Iff.rfl (judge_canonicalOutputOk collected))))))))
      ?_
    constructor
    · rintro ⟨published, audited, pinned, prestart, translated, roomy,
        probed, exported⟩
      exact ⟨published, audited, pinned, prestart, translated, roomy,
        probed, exported⟩
    · rintro ⟨published, audited, pinned, prestart, translated, roomy,
        probed, exported⟩
      exact ⟨published, audited, pinned, prestart, translated, roomy,
        probed, exported⟩
  · rw [Outcome.exitCode]
    cases outcome.valid <;> simp

/-- A run that matches behind its queries is VALID and exits with 0. -/
theorem verdict_exact_crossing :
    ∃ file drain,
      let outcome := activeMain auditArgs quietMachine file none crossing.msgs
        deferring onlyReference [0, 1, 2, 3, 4] drain
      outcome.valid = true ∧ outcome.exitCode = 0 := by
  obtain ⟨file, written⟩ := exists_wrote
    (referenceEngine_conforms crossing.msgs) picked_crossing tag_readable
  obtain ⟨drain, drained⟩ := exists_drained
    (deferring.pushed (activeEnd deferring .audit 0 crossing.msgs
      [0, 1, 2, 3, 4]))
  obtain ⟨correct, audited, prestart, roomy⟩ :=
    deferring_judged written drained
  obtain ⟨valid, exits⟩ := verdict_exact auditArgs quietMachine file none
    crossing deferring onlyReference picked_crossing drained
  have validated := valid.mpr
    { published := (judge_correctnessOk drained.collected).mp correct
      audited := (activeMain_auditOk picked_crossing).mp audited
      pinned := ⟨rfl, rfl⟩
      prestart := judge_prestartBookEmpty.mp prestart
      translated := fun _ => rfl
      roomy := (judge_reportBufferOk drained.collected).mp roomy
      probed := rfl
      exported := fun exports => by cases exports }
  exact ⟨file, drain, validated, exits.mpr validated⟩

/--
Whatever engine is judged VALID against a hash that a conforming engine wrote
has pushed reports that agree with the reference's line by line, unless the
two texts are a collision of SHA-256.  In audit mode against a conforming
baseline it has answered like the reference book at every audited message as
well.
-/
theorem valid_sound
    {args : Args} {machine : Machine} {file : Option (List Char)}
    {workload : Workload} {engine : ActiveEngine σ}
    {baselines : String → BaselineFile} {auditIdx : List Nat}
    {drain : DrainState} {mt19937_64 : UInt64 → Nat → UInt64}
    (written : Wrote mt19937_64 workload args.wantTag file)
    (picked : Picked mt19937_64 machine workload.msgs auditIdx)
    (drained : Drained
      (engine.pushed (activeEnd engine args.mode machine.initNonce
        workload.msgs auditIdx)) drain)
    (reRead : Option (List Char))
    (valid : (activeMain args machine file reRead workload.msgs engine
      baselines auditIdx drain).valid = true) :
    let pushed := engine.pushed (activeEnd engine args.mode
      machine.initNonce workload.msgs auditIdx)
    let reference := reportsOf (messagesOf workload.msgs)
    (SameCanonical (pushed.map collect) (reference.map collect) ∨
        canonicalBytes pushed ≠ canonicalBytes reference ∧
          sha256 (canonicalBytes pushed) =
            sha256 (canonicalBytes reference)) ∧
      (args.mode = .audit →
        ∀ (τ : Type) (baseline : Engine τ),
          Conforms baseline workload.msgs →
            baselines (baseName args.engineName) =
                .loads baseline.toEngineLib →
              ∀ i ∈ auditIdx, ∀ m, workload.msgs[i]? = some m →
                engine.probeAnswers
                    (activeState engine .audit machine.initNonce
                      workload.msgs auditIdx i) m =
                  referenceAnswers
                    (messagesOf (workload.msgs.take (i + 1))) m) := by
  intro pushed reference
  obtain ⟨correct, audited, -⟩ := Outcome.valid_iff.mp valid
  have published := ((judge_correctnessOk drained.collected).mp correct).2
  rw [written.get, Option.some_inj, canonicalDigest_eq_iff] at published
  constructor
  · by_cases same : canonicalBytes pushed = canonicalBytes reference
    · exact Or.inl (canonicalBytes_eq_iff.mp same)
    · exact Or.inr ⟨same, published.symm⟩
  · intro mode τ baseline replayed built i inside m found
    obtain ⟨τ', lib, loaded, alike⟩ :=
      (activeMain_auditOk picked).mp audited mode
    rw [built] at loaded
    cases loaded
    rw [alike i inside m found, ← replayedState_eq _ workload.typed]
    exact replayed.replayed i (List.mem_of_getElem? found)

/-- The verdict on the deferring engine, read back behind the third message. -/
theorem valid_sound_crossing :
    ∃ file drain,
      (activeMain auditArgs quietMachine file none crossing.msgs deferring
          onlyReference [0, 1, 2, 3, 4] drain).valid = true ∧
        deferring.probeAnswers
            (activeState deferring .audit 0 crossing.msgs [0, 1, 2, 3, 4] 2)
            crossing.msgs[2] =
          (101, int64Max, 4) := by
  have conforms := referenceEngine_conforms crossing.msgs
  obtain ⟨file, written⟩ := exists_wrote conforms picked_crossing tag_readable
  obtain ⟨drain, drained⟩ := exists_drained
    (deferring.pushed (activeEnd deferring .audit 0 crossing.msgs
      [0, 1, 2, 3, 4]))
  obtain ⟨correct, audited, prestart, roomy⟩ :=
    deferring_judged written drained
  have valid := Outcome.valid_iff.mpr
    ⟨correct, audited, rfl, prestart, rfl, roomy, rfl, rfl⟩
  refine ⟨file, drain, valid, ?_⟩
  exact (@valid_sound _ auditArgs quietMachine file crossing deferring
    onlyReference _ _ _ written picked_crossing drained none valid).2 rfl _
    referenceEngine conforms rfl 2 (by decide) _ rfl

end MatchingBench.Harness.QueryEffects
