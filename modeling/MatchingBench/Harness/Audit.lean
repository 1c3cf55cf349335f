import MatchingBench.Harness.Dispatch
import Mathlib.Data.Finset.Card
import Mathlib.Data.Finset.Range

/-!
# The random-point state audit

`audit_pick_indices` and `run_state_audit` of `audit.cpp`, and the capture of
book-state probes by the dispatch loops of `harness.cpp`.  The engine and the
baseline are arbitrary deterministic state machines whose queries read the
state without changing it.
-/

set_option autoImplicit false

namespace MatchingBench.Harness.Audit

open MatchingBench.Api
open MatchingBench.Harness.Marshalling
open MatchingBench.Harness.Dispatch

/-! ## Engines -/

/-- `EngineLib`: the bound ABI symbols over the engine's private state. -/
structure EngineLib (σ : Type) where
  init : UInt64 → σ
  onNewOrder : σ → NewOrder → σ
  onCancel : σ → Cancel → σ
  onModify : σ → Modify → σ
  queryBestBid : σ → Int64
  queryBestAsk : σ → Int64
  queryDepthAt : σ → Int64 → UInt8 → UInt64
  prebuild : Option (σ → UInt8 → Arm → σ)
  onBatch : Option (σ → List PreparedMsg → σ)

variable {σ τ : Type}

/-- Call the handler of one message. -/
def EngineLib.call (engine : EngineLib σ) (state : σ) : Msg → σ
  | .newOrder order => engine.onNewOrder state order
  | .cancel request => engine.onCancel state request
  | .modify request => engine.onModify state request

/-- The three queries, the depth taken at message `m`'s price and side. -/
def EngineLib.answers
    (engine : EngineLib σ) (state : σ) (m : WorkloadMsg) :
    Int64 × Int64 × UInt64 :=
  (engine.queryBestBid state, engine.queryBestAsk state,
    engine.queryDepthAt state m.priceTicks m.side)

/-! ## Picking the audited indices -/

/-- `AUDIT_POINTS`. -/
def auditPoints : Int := 64

/-- `picked.insert`; a `std::set` is kept in ascending order. -/
def setInsert (i : Nat) : List Nat → List Nat
  | [] => [i]
  | j :: picked =>
      if i < j then i :: j :: picked
      else if i = j then j :: picked
      else j :: setInsert i picked

theorem mem_setInsert {i j : Nat} {picked : List Nat} :
    j ∈ setInsert i picked ↔ j = i ∨ j ∈ picked := by
  induction picked with
  | nil => simp [setInsert]
  | cons k picked induction =>
      unfold setInsert
      split
      · simp
      · split
        · rename_i equal
          subst equal
          simp
        · simp [induction, or_left_comm]

theorem length_setInsert_le (i : Nat) (picked : List Nat) :
    (setInsert i picked).length ≤ picked.length + 1 := by
  induction picked with
  | nil => simp [setInsert]
  | cons j picked induction =>
      unfold setInsert
      split
      · simp
      · split
        · simp
        · simpa using induction

theorem ascending_setInsert
    {i : Nat} {picked : List Nat} (ascending : picked.Pairwise (· < ·)) :
    (setInsert i picked).Pairwise (· < ·) := by
  induction picked with
  | nil => simp [setInsert]
  | cons j picked induction =>
      have tail := List.pairwise_cons.mp ascending
      unfold setInsert
      split
      · rename_i less
        refine List.pairwise_cons.mpr ⟨?_, ascending⟩
        intro k member
        rcases List.mem_cons.mp member with rfl | member
        · exact less
        · exact Nat.lt_trans less (tail.1 k member)
      · split
        · exact ascending
        · refine List.pairwise_cons.mpr ⟨?_, induction tail.2⟩
          intro k member
          rcases mem_setInsert.mp member with rfl | member
          · omega
          · exact tail.1 k member

/--
The rejection loop: draw until `want` distinct indices are picked, for at most
`fuel` draws.  `rng k` is the generator's word number `k`.
-/
def pickLoop (rng : Nat → UInt64) (count want : Nat) :
    Nat → Nat → List Nat → Option (List Nat)
  | fuel, k, picked =>
      if picked.length < want then
        match fuel with
        | 0 => none
        | fuel + 1 =>
            pickLoop rng count want fuel (k + 1)
              (setInsert ((rng k).toNat % count) picked)
      else
        some picked

/-- `audit_pick_indices`. -/
def auditPickIndices
    (rng : Nat → UInt64) (count : Nat) (n : Int) (fuel : Nat) :
    Option (List Nat) :=
  if count = 0 ∨ n ≤ 0 then
    some []
  else
    pickLoop rng count (min n.toNat count) fuel 0 []

theorem pickLoop_spec
    {rng : Nat → UInt64} {count want fuel k : Nat}
    {picked result : List Nat} (positive : 0 < count)
    (ascending : picked.Pairwise (· < ·)) (length : picked.length ≤ want)
    (below : ∀ i ∈ picked, i < count)
    (ends : pickLoop rng count want fuel k picked = some result) :
    result.Pairwise (· < ·) ∧ (∀ i ∈ result, i < count) ∧
      result.length = want := by
  induction fuel generalizing k picked with
  | zero =>
      unfold pickLoop at ends
      split at ends
      · simp at ends
      · cases ends
        exact ⟨ascending, below, by omega⟩
  | succ fuel induction =>
      unfold pickLoop at ends
      split at ends
      · refine induction (ascending_setInsert ascending) ?_ ?_ ends
        · have := length_setInsert_le ((rng k).toNat % count) picked
          omega
        · intro i member
          rcases mem_setInsert.mp member with rfl | old
          · exact Nat.mod_lt _ positive
          · exact below i old
      · cases ends
        exact ⟨ascending, below, by omega⟩

/-- The picks are ascending, in range and as many as asked for. -/
theorem auditPickIndices_spec
    {rng : Nat → UInt64} {count fuel : Nat} {n : Int} {auditIdx : List Nat}
    (positive : 0 < count) (wanted : 0 < n)
    (ends : auditPickIndices rng count n fuel = some auditIdx) :
    auditIdx.Pairwise (· < ·) ∧ (∀ i ∈ auditIdx, i < count) ∧
      auditIdx.length = min n.toNat count := by
  have guard : ¬(count = 0 ∨ n ≤ 0) := by omega
  rw [auditPickIndices, if_neg guard] at ends
  exact pickLoop_spec positive List.Pairwise.nil (Nat.zero_le _) (by simp)
    ends

/-- With no more messages than points every message is audited. -/
theorem auditPickIndices_all
    {auditIdx : List Nat} {count : Nat}
    (ascending : auditIdx.Pairwise (· < ·))
    (below : ∀ i ∈ auditIdx, i < count)
    (full : auditIdx.length = count) :
    auditIdx = List.range count := by
  have nodup : auditIdx.Nodup := ascending.imp Nat.ne_of_lt
  have subset : auditIdx.toFinset ⊆ Finset.range count := by
    intro i member
    exact Finset.mem_range.mpr (below i (List.mem_toFinset.mp member))
  have whole : auditIdx.toFinset = Finset.range count := by
    refine Finset.eq_of_subset_of_card_le subset ?_
    rw [Finset.card_range, List.toFinset_card_of_nodup nodup, full]
  refine List.Perm.eq_of_pairwise
    (fun a b _ _ less greater =>
      absurd (Nat.lt_trans less greater) (Nat.lt_irrefl a))
    ascending List.pairwise_lt_range ?_
  rw [List.perm_ext_iff_of_nodup nodup List.nodup_range]
  intro i
  rw [← List.mem_toFinset, whole, Finset.mem_range, List.mem_range]

/-! ## The measured run -/

/-- `Mode`. -/
inductive Mode where
  | perf
  | audit
deriving DecidableEq, Repr

/-- `QuerySnapshot`. -/
structure QuerySnapshot where
  index : Nat
  bestBid : Int64
  bestAsk : Int64
  probePrice : Int64
  probeSide : UInt8
  depth : UInt64
deriving DecidableEq, Repr

/-- The engine under test and the snapshots recorded so far. -/
structure RunState (σ : Type) where
  engine : σ
  utSnaps : List QuerySnapshot

/-- The snapshot `probe(i)` takes of message `i = m`. -/
def takeSnapshot
    (engine : EngineLib σ) (state : σ) (i : Nat) (m : WorkloadMsg) :
    QuerySnapshot where
  index := i
  bestBid := engine.queryBestBid state
  bestAsk := engine.queryBestAsk state
  probePrice := m.priceTicks
  probeSide := m.side
  depth := engine.queryDepthAt state m.priceTicks m.side

/-- Hand one run of prepared messages to the engine. -/
def deliverRun
    (engine : EngineLib σ) (state : σ) (run : List PreparedMsg) : σ :=
  match engine.onBatch with
  | some onBatch => onBatch state run
  | none => run.foldl (fun state p => engine.call state (dispatchMsg p)) state

/-- The effect of one harness call. -/
def runCall
    (engine : EngineLib σ) (mode : Mode) (workload : List WorkloadMsg)
    (run : RunState σ) : HarnessCall → RunState σ
  | .dispatch i =>
      match (workload.map prepare)[i]? with
      | some p =>
          { engine := engine.call run.engine (dispatchMsg p)
            utSnaps := run.utSnaps }
      | none => run
  | .onBatch start length =>
      { engine :=
          deliverRun engine run.engine
            (((workload.map prepare).drop start).take (narrow32 length))
        utSnaps := run.utSnaps }
  | .probe i =>
      match mode, workload[i]? with
      | .audit, some m =>
          { engine := run.engine
            utSnaps :=
              run.utSnaps ++ [takeSnapshot engine run.engine i m] }
      | _, _ => run

/-- The engine before the first message: initialised and prebuilt. -/
def engineStart
    (engine : EngineLib σ) (initNonce : UInt64)
    (workload : List WorkloadMsg) : σ :=
  match engine.prebuild with
  | none => engine.init initNonce
  | some prebuild =>
      (workload.map prepare).foldl
        (fun state p => prebuild state (prebuildArgs p).1 (prebuildArgs p).2)
        (engine.init initNonce)

/-- The calls of the loop that the engine's exports select. -/
def dispatchCalls
    (engine : EngineLib σ) (size : Nat) (auditIdx : List Nat) :
    List HarnessCall :=
  match engine.onBatch with
  | some _ => batchedDispatch size auditIdx
  | none => perMessageDispatch size auditIdx

/-- The timed window of a run. -/
def measuredRun
    (engine : EngineLib σ) (mode : Mode) (initNonce : UInt64)
    (workload : List WorkloadMsg) (auditIdx : List Nat) : RunState σ :=
  (dispatchCalls engine workload.length auditIdx).foldl
    (runCall engine mode workload)
    { engine := engineStart engine initNonce workload, utSnaps := [] }

/-! ## The baseline replay -/

/-- `AuditReport`, without the fields the caller fills in. -/
structure AuditReport where
  ran : Bool
  passed : Bool
  checks : Nat
  mismatches : Nat
  note : String
deriving DecidableEq, Repr

/-- `feed`. -/
def feed (baseline : EngineLib τ) (state : τ) (m : WorkloadMsg) : τ :=
  baseline.call state (feedMsg m)

/-- The baseline before the replay: initialised and prebuilt. -/
def replayStart
    (baseline : EngineLib τ) (workload : List WorkloadMsg) : τ :=
  match baseline.prebuild with
  | none => baseline.init 0
  | some prebuild =>
      workload.foldl
        (fun state m =>
          prebuild state (prebuildMsgArgs m).1 (prebuildMsgArgs m).2)
        (baseline.init 0)

/-- How many of the three answers differ from a snapshot. -/
def mismatchesAt
    (baseline : EngineLib τ) (state : τ) (ut : QuerySnapshot) : Nat :=
  (if baseline.queryBestBid state ≠ ut.bestBid then 1 else 0) +
    (if baseline.queryBestAsk state ≠ ut.bestAsk then 1 else 0) +
    (if baseline.queryDepthAt state ut.probePrice ut.probeSide ≠ ut.depth
      then 1 else 0)

/-- The counters of the replay loop. -/
structure AuditCounts where
  checks : Nat
  mismatches : Nat

/--
The replay loop from message `i` on, with the snapshots from the cursor on.
It stops when either runs out.
-/
def replayLoop (baseline : EngineLib τ) :
    Nat → τ → List WorkloadMsg → List QuerySnapshot → AuditCounts →
      AuditCounts
  | _, _, [], _, counts => counts
  | _, _, _ :: _, [], counts => counts
  | i, state, m :: workload, ut :: underTest, counts =>
      let state := feed baseline state m
      if ut.index ≠ i then
        replayLoop baseline (i + 1) state workload (ut :: underTest) counts
      else
        replayLoop baseline (i + 1) state workload underTest
          { checks := counts.checks + 3
            mismatches :=
              counts.mismatches + mismatchesAt baseline state ut }

/-- `run_state_audit`. -/
def runStateAudit
    (baseline : EngineLib τ) (workload : List WorkloadMsg)
    (underTest : List QuerySnapshot) : AuditReport :=
  if underTest.isEmpty then
    { ran := true, passed := false, checks := 0, mismatches := 0
      note := "no state snapshots were recorded" }
  else
    let counts := replayLoop baseline 0 (replayStart baseline workload)
      workload underTest { checks := 0, mismatches := 0 }
    let passed := counts.checks > 0 ∧ counts.mismatches = 0
    { ran := true
      passed := passed
      checks := counts.checks
      mismatches := counts.mismatches
      note :=
        if passed then
          "order-book state matched the baseline at every probe"
        else
          "engine_query_* answers diverged from the baseline" }

/-- The baseline after it was fed the messages `0 .. i`. -/
def replayedState
    (baseline : EngineLib τ) (workload : List WorkloadMsg) (i : Nat) : τ :=
  (workload.take (i + 1)).foldl (feed baseline)
    (replayStart baseline workload)

/-! ## What the measured run records -/

/-- The runs from `start` on that end at the given audited indices. -/
def runsFrom (prepared : List PreparedMsg) :
    Nat → List Nat → List (List PreparedMsg)
  | _, [] => []
  | start, b :: auditIdx =>
      (prepared.drop start).take (b - start + 1) ::
        runsFrom prepared (b + 1) auditIdx

/--
The runs the engine has been handed when message `i` is probed: single
messages, or the batches that end at the audited indices up to `i`.
-/
def measuredRuns
    (engine : EngineLib σ) (workload : List WorkloadMsg)
    (auditIdx : List Nat) (i : Nat) : List (List PreparedMsg) :=
  match engine.onBatch with
  | some _ =>
      runsFrom (workload.map prepare) 0 (auditIdx.filter (· ≤ i))
  | none => ((workload.map prepare).take (i + 1)).map ([·])

/-- The engine in the measured run right after message `i`. -/
def measuredState
    (engine : EngineLib σ) (initNonce : UInt64)
    (workload : List WorkloadMsg) (auditIdx : List Nat) (i : Nat) : σ :=
  (measuredRuns engine workload auditIdx i).foldl (deliverRun engine)
    (engineStart engine initNonce workload)

theorem flatten_runsFrom
    {prepared : List PreparedMsg} (start last : Nat) (auditIdx : List Nat)
    (later : ∀ i ∈ auditIdx, start ≤ i)
    (ascending : (auditIdx ++ [last]).Pairwise (· < ·))
    (inside : start ≤ last) :
    (runsFrom prepared start (auditIdx ++ [last])).flatten =
      (prepared.drop start).take (last - start + 1) := by
  induction auditIdx generalizing start with
  | nil => simp [runsFrom]
  | cons b auditIdx induction =>
      rw [List.cons_append, List.pairwise_cons] at ascending
      have start_le : start ≤ b := later b List.mem_cons_self
      have b_lt : b < last := ascending.1 last (by simp)
      have rest := induction (b + 1)
        (fun i member => ascending.1 i (by simp [member]))
        ascending.2 (by omega)
      have split :
          last - start + 1 = (b - start + 1) + (last - (b + 1) + 1) := by
        omega
      have next : start + (b - start + 1) = b + 1 := by
        omega
      rw [List.cons_append, runsFrom, List.flatten_cons, rest, split,
        @List.take_add _ _ (b - start + 1), List.drop_drop, next]

/-- An ascending list up to one of its members ends with that member. -/
theorem filter_le_eq_concat
    {auditIdx : List Nat} (ascending : auditIdx.Pairwise (· < ·))
    {i : Nat} (audited : i ∈ auditIdx) :
    auditIdx.filter (· ≤ i) = auditIdx.filter (· < i) ++ [i] := by
  induction auditIdx with
  | nil => simp at audited
  | cons b auditIdx induction =>
      rw [List.pairwise_cons] at ascending
      rcases List.mem_cons.mp audited with rfl | member
      · have later (limit : Nat → Bool)
            (excluded : ∀ j, i < j → limit j = false) :
            auditIdx.filter limit = [] := by
          rw [List.filter_eq_nil_iff]
          intro j inTail
          simp [excluded j (ascending.1 j inTail)]
        simp [later (fun j => decide (j ≤ i)) (by simp),
          later (fun j => decide (j < i)) (fun j less => by
            simp only [decide_eq_false_iff_not]; omega)]
      · have less := ascending.1 i member
        simp [less, Nat.le_of_lt less, induction ascending.2 member]

/-- The runs handed over up to a probe are the messages `0 .. i`. -/
theorem flatten_measuredRuns
    (engine : EngineLib σ) (workload : List WorkloadMsg)
    {auditIdx : List Nat} (ascending : auditIdx.Pairwise (· < ·))
    {i : Nat} (audited : i ∈ auditIdx) :
    (measuredRuns engine workload auditIdx i).flatten =
      (workload.map prepare).take (i + 1) := by
  unfold measuredRuns
  cases engine.onBatch with
  | none =>
      exact List.flatMap_singleton' ((workload.map prepare).take (i + 1))
  | some onBatch =>
      have split := filter_le_eq_concat ascending audited
      have sorted := ascending.filter fun j => j ≤ i
      rw [split] at sorted
      simp only [split]
      have whole := @flatten_runsFrom (workload.map prepare) 0 i
        (auditIdx.filter (· < i)) (fun j _ => Nat.zero_le j) sorted
        (Nat.zero_le i)
      simpa using whole

/-- The snapshot of the measured run at an audited index. -/
def measuredSnapshot
    (engine : EngineLib σ) (initNonce : UInt64)
    (workload : List WorkloadMsg) (auditIdx : List Nat) (i : Nat) :
    Option QuerySnapshot :=
  workload[i]?.map
    (takeSnapshot engine
      (measuredState engine initNonce workload auditIdx i) i)

/-- The batched loop resumed at `start` records one snapshot per index. -/
theorem foldl_batchedFrom
    (engine : EngineLib σ)
    {workload : List WorkloadMsg} (capped : workload.length ≤ workloadMax)
    (start : Nat) (auditIdx : List Nat) (run : RunState σ)
    (later : ∀ i ∈ auditIdx, start ≤ i)
    (ascending : auditIdx.Pairwise (· < ·))
    (below : ∀ i ∈ auditIdx, i < workload.length) :
    ((batchedFrom workload.length start auditIdx).foldl
        (runCall engine .audit workload) run).utSnaps =
      run.utSnaps ++ auditIdx.filterMap fun i =>
        workload[i]?.map (takeSnapshot engine
          ((runsFrom (workload.map prepare) start
            (auditIdx.filter (· ≤ i))).foldl (deliverRun engine)
              run.engine) i) := by
  induction auditIdx generalizing start run with
  | nil =>
      by_cases remaining : start < workload.length <;>
        simp [batchedFrom, remaining, runCall]
  | cons b auditIdx induction =>
      rw [List.pairwise_cons] at ascending
      have start_le : start ≤ b := later b List.mem_cons_self
      have b_lt : b < workload.length := below b List.mem_cons_self
      have length : narrow32 (sizeSub b start + 1) = b - start + 1 := by
        unfold workloadMax at capped
        rw [sizeSub_of_le start_le (by omega),
          narrow32_of_le (by unfold workloadMax; omega)]
      have onlyHead : (b :: auditIdx).filter (· ≤ b) = [b] := by
        have tail : auditIdx.filter (· ≤ b) = [] := by
          rw [List.filter_eq_nil_iff]
          intro i member
          have := ascending.1 i member
          simp only [decide_eq_true_eq]
          omega
        simp [tail]
      have first : workload[b]? = some workload[b] :=
        List.getElem?_eq_getElem b_lt
      rw [batchedFrom, List.foldl_cons, List.foldl_cons,
        induction (b + 1) _ (fun i member => ascending.1 i member)
          ascending.2
          (fun i member => below i (List.mem_cons_of_mem _ member))]
      simp only [runCall, length, first, Option.map_some,
        List.filterMap_cons, onlyHead, runsFrom,
        List.foldl_cons, List.foldl_nil, List.append_assoc,
        List.singleton_append]
      congr 2
      refine List.filterMap_congr fun i member => ?_
      have less := ascending.1 i member
      simp [Nat.le_of_lt less, runsFrom]

/-- The per-message calls up to message `size`. -/
theorem foldl_messageCalls
    {engine : EngineLib σ} (single : engine.onBatch = none)
    {workload : List WorkloadMsg} (auditIdx : List Nat)
    (run : RunState σ) (size : Nat) (inside : size ≤ workload.length) :
    let last := ((List.range size).flatMap (messageCalls auditIdx)).foldl
      (runCall engine .audit workload) run
    last.engine =
        (((workload.map prepare).take size).map ([·])).foldl
          (deliverRun engine) run.engine ∧
      last.utSnaps =
        run.utSnaps ++ ((List.range size).filter (· ∈ auditIdx)).filterMap
          fun i => workload[i]?.map (takeSnapshot engine
            ((((workload.map prepare).take (i + 1)).map ([·])).foldl
              (deliverRun engine) run.engine) i) := by
  induction size with
  | zero => simp
  | succ size induction =>
      obtain ⟨state, snaps⟩ := induction (by omega)
      have fetched :
          (workload.map prepare)[size]? = some (prepare workload[size]) := by
        simp [show size < workload.length by omega]
      have delivered (state : σ) (p : PreparedMsg) :
          deliverRun engine state [p] =
            engine.call state (dispatchMsg p) := by
        simp [deliverRun, single]
      have next :
          (((workload.map prepare).take (size + 1)).map ([·])).foldl
              (deliverRun engine) run.engine =
            engine.call
              ((((workload.map prepare).take size).map ([·])).foldl
                (deliverRun engine) run.engine)
              (dispatchMsg (prepare workload[size])) := by
        rw [List.take_add_one, fetched, Option.toList_some,
          List.map_append, List.foldl_append, List.map_singleton,
          List.foldl_cons, List.foldl_nil, delivered]
      simp only [List.range_succ, List.flatMap_append,
        List.flatMap_singleton, List.foldl_append, List.filter_append,
        List.filterMap_append]
      generalize ((List.range size).flatMap (messageCalls auditIdx)).foldl
        (runCall engine .audit workload) run = last at state snaps ⊢
      have current : workload[size]? = some workload[size] :=
        List.getElem?_eq_getElem (by omega)
      by_cases audited : size ∈ auditIdx
      · simp only [messageCalls, audited, if_true, List.foldl_cons,
          List.foldl_nil, runCall, fetched, current, next, state, snaps,
          decide_true, List.filter_cons_of_pos, List.filter_nil,
          List.filterMap_cons, List.filterMap_nil, Option.map_some,
          List.append_assoc, true_and]
      · simp only [messageCalls, audited, if_false, List.foldl_cons,
          List.foldl_nil, runCall, fetched, next, state, snaps,
          decide_false, Bool.false_eq_true, not_false_eq_true,
          List.filter_cons_of_neg, List.filter_nil, List.filterMap_nil,
          List.append_nil, true_and]

/-- The audited indices are the messages found in the list of indices. -/
theorem filter_range_mem
    {auditIdx : List Nat} {size : Nat}
    (ascending : auditIdx.Pairwise (· < ·))
    (below : ∀ i ∈ auditIdx, i < size) :
    (List.range size).filter (· ∈ auditIdx) = auditIdx := by
  have nodup : auditIdx.Nodup := ascending.imp Nat.ne_of_lt
  refine List.Perm.eq_of_pairwise
    (fun a b _ _ less greater =>
      absurd (Nat.lt_trans less greater) (Nat.lt_irrefl a))
    (List.pairwise_lt_range.filter _) ascending ?_
  rw [List.perm_ext_iff_of_nodup (List.nodup_range.filter _) nodup]
  intro i
  simp only [List.mem_filter, List.mem_range, decide_eq_true_eq]
  exact ⟨fun found => found.2, fun found => ⟨below i found, found⟩⟩

/-- An audit run records the measured snapshot of every audited index. -/
theorem measuredRun_utSnaps
    (engine : EngineLib σ) (initNonce : UInt64)
    {workload : List WorkloadMsg} (capped : workload.length ≤ workloadMax)
    {auditIdx : List Nat} (ascending : auditIdx.Pairwise (· < ·))
    (below : ∀ i ∈ auditIdx, i < workload.length) :
    (measuredRun engine .audit initNonce workload auditIdx).utSnaps =
      auditIdx.filterMap
        (measuredSnapshot engine initNonce workload auditIdx) := by
  unfold measuredRun dispatchCalls
  cases exported : engine.onBatch with
  | some onBatch =>
      have recorded := foldl_batchedFrom engine capped 0 auditIdx
        { engine := engineStart engine initNonce workload, utSnaps := [] }
        (fun i _ => Nat.zero_le i) ascending below
      simp only [List.nil_append] at recorded
      simp only [batchedDispatch, recorded]
      refine List.filterMap_congr fun i _ => ?_
      simp [measuredSnapshot, measuredState, measuredRuns, exported]
  | none =>
      have recorded := (foldl_messageCalls exported auditIdx
        { engine := engineStart engine initNonce workload, utSnaps := [] }
        workload.length (Nat.le_refl _)).2
      simp only [List.nil_append, filter_range_mem ascending below]
        at recorded
      simp only [perMessageDispatch_eq ascending, recorded]
      refine List.filterMap_congr fun i _ => ?_
      simp [measuredSnapshot, measuredState, measuredRuns, exported]

/-! ## What the replay compares -/

/-- Past message `i` the replay starts from the state it has fed. -/
theorem mismatches_resumed
    (baseline : EngineLib τ) {i : Nat} (state : τ) (m : WorkloadMsg)
    (workload : List WorkloadMsg) {remaining : List QuerySnapshot}
    (past : ∀ ut ∈ remaining, i < ut.index) :
    (remaining.map fun ut =>
        mismatchesAt baseline
          ((workload.take (ut.index - (i + 1) + 1)).foldl (feed baseline)
            (feed baseline state m)) ut) =
      remaining.map fun ut =>
        mismatchesAt baseline
          (((m :: workload).take (ut.index - i + 1)).foldl (feed baseline)
            state) ut := by
  refine List.map_congr_left fun ut member => ?_
  have := past ut member
  rw [show ut.index - i = ut.index - (i + 1) + 1 by omega,
    List.take_succ_cons, List.foldl_cons]

/--
The replay loop makes three comparisons a snapshot, each against the baseline
fed the messages up to the snapshot's index.
-/
theorem replayLoop_counts
    (baseline : EngineLib τ) (i : Nat) (state : τ)
    (workload : List WorkloadMsg) (snaps : List QuerySnapshot)
    (counts : AuditCounts)
    (later : ∀ ut ∈ snaps, i ≤ ut.index)
    (ascending : (snaps.map QuerySnapshot.index).Pairwise (· < ·))
    (below : ∀ ut ∈ snaps, ut.index < i + workload.length) :
    let last := replayLoop baseline i state workload snaps counts
    last.checks = counts.checks + 3 * snaps.length ∧
      last.mismatches = counts.mismatches + (snaps.map fun ut =>
        mismatchesAt baseline
          ((workload.take (ut.index - i + 1)).foldl (feed baseline) state)
          ut).sum := by
  induction workload generalizing i state snaps counts with
  | nil =>
      cases snaps with
      | nil => simp [replayLoop]
      | cons ut snaps =>
          have low := later ut List.mem_cons_self
          have high := below ut List.mem_cons_self
          rw [List.length_nil] at high
          omega
  | cons m workload induction =>
      cases snaps with
      | nil => simp [replayLoop]
      | cons ut snaps =>
          have inside (ut : QuerySnapshot) (bound :
              ut.index < i + (m :: workload).length) :
              ut.index < i + 1 + workload.length := by
            rw [List.length_cons] at bound
            omega
          rw [List.map_cons, List.pairwise_cons] at ascending
          have past : ∀ next ∈ snaps, ut.index < next.index :=
            fun next member =>
              ascending.1 next.index (List.mem_map_of_mem member)
          by_cases reached : ut.index = i
          · have step := induction (i + 1) (feed baseline state m) snaps
              { checks := counts.checks + 3
                mismatches := counts.mismatches +
                  mismatchesAt baseline (feed baseline state m) ut }
              (fun next member => reached ▸ past next member)
              ascending.2
              (fun next member =>
                inside next (below next (List.mem_cons_of_mem _ member)))
            rw [mismatches_resumed baseline state m workload
              fun next member => reached ▸ past next member] at step
            obtain ⟨checks, mismatches⟩ := step
            rw [replayLoop, if_neg (by simp [reached])]
            constructor
            · rw [checks, List.length_cons, Nat.mul_add, Nat.add_assoc,
                Nat.add_comm 3]
            · rw [mismatches, List.map_cons, List.sum_cons, reached,
                Nat.sub_self, Nat.zero_add, List.take_succ_cons,
                List.take_zero, List.foldl_cons, List.foldl_nil,
                Nat.add_assoc]
          · have ahead : ∀ next ∈ ut :: snaps, i < next.index := by
              intro next member
              have first := later ut List.mem_cons_self
              rcases List.mem_cons.mp member with rfl | member
              · omega
              · have := past next member
                omega
            have step := induction (i + 1) (feed baseline state m)
              (ut :: snaps) counts (fun next member => ahead next member)
              (List.pairwise_cons.mpr ascending)
              (fun next member => inside next (below next member))
            rw [mismatches_resumed baseline state m workload ahead] at step
            rw [replayLoop, if_pos reached]
            exact step

/-- A snapshot has no mismatch exactly when all three answers agree. -/
theorem mismatchesAt_takeSnapshot
    (engine : EngineLib σ) (baseline : EngineLib τ) (state : σ)
    (replayed : τ) (i : Nat) (m : WorkloadMsg) :
    mismatchesAt baseline replayed (takeSnapshot engine state i m) = 0 ↔
      engine.answers state m = baseline.answers replayed m := by
  simp [mismatchesAt, takeSnapshot, EngineLib.answers, and_assoc,
    eq_comm]

/-- The snapshots recorded at in-range indices carry those indices. -/
theorem map_index_measuredSnapshot
    (engine : EngineLib σ) (initNonce : UInt64)
    {workload : List WorkloadMsg} (auditIdx picks : List Nat)
    (below : ∀ i ∈ picks, i < workload.length) :
    (picks.filterMap (measuredSnapshot engine initNonce workload
      auditIdx)).map QuerySnapshot.index = picks := by
  induction picks with
  | nil => rfl
  | cons i picks induction =>
      obtain ⟨m, current⟩ : ∃ m, workload[i]? = some m :=
        ⟨_, List.getElem?_eq_getElem (below i List.mem_cons_self)⟩
      have rest := induction fun j member =>
        below j (List.mem_cons_of_mem _ member)
      simp only [List.filterMap_cons, measuredSnapshot, current,
        Option.map_some, List.map_cons, takeSnapshot]
      exact congrArg (i :: ·) rest

/--
An audit of snapshots in the order of their indices makes three comparisons a
snapshot and passes exactly when none has a mismatch.
-/
theorem runStateAudit_spec
    (baseline : EngineLib τ) {workload : List WorkloadMsg}
    {snaps : List QuerySnapshot} (nonempty : snaps ≠ [])
    (ascending : (snaps.map QuerySnapshot.index).Pairwise (· < ·))
    (below : ∀ ut ∈ snaps, ut.index < workload.length) :
    let report := runStateAudit baseline workload snaps
    report.ran = true ∧
      report.checks = 3 * snaps.length ∧
      (report.passed = true ↔
        ∀ ut ∈ snaps, mismatchesAt baseline
          (replayedState baseline workload ut.index) ut = 0) := by
  have some_snap : ¬snaps.isEmpty = true := by
    rw [List.isEmpty_iff]
    exact nonempty
  obtain ⟨checks, mismatches⟩ := replayLoop_counts baseline 0
    (replayStart baseline workload) workload snaps
    { checks := 0, mismatches := 0 } (fun ut _ => Nat.zero_le _)
    ascending (fun ut member => by
      rw [Nat.zero_add]
      exact below ut member)
  simp only [Nat.zero_add, Nat.sub_zero] at checks mismatches
  have positive : 0 < snaps.length := List.length_pos_iff.mpr nonempty
  simp only [runStateAudit, if_neg some_snap, true_and]
  refine ⟨checks, ?_⟩
  rw [decide_eq_true_iff, mismatches, List.sum_eq_zero_iff_forall_eq_nat,
    List.forall_mem_map]
  refine and_iff_right ?_
  rw [checks]
  omega

/--
The audit of a measured run makes three comparisons an audited index and
passes exactly when the engine and the baseline answer alike at each.
-/
theorem runStateAudit_measuredRun
    (engine : EngineLib σ) (baseline : EngineLib τ) (initNonce : UInt64)
    {workload : List WorkloadMsg} (capped : workload.length ≤ workloadMax)
    {auditIdx : List Nat} (nonempty : auditIdx ≠ [])
    (ascending : auditIdx.Pairwise (· < ·))
    (below : ∀ i ∈ auditIdx, i < workload.length) :
    let report := runStateAudit baseline workload
      (measuredRun engine .audit initNonce workload auditIdx).utSnaps
    report.ran = true ∧
      report.checks = 3 * auditIdx.length ∧
      (report.passed = true ↔
        ∀ i ∈ auditIdx, ∀ m, workload[i]? = some m →
          engine.answers
              (measuredState engine initNonce workload auditIdx i) m =
            baseline.answers (replayedState baseline workload i) m) := by
  have recorded :=
    measuredRun_utSnaps engine initNonce capped ascending below
  have indices :=
    map_index_measuredSnapshot engine initNonce auditIdx auditIdx below
  rw [← recorded] at indices
  generalize (measuredRun engine .audit initNonce workload
    auditIdx).utSnaps = snaps at recorded indices ⊢
  have length : snaps.length = auditIdx.length := by
    rw [← indices, List.length_map]
  have some_snap : snaps ≠ [] := by
    rintro rfl
    exact nonempty indices.symm
  obtain ⟨ran, checks, passed⟩ := runStateAudit_spec baseline some_snap
    (indices.symm ▸ ascending)
    (fun ut member => below ut.index
      (indices ▸ List.mem_map_of_mem member))
  refine ⟨ran, by rw [checks, length], passed.trans ?_⟩
  constructor
  · intro clean i audited m current
    have snap : takeSnapshot engine
        (measuredState engine initNonce workload auditIdx i) i m ∈
          snaps := by
      rw [recorded, List.mem_filterMap]
      exact ⟨i, audited, by rw [measuredSnapshot, current, Option.map_some]⟩
    exact (mismatchesAt_takeSnapshot engine baseline _ _ i m).mp
      (clean _ snap)
  · intro agree ut snap
    rw [recorded, List.mem_filterMap] at snap
    obtain ⟨i, audited, taken⟩ := snap
    rw [measuredSnapshot, Option.map_eq_some_iff] at taken
    obtain ⟨m, current, rfl⟩ := taken
    exact (mismatchesAt_takeSnapshot engine baseline _ _ i m).mpr
      (agree i audited m current)

/--
One handler call for each message, with the arguments the dispatch loop takes
from the prepared array.
-/
def handled
    (engine : EngineLib σ) (state : σ) (msgs : List WorkloadMsg) : σ :=
  msgs.foldl
    (fun state m =>
      match dispatchMsg (prepare m) with
      | .newOrder order => engine.onNewOrder state order
      | .cancel request => engine.onCancel state request
      | .modify request => engine.onModify state request)
    state

theorem foldl_call_dispatchMsg
    (engine : EngineLib σ) (msgs : List WorkloadMsg) (state : σ) :
    (msgs.map prepare).foldl
        (fun state p => engine.call state (dispatchMsg p)) state =
      handled engine state msgs := by
  rw [List.foldl_map]
  rfl

/-- The baseline is prebuilt as the engine is. -/
theorem replayStart_eq
    (baseline : EngineLib τ) {workload : List WorkloadMsg}
    (typed : ∀ m ∈ workload, m.type ≤ 2) :
    replayStart baseline workload = engineStart baseline 0 workload := by
  unfold replayStart engineStart
  cases baseline.prebuild with
  | none => rfl
  | some prebuild =>
      dsimp only
      rw [List.foldl_map]
      refine List.foldl_ext _ _ _ fun state m member => ?_
      rw [prebuildArgs_prepare (typed m member)]

/-- The replayed baseline has handled the messages `0 .. i`. -/
theorem replayedState_eq
    (baseline : EngineLib τ) {workload : List WorkloadMsg}
    (typed : ∀ m ∈ workload, m.type ≤ 2) (i : Nat) :
    replayedState baseline workload i =
      handled baseline (engineStart baseline 0 workload)
        (workload.take (i + 1)) := by
  rw [replayedState, replayStart_eq baseline typed,
    ← foldl_call_dispatchMsg, List.foldl_map]
  refine List.foldl_ext _ _ _ fun state m _ => ?_
  rw [feed, dispatchMsg_prepare]

/-- Without `engine_on_batch` the engine handles the messages one by one. -/
theorem measuredState_of_single
    {engine : EngineLib σ} (single : engine.onBatch = none)
    (initNonce : UInt64) (workload : List WorkloadMsg)
    (auditIdx : List Nat) (i : Nat) :
    measuredState engine initNonce workload auditIdx i =
      handled engine (engineStart engine initNonce workload)
        (workload.take (i + 1)) := by
  rw [measuredState, measuredRuns, single, ← foldl_call_dispatchMsg,
    ← List.map_take]
  dsimp only
  rw [List.foldl_map]
  refine List.foldl_ext _ _ _ fun state p _ => ?_
  simp [deliverRun, single]

/-- With it the engine is handed the runs. -/
theorem measuredState_of_batch
    {engine : EngineLib σ} {onBatch : σ → List PreparedMsg → σ}
    (exported : engine.onBatch = some onBatch)
    (initNonce : UInt64) (workload : List WorkloadMsg)
    (auditIdx : List Nat) (i : Nat) :
    measuredState engine initNonce workload auditIdx i =
      (measuredRuns engine workload auditIdx i).foldl onBatch
        (engineStart engine initNonce workload) := by
  rw [measuredState]
  refine List.foldl_ext _ _ _ fun state run _ => ?_
  simp [deliverRun, exported]

/--
The state audit is sound and complete on the indices it picks: it passes
exactly when, at each, the engine right after the messages `0 .. i` answers as
the baseline does whose handlers were given the prepared messages `0 .. i`,
after the same prebuild calls.  `mt19937_64` is the word stream of a seeded
generator, and `fuel` bounds the draws of the rejection loop.
-/
theorem state_audit_exact
    (engine : EngineLib σ) (baseline : EngineLib τ)
    (mt19937_64 : UInt64 → Nat → UInt64) (initNonce verifySeed : UInt64)
    (workload : Workload) {fuel : Nat} {auditIdx : List Nat}
    (ends : auditPickIndices (mt19937_64 verifySeed) workload.msgs.length
      auditPoints fuel = some auditIdx) :
    auditIdx.Pairwise (· < ·) ∧
      (∀ i ∈ auditIdx, i < workload.msgs.length) ∧
      auditIdx.length = min 64 workload.msgs.length ∧
      (workload.msgs.length ≤ 64 →
        auditIdx = List.range workload.msgs.length) ∧
      (let report := runStateAudit baseline workload.msgs
        (measuredRun engine .audit initNonce workload.msgs auditIdx).utSnaps
      report.ran = true ∧
        report.checks = 3 * min 64 workload.msgs.length ∧
        (report.passed = true ↔
          ∀ i ∈ auditIdx, ∀ m, workload.msgs[i]? = some m →
            engine.answers
                (measuredState engine initNonce workload.msgs auditIdx i)
                m =
              baseline.answers
                (handled baseline (engineStart baseline 0 workload.msgs)
                  (workload.msgs.take (i + 1))) m)) ∧
      (∀ i ∈ auditIdx,
        (engine.onBatch = none →
          measuredState engine initNonce workload.msgs auditIdx i =
            handled engine (engineStart engine initNonce workload.msgs)
              (workload.msgs.take (i + 1))) ∧
        (∀ onBatch, engine.onBatch = some onBatch →
          measuredState engine initNonce workload.msgs auditIdx i =
            (measuredRuns engine workload.msgs auditIdx i).foldl onBatch
              (engineStart engine initNonce workload.msgs)) ∧
        (measuredRuns engine workload.msgs auditIdx i).flatten =
          (workload.msgs.map prepare).take (i + 1)) ∧
      ∀ m ∈ workload.msgs,
        dispatchMsg (prepare m) = feedMsg m ∧
          prebuildArgs (prepare m) = prebuildMsgArgs m := by
  obtain ⟨ascending, below, length⟩ :=
    auditPickIndices_spec workload.nonempty (by decide) ends
  have count : auditIdx.length = min 64 workload.msgs.length := length
  have nonempty : auditIdx ≠ [] := by
    have := workload.nonempty
    rw [← List.length_pos_iff, count]
    omega
  have audit := runStateAudit_measuredRun engine baseline initNonce
    workload.capped nonempty ascending below
  simp only [count, replayedState_eq baseline workload.typed] at audit
  refine ⟨ascending, below, count, ?_, audit, ?_, ?_⟩
  · intro small
    exact auditPickIndices_all ascending below (by omega)
  · intro i audited
    refine ⟨fun single => ?_, fun onBatch exported => ?_, ?_⟩
    · exact measuredState_of_single single initNonce _ auditIdx i
    · exact measuredState_of_batch exported initNonce _ auditIdx i
    · exact flatten_measuredRuns engine workload.msgs ascending audited
  · intro m member
    exact ⟨dispatchMsg_prepare m,
      prebuildArgs_prepare (workload.typed m member)⟩

/--
An engine whose best bid is the price of the last new order and whose depth is
the number of messages; `engine_prebuild` counts too.
-/
def lastBid : EngineLib (Int64 × UInt64) where
  init _ := (int64Min, 0)
  onNewOrder state order := (order.priceTicks, state.2 + 1)
  onCancel state _ := (state.1, state.2 + 1)
  onModify state _ := (state.1, state.2 + 1)
  queryBestBid state := state.1
  queryBestAsk _ := int64Max
  queryDepthAt state _ _ := state.2
  prebuild := some fun state _ _ => (state.1, state.2 + 1)
  onBatch := none

/-- The same engine, with an entry point for whole runs. -/
def lastBidBatched : EngineLib (Int64 × UInt64) :=
  { lastBid with
    onBatch := some fun state run =>
      run.foldl (fun state p => lastBid.call state (dispatchMsg p)) state }

/-- An engine that loses what a run adds to the number of messages. -/
def lastBidLossy : EngineLib (Int64 × UInt64) :=
  { lastBid with
    onBatch := some fun state run =>
      ((run.foldl (fun state p => lastBid.call state (dispatchMsg p)) state).1,
        state.2 + 1) }

/-- Sixty-six messages: two buys at rising prices, then the second's cancel. -/
def risingBuys : Workload where
  msgs := (List.range 66).map fun i =>
    if i % 3 = 2 then
      { type := 1, side := 0, ioc := 0, qty := 0, seq := i.toUInt64
        orderId := i.toUInt64, priceTicks := 0 }
    else
      { type := 0, side := 0, ioc := 0, qty := 5, seq := i.toUInt64
        orderId := i.toUInt64 + 1, priceTicks := 100 + i.toInt64 }
  nonempty := by decide
  capped := by decide
  typed := by decide

/-- All indices but 0 and 64, so that two of the runs are of two messages. -/
def risingPicks : List Nat :=
  List.range' 1 63 ++ [65]

/-- A generator whose first draw is the last message. -/
def risingDraws (k : Nat) : UInt64 :=
  if k = 0 then 65 else k.toUInt64

theorem risingBuys_picks :
    auditPickIndices risingDraws risingBuys.msgs.length auditPoints 64 =
      some risingPicks := by
  decide +kernel

/-- The engine and the baseline answer alike at an index. -/
def answersAlike
    (engine : EngineLib σ) (baseline : EngineLib τ) (i : Nat) : Bool :=
  match risingBuys.msgs[i]? with
  | some m =>
      engine.answers
          (measuredState engine 7 risingBuys.msgs risingPicks i) m ==
        baseline.answers
          (handled baseline (engineStart baseline 0 risingBuys.msgs)
            (risingBuys.msgs.take (i + 1))) m
  | none => true

/-- An engine that is handed runs passes, one that loses some of them not. -/
theorem state_audit_exact_risingBuys :
    let audit (engine : EngineLib (Int64 × UInt64)) :=
      runStateAudit lastBid risingBuys.msgs
        (measuredRun engine .audit 7 risingBuys.msgs risingPicks).utSnaps
    (audit lastBidBatched).checks = 192 ∧
      (audit lastBidBatched).passed = true ∧
      (audit lastBidLossy).checks = 192 ∧
      (audit lastBidLossy).passed = false := by
  have batched := (state_audit_exact lastBidBatched lastBid
    (fun _ => risingDraws) 7 1 risingBuys risingBuys_picks).2.2.2.2.1.2
  have lossy := (state_audit_exact lastBidLossy lastBid
    (fun _ => risingDraws) 7 1 risingBuys risingBuys_picks).2.2.2.2.1.2
  have alike :
      (risingPicks.all (answersAlike lastBidBatched lastBid)) = true := by
    decide +kernel
  refine ⟨batched.1, batched.2.mpr fun i audited m current => ?_, lossy.1, ?_⟩
  · have at_i := List.all_eq_true.mp alike i audited
    rw [answersAlike, current] at at_i
    exact beq_iff_eq.mp at_i
  · rw [← Bool.not_eq_true, lossy.2]
    intro all
    have first := all 1 (by decide +kernel) _ rfl
    revert first
    decide +kernel

end MatchingBench.Harness.Audit
