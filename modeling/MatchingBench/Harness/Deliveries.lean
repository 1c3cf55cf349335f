import MatchingBench.Harness.Audit

/-!
# What a measured run hands over

Whichever loop dispatches the workload, its calls hand the prepared messages
to the engine in order and completely; the probes in between change nothing.
-/

set_option autoImplicit false

namespace MatchingBench.Harness.Deliveries

open MatchingBench.Api
open MatchingBench.Harness.Marshalling
open MatchingBench.Harness.Dispatch
open MatchingBench.Harness.Audit

variable {σ : Type}

/-! ## Deliveries -/

/-- One call that hands messages to the engine. -/
inductive Delivery where
  /-- The handler of one message. -/
  | call (p : PreparedMsg)
  /-- A run of messages, by `on_batch` if the engine exports it. -/
  | run (msgs : List PreparedMsg)

/-- What a delivery hands over. -/
def Delivery.messages : Delivery → List PreparedMsg
  | .call p => [p]
  | .run msgs => msgs

/-- The engine after a delivery. -/
def deliver (engine : EngineLib σ) (state : σ) : Delivery → σ
  | .call p => engine.call state (dispatchMsg p)
  | .run msgs => deliverRun engine state msgs

/-- The messages handed over by deliveries, as the handlers receive them. -/
def handed (deliveries : List Delivery) : List Msg :=
  (deliveries.flatMap Delivery.messages).map dispatchMsg

/-- `engine_on_batch`, if exported, is the loop over the handlers. -/
def Loops (engine : EngineLib σ) : Prop :=
  ∀ onBatch, engine.onBatch = some onBatch → ∀ state run,
    onBatch state run =
      run.foldl (fun state p => engine.call state (dispatchMsg p)) state

/-- Deliveries to such an engine call its handlers, one after the other. -/
theorem foldl_deliver
    {engine : EngineLib σ} (loops : Loops engine)
    (deliveries : List Delivery) (state : σ) :
    deliveries.foldl (deliver engine) state =
      (handed deliveries).foldl engine.call state := by
  induction deliveries generalizing state with
  | nil => rfl
  | cons delivery deliveries induction =>
      have first :
          deliver engine state delivery =
            (delivery.messages.map dispatchMsg).foldl engine.call state := by
        cases delivery with
        | call p => rfl
        | run msgs =>
            rw [Delivery.messages, List.foldl_map, deliver, deliverRun]
            cases exported : engine.onBatch with
            | none => rfl
            | some onBatch => exact loops onBatch exported state msgs
      rw [List.foldl_cons, induction, first, handed, handed,
        List.flatMap_cons, List.map_append, List.foldl_append]

/-- The deliveries of a harness call. -/
def deliveriesOf (workload : List WorkloadMsg) : HarnessCall → List Delivery
  | .dispatch i => (workload.map prepare)[i]?.toList.map .call
  | .onBatch start length =>
      [.run (((workload.map prepare).drop start).take (narrow32 length))]
  | .probe _ => []

theorem runCall_engine
    (engine : EngineLib σ) (mode : Mode) (workload : List WorkloadMsg)
    (run : RunState σ) (call : HarnessCall) :
    (runCall engine mode workload run call).engine =
      (deliveriesOf workload call).foldl (deliver engine) run.engine := by
  cases call with
  | dispatch i =>
      simp only [runCall, deliveriesOf]
      cases (workload.map prepare)[i]? <;> rfl
  | onBatch start length => rfl
  | probe i =>
      simp only [runCall, deliveriesOf]
      split <;> rfl

theorem foldl_runCall_engine
    (engine : EngineLib σ) (mode : Mode) (workload : List WorkloadMsg)
    (calls : List HarnessCall) (run : RunState σ) :
    (calls.foldl (runCall engine mode workload) run).engine =
      (calls.flatMap (deliveriesOf workload)).foldl (deliver engine)
        run.engine := by
  induction calls generalizing run with
  | nil => rfl
  | cons call calls induction =>
      rw [List.foldl_cons, induction, runCall_engine, List.flatMap_cons,
        List.foldl_append]

/-! ## The whole workload -/

/-- Reading consecutive indices cuts out a stretch. -/
theorem filterMap_range'
    {α : Type} (items : List α) (start length : Nat) :
    (List.range' start length).filterMap (items[·]?) =
      (items.drop start).take length := by
  induction length generalizing start with
  | zero => rfl
  | succ length induction =>
      rw [List.range'_succ, List.filterMap_cons, induction]
      cases found : items[start]? with
      | none =>
          have short := List.getElem?_eq_none_iff.mp found
          rw [List.drop_eq_nil_of_le short,
            List.drop_eq_nil_of_le (Nat.le_succ_of_le short),
            List.take_nil, List.take_nil]
      | some item =>
          obtain ⟨inside, rfl⟩ := List.getElem?_eq_some_iff.mp found
          rw [List.drop_eq_getElem_cons inside, List.take_succ_cons]

/-- A call hands over the messages of its indices. -/
theorem messages_deliveriesOf
    (workload : List WorkloadMsg) {call : HarnessCall}
    (whole : ∀ start length, call = .onBatch start length →
      narrow32 length = length) :
    (deliveriesOf workload call).flatMap Delivery.messages =
      call.run.filterMap ((workload.map prepare)[·]?) := by
  cases call with
  | dispatch i =>
      simp only [deliveriesOf, HarnessCall.run, List.filterMap_cons,
        List.filterMap_nil]
      cases (workload.map prepare)[i]? <;> rfl
  | onBatch start length =>
      rw [HarnessCall.run, filterMap_range', deliveriesOf, whole _ _ rfl,
        List.flatMap_singleton]
      rfl
  | probe i => rfl

/-- The calls of either loop name every message once and in order. -/
theorem dispatchCalls_run
    (engine : EngineLib σ) {size : Nat} (capped : size ≤ workloadMax)
    {auditIdx : List Nat} (ascending : auditIdx.Pairwise (· < ·))
    (below : ∀ i ∈ auditIdx, i < size) :
    (dispatchCalls engine size auditIdx).flatMap HarnessCall.run =
        List.range size ∧
      ∀ start length,
        .onBatch start length ∈ dispatchCalls engine size auditIdx →
          narrow32 length = length := by
  unfold dispatchCalls
  cases engine.onBatch with
  | some onBatch =>
      unfold workloadMax at capped
      obtain ⟨runs, lengths⟩ := batchedFrom_runs 0 auditIdx
        (show size < 2 ^ 64 by omega) (Nat.zero_le size)
        (fun i _ => Nat.zero_le i) ascending below
      refine ⟨?_, fun start length member => ?_⟩
      · rw [batchedDispatch, runs, Nat.sub_zero, List.range_eq_range']
      · have fits := (lengths start length member).2
        exact narrow32_of_le (Nat.le_trans fits (by
          unfold workloadMax
          omega))
  | none =>
      dsimp only
      rw [perMessageDispatch_eq ascending]
      constructor
      · rw [List.flatMap_assoc]
        refine (List.flatMap_congr fun i _ => ?_).trans
          (List.flatMap_singleton' _)
        unfold messageCalls
        split <;> rfl
      · intro start length member
        obtain ⟨i, -, found⟩ := List.mem_flatMap.mp member
        unfold messageCalls at found
        split at found <;> simp at found

/--
The engine of a measured run has been handed the whole workload, in deliveries
that follow its order.
-/
theorem measuredRun_delivers
    (engine : EngineLib σ) (mode : Mode) (initNonce : UInt64)
    {workload : List WorkloadMsg} (capped : workload.length ≤ workloadMax)
    {auditIdx : List Nat} (ascending : auditIdx.Pairwise (· < ·))
    (below : ∀ i ∈ auditIdx, i < workload.length) :
    ∃ deliveries : List Delivery,
      deliveries.flatMap Delivery.messages = workload.map prepare ∧
        (measuredRun engine mode initNonce workload auditIdx).engine =
          deliveries.foldl (deliver engine)
            (engineStart engine initNonce workload) := by
  obtain ⟨runs, lengths⟩ :=
    dispatchCalls_run engine capped ascending below
  refine ⟨_, ?_, foldl_runCall_engine engine mode workload _ _⟩
  rw [List.flatMap_assoc]
  have each :
      (dispatchCalls engine workload.length auditIdx).flatMap
          (fun call =>
            (deliveriesOf workload call).flatMap Delivery.messages) =
        (dispatchCalls engine workload.length auditIdx).flatMap fun call =>
          call.run.filterMap ((workload.map prepare)[·]?) := by
    refine List.flatMap_congr fun call member => ?_
    refine messages_deliveriesOf workload fun start length equal => ?_
    exact lengths start length (equal ▸ member)
  rw [each, ← List.filterMap_flatMap, runs, List.range_eq_range',
    filterMap_range', List.drop_zero]
  exact List.take_of_length_le (by rw [List.length_map])

end MatchingBench.Harness.Deliveries
