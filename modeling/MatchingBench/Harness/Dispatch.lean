import MatchingBench.Harness.Marshalling
import Mathlib.Algebra.GroupWithZero.Nat
import Mathlib.Data.List.Basic

/-!
# The dispatch loops

The timed part of `harness.cpp`: either the workload is handed over in runs
that end at the audited indices, or one message at a time with a moving audit
cursor.  Both produce the calls the engine sees; a batched call is expanded
message by message, which is what the `engine_on_batch` contract asks of the
engine.
-/

set_option autoImplicit false

namespace MatchingBench.Harness.Dispatch

open MatchingBench.Harness.Marshalling

/-! ## Calls and events -/

/-- The calls the harness makes into the engine. -/
inductive HarnessCall where
  /-- `dispatch(prepared[i])`. -/
  | dispatch (index : Nat)
  /-- `on_batch(base + start, ...)`; `length` before its narrowing. -/
  | onBatch (start length : Nat)
  /-- `probe(i)`. -/
  | probe (index : Nat)
deriving DecidableEq, Repr

/-- What the engine observes, message by message. -/
inductive Event where
  | deliver (index : Nat)
  | probe (index : Nat)
deriving DecidableEq, Repr

/-- Subtraction in `size_t`. -/
def sizeSub (a b : Nat) : Nat :=
  (a + 2 ^ 64 - b) % 2 ^ 64

/-- `static_cast<uint32_t>`. -/
def narrow32 (length : Nat) : Nat :=
  length % 2 ^ 32

/-- The messages a call delivers and the probe it makes. -/
def HarnessCall.expand : HarnessCall → List Event
  | .dispatch index => [.deliver index]
  | .onBatch start length =>
      (List.range' start (narrow32 length)).map .deliver
  | .probe index => [.probe index]

/-! ## The two loops -/

/--
The batched loop from `start` over the remaining audited indices: one run up
to and including each index, a probe, and a tail when messages remain.
-/
def batchedFrom (size : Nat) : Nat → List Nat → List HarnessCall
  | start, [] =>
      if start < size then [.onBatch start (sizeSub size start)] else []
  | start, b :: auditIdx =>
      .onBatch start (sizeSub b start + 1) ::
        .probe b :: batchedFrom size (b + 1) auditIdx

/-- The loop taken when the engine exports `engine_on_batch`. -/
def batchedDispatch (size : Nat) (auditIdx : List Nat) : List HarnessCall :=
  batchedFrom size 0 auditIdx

/-- The locals of the per-message loop. -/
structure CursorState where
  auditCur : Nat
  calls : List HarnessCall

/-- One iteration of the per-message loop. -/
def perMessageStep
    (auditIdx : List Nat) (state : CursorState) (i : Nat) : CursorState :=
  if state.auditCur < auditIdx.length ∧
      auditIdx[state.auditCur]? = some i then
    { auditCur := state.auditCur + 1
      calls := state.calls ++ [.dispatch i, .probe i] }
  else
    { state with calls := state.calls ++ [.dispatch i] }

/-- The loop taken when the engine has no batch entry point. -/
def perMessageDispatch
    (size : Nat) (auditIdx : List Nat) : List HarnessCall :=
  ((List.range size).foldl (perMessageStep auditIdx)
    { auditCur := 0, calls := [] }).calls

/-! ## The trace both loops produce -/

/-- The events of message `i`: its delivery and, if audited, its probe. -/
def messageEvents (auditIdx : List Nat) (i : Nat) : List Event :=
  .deliver i :: if i ∈ auditIdx then [.probe i] else []

/-- Delivery of the messages `start .. start + count - 1` with their probes. -/
def traceFrom (auditIdx : List Nat) (start count : Nat) : List Event :=
  (List.range' start count).flatMap (messageEvents auditIdx)

theorem traceFrom_succ (auditIdx : List Nat) (start count : Nat) :
    traceFrom auditIdx start (count + 1) =
      traceFrom auditIdx start count ++
        messageEvents auditIdx (start + count) := by
  simp [traceFrom, List.range'_concat]

theorem traceFrom_append (auditIdx : List Nat) (start front back : Nat) :
    traceFrom auditIdx start (front + back) =
      traceFrom auditIdx start front ++
        traceFrom auditIdx (start + front) back := by
  simp only [traceFrom, ← List.flatMap_append]
  rw [List.range'_append_1]

/-- A stretch without audited indices is plain delivery. -/
theorem traceFrom_of_unaudited
    {auditIdx : List Nat} {start count : Nat}
    (unaudited : ∀ i ∈ auditIdx, i < start ∨ start + count ≤ i) :
    traceFrom auditIdx start count =
      (List.range' start count).map .deliver := by
  rw [traceFrom, ← List.flatMap_singleton' ((List.range' start count).map _),
    List.flatMap_map]
  refine List.flatMap_congr fun i member => ?_
  have absent : i ∉ auditIdx := by
    intro audited
    have range := List.mem_range'_1.mp member
    rcases unaudited i audited with low | high <;> omega
  simp [messageEvents, absent]

theorem sizeSub_of_le
    {a b : Nat} (ordered : b ≤ a) (small : a < 2 ^ 64) :
    sizeSub a b = a - b := by
  unfold sizeSub
  omega

theorem narrow32_of_le
    {length : Nat} (small : length ≤ workloadMax) :
    narrow32 length = length := by
  unfold narrow32
  unfold workloadMax at small
  omega

/--
The batched loop, resumed at `start` with the audited indices from there on,
delivers the rest of the workload with its probes.
-/
theorem expand_batchedFrom
    {size : Nat} (start : Nat) (passed auditIdx : List Nat)
    (capped : size ≤ workloadMax) (inside : start ≤ size)
    (earlier : ∀ i ∈ passed, i < start)
    (later : ∀ i ∈ auditIdx, start ≤ i)
    (ascending : auditIdx.Pairwise (· < ·))
    (below : ∀ i ∈ auditIdx, i < size) :
    (batchedFrom size start auditIdx).flatMap HarnessCall.expand =
      traceFrom (passed ++ auditIdx) start (size - start) := by
  have small : size < 2 ^ 64 := by
    unfold workloadMax at capped
    omega
  induction auditIdx generalizing start passed with
  | nil =>
      rw [List.append_nil, traceFrom_of_unaudited
        fun i member => Or.inl (earlier i member)]
      by_cases remaining : start < size
      · rw [batchedFrom, if_pos remaining, List.flatMap_singleton,
          HarnessCall.expand, sizeSub_of_le inside small,
          narrow32_of_le (by omega)]
      · simp [batchedFrom, remaining, show size - start = 0 by omega]
  | cons b auditIdx induction =>
      rw [List.pairwise_cons] at ascending
      have start_le : start ≤ b := later b List.mem_cons_self
      have b_lt : b < size := below b List.mem_cons_self
      have rest := induction (b + 1) (passed ++ [b]) (by omega)
        (by
          intro i member
          rcases List.mem_append.mp member with old | new
          · have := earlier i old
            omega
          · have := List.mem_singleton.mp new
            omega)
        (fun i member => ascending.1 i member)
        ascending.2
        (fun i member => below i (List.mem_cons_of_mem _ member))
      have run :
          traceFrom (passed ++ b :: auditIdx) start (b - start + 1) =
            (List.range' start (b - start + 1)).map .deliver ++
              [.probe b] := by
        have plain :
            traceFrom (passed ++ b :: auditIdx) start (b - start) =
              (List.range' start (b - start)).map .deliver := by
          refine traceFrom_of_unaudited fun i member => ?_
          rcases List.mem_append.mp member with old | new
          · exact Or.inl (earlier i old)
          · rcases List.mem_cons.mp new with rfl | new
            · exact Or.inr (by omega)
            · have := ascending.1 i new
              exact Or.inr (by omega)
        rw [traceFrom_succ, plain, List.range'_concat,
          show start + (b - start) = b by omega]
        simp [messageEvents, show start + (b - start) = b by omega]
      have split :
          size - start = (b - start + 1) + (size - (b + 1)) := by
        omega
      rw [split, traceFrom_append, run,
        show start + (b - start + 1) = b + 1 by omega]
      simp only [batchedFrom, List.flatMap_cons, HarnessCall.expand,
        sizeSub_of_le start_le (Nat.lt_trans b_lt small)]
      rw [narrow32_of_le (by omega), rest]
      simp

/-- How many audited indices lie below `bound`. -/
def auditedBelow (auditIdx : List Nat) (bound : Nat) : Nat :=
  (auditIdx.filter (· < bound)).length

/-- The entry at the cursor is the next audited index. -/
theorem getElem?_auditedBelow
    {auditIdx : List Nat} (ascending : auditIdx.Pairwise (· < ·))
    (bound : Nat) :
    auditIdx[auditedBelow auditIdx bound]? = some bound ↔
      bound ∈ auditIdx := by
  induction auditIdx with
  | nil => simp [auditedBelow]
  | cons b auditIdx induction =>
      rw [List.pairwise_cons] at ascending
      by_cases passed : b < bound
      · have shifted :
            auditedBelow (b :: auditIdx) bound =
              auditedBelow auditIdx bound + 1 := by
          simp [auditedBelow, passed]
        rw [shifted, List.getElem?_cons_succ, induction ascending.2]
        simp [show bound ≠ b by omega]
      · have none : auditedBelow (b :: auditIdx) bound = 0 := by
          simp only [auditedBelow, List.length_eq_zero_iff,
            List.filter_eq_nil_iff, decide_eq_true_eq]
          intro i member
          rcases List.mem_cons.mp member with rfl | member
          · exact passed
          · have := ascending.1 i member
            omega
        rw [none]
        simp only [List.getElem?_cons_zero, Option.some.injEq,
          List.mem_cons]
        constructor
        · exact fun equal => Or.inl equal.symm
        · rintro (equal | member)
          · exact equal.symm
          · have := ascending.1 bound member
            omega

theorem auditedBelow_succ
    {auditIdx : List Nat} (ascending : auditIdx.Pairwise (· < ·))
    (bound : Nat) :
    auditedBelow auditIdx (bound + 1) =
      auditedBelow auditIdx bound + if bound ∈ auditIdx then 1 else 0 := by
  induction auditIdx with
  | nil => simp [auditedBelow]
  | cons b auditIdx induction =>
      rw [List.pairwise_cons] at ascending
      have rest := induction ascending.2
      simp only [auditedBelow] at rest
      simp only [auditedBelow, List.filter_cons, List.mem_cons]
      rcases Nat.lt_trichotomy b bound with less | equal | greater
      · simp only [show b < bound + 1 by omega, less, decide_true, if_true,
          List.length_cons, rest, show ¬bound = b by omega, false_or]
        omega
      · subst equal
        have absent : b ∉ auditIdx := fun member =>
          Nat.lt_irrefl b (ascending.1 b member)
        simp only [absent, if_false] at rest
        simp only [Nat.lt_succ_self, Nat.lt_irrefl, decide_true,
          decide_false, Bool.false_eq_true, if_true, if_false,
          List.length_cons, rest, true_or]
      · simp only [show ¬b < bound + 1 by omega, show ¬b < bound by omega,
          decide_false, Bool.false_eq_true, if_false, rest,
          show ¬bound = b by omega, false_or]

/-- The calls for message `i`. -/
def messageCalls (auditIdx : List Nat) (i : Nat) : List HarnessCall :=
  .dispatch i :: if i ∈ auditIdx then [.probe i] else []

/-- What the per-message loop has done before message `size`. -/
theorem perMessageStep_foldl
    {auditIdx : List Nat} (ascending : auditIdx.Pairwise (· < ·))
    (size : Nat) :
    let state := (List.range size).foldl (perMessageStep auditIdx)
      { auditCur := 0, calls := [] }
    state.auditCur = auditedBelow auditIdx size ∧
      state.calls = (List.range size).flatMap (messageCalls auditIdx) := by
  induction size with
  | zero => simp [auditedBelow]
  | succ size induction =>
      simp only [List.range_succ, List.foldl_append, List.foldl_cons,
        List.foldl_nil, List.flatMap_append, List.flatMap_singleton]
      generalize (List.range size).foldl (perMessageStep auditIdx)
        { auditCur := 0, calls := [] } = state at induction ⊢
      obtain ⟨cursor, calls⟩ := induction
      have next := getElem?_auditedBelow ascending size
      rw [← cursor] at next
      rw [auditedBelow_succ ascending]
      by_cases audited : size ∈ auditIdx
      · have atCursor := next.mpr audited
        have inBounds : state.auditCur < auditIdx.length :=
          (List.getElem?_eq_some_iff.mp atCursor).1
        rw [perMessageStep, if_pos ⟨inBounds, atCursor⟩]
        simp [audited, cursor, calls, messageCalls]
      · have notAtCursor : ¬auditIdx[state.auditCur]? = some size :=
          fun found => audited (next.mp found)
        rw [perMessageStep, if_neg fun found => notAtCursor found.2]
        simp [audited, cursor, calls, messageCalls]

theorem perMessageDispatch_eq
    {auditIdx : List Nat} (ascending : auditIdx.Pairwise (· < ·))
    (size : Nat) :
    perMessageDispatch size auditIdx =
      (List.range size).flatMap (messageCalls auditIdx) :=
  (perMessageStep_foldl ascending size).2

/-- The per-message loop delivers every message and probes the audited. -/
theorem expand_perMessageDispatch
    {auditIdx : List Nat} (ascending : auditIdx.Pairwise (· < ·))
    (size : Nat) :
    (perMessageDispatch size auditIdx).flatMap HarnessCall.expand =
      (List.range size).flatMap (messageEvents auditIdx) := by
  rw [perMessageDispatch_eq ascending, List.flatMap_assoc]
  refine List.flatMap_congr fun i _ => ?_
  by_cases audited : i ∈ auditIdx <;>
    simp [messageCalls, messageEvents, audited, HarnessCall.expand]

/-! ## Runs -/

/-- The messages a call hands over, before the length is narrowed. -/
def HarnessCall.run : HarnessCall → List Nat
  | .dispatch index => [index]
  | .onBatch start length => List.range' start length
  | .probe _ => []

/-- The runs are nonempty, within the cap, and partition the rest. -/
theorem batchedFrom_runs
    {size : Nat} (start : Nat) (auditIdx : List Nat)
    (small : size < 2 ^ 64) (inside : start ≤ size)
    (later : ∀ i ∈ auditIdx, start ≤ i)
    (ascending : auditIdx.Pairwise (· < ·))
    (below : ∀ i ∈ auditIdx, i < size) :
    (batchedFrom size start auditIdx).flatMap HarnessCall.run =
        List.range' start (size - start) ∧
      ∀ first length,
        .onBatch first length ∈ batchedFrom size start auditIdx →
          0 < length ∧ length ≤ size := by
  induction auditIdx generalizing start with
  | nil =>
      by_cases remaining : start < size
      · have length := sizeSub_of_le inside small
        simp only [batchedFrom, if_pos remaining, length,
          List.flatMap_singleton, HarnessCall.run, List.mem_singleton,
          HarnessCall.onBatch.injEq, true_and]
        rintro first _ ⟨rfl, rfl⟩
        omega
      · simp [batchedFrom, remaining, show size - start = 0 by omega]
  | cons b auditIdx induction =>
      rw [List.pairwise_cons] at ascending
      have start_le : start ≤ b := later b List.mem_cons_self
      have b_lt : b < size := below b List.mem_cons_self
      obtain ⟨runs, lengths⟩ := induction (b + 1) (by omega)
        (fun i member => ascending.1 i member) ascending.2
        (fun i member => below i (List.mem_cons_of_mem _ member))
      have length := sizeSub_of_le start_le (Nat.lt_trans b_lt small)
      constructor
      · simp only [batchedFrom, List.flatMap_cons, HarnessCall.run, length,
          runs, List.nil_append]
        rw [show b + 1 = start + (b - start + 1) by omega,
          List.range'_append_1]
        congr 1
        omega
      · intro first count member
        simp only [batchedFrom, List.mem_cons, HarnessCall.onBatch.injEq,
          reduceCtorEq, false_or] at member
        rcases member with ⟨rfl, rfl⟩ | member
        · omega
        · exact lengths first count member

/--
Batched and per-message dispatch give the engine one and the same trace:
every message is delivered once and in order, and exactly the audited
messages are probed, right after their delivery.  The batched runs partition
the workload, none is empty and none changes length when narrowed.
-/
theorem dispatch_traces_agree
    (size : Nat) (auditIdx : List Nat)
    (nonempty : 1 ≤ size) (capped : size ≤ workloadMax)
    (ascending : auditIdx.Pairwise (· < ·))
    (below : ∀ i ∈ auditIdx, i < size) :
    (batchedDispatch size auditIdx).flatMap HarnessCall.expand =
        (perMessageDispatch size auditIdx).flatMap HarnessCall.expand ∧
      (perMessageDispatch size auditIdx).flatMap HarnessCall.expand =
        (List.range size).flatMap (messageEvents auditIdx) ∧
      (batchedDispatch size auditIdx).flatMap HarnessCall.run =
        List.range size ∧
      ∀ start length,
        .onBatch start length ∈ batchedDispatch size auditIdx →
          0 < length ∧ narrow32 length = length := by
  have small : size < 2 ^ 64 := by
    unfold workloadMax at capped
    omega
  have batched := expand_batchedFrom 0 [] auditIdx capped
    (Nat.zero_le size) (by simp) (fun i _ => Nat.zero_le i) ascending below
  have single := expand_perMessageDispatch ascending size
  obtain ⟨runs, lengths⟩ := batchedFrom_runs 0 auditIdx small (Nat.zero_le size)
    (fun i _ => Nat.zero_le i) ascending below
  rw [Nat.sub_zero] at batched runs
  refine ⟨?_, single, ?_, fun start length member => ?_⟩
  · rw [batchedDispatch, batched, single, List.range_eq_range']
    rfl
  · rw [List.range_eq_range']
    exact runs
  · obtain ⟨positive, bounded⟩ := lengths start length member
    exact ⟨positive, narrow32_of_le (Nat.le_trans bounded capped)⟩

/-- The agreement on a workload probed at both ends and twice in a row. -/
theorem dispatch_traces_agree_five :
    (batchedDispatch 5 [0, 2, 3, 4]).flatMap HarnessCall.expand =
      (perMessageDispatch 5 [0, 2, 3, 4]).flatMap HarnessCall.expand :=
  (dispatch_traces_agree 5 [0, 2, 3, 4] (by decide) (by decide)
    (by decide) (by decide)).1

end MatchingBench.Harness.Dispatch
