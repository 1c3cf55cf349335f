import MatchingBench.Adapters
import MatchingBench.Canonical.CheatAdapter
import MatchingBench.Harness.Contract
import MatchingBench.Pgellert.Reconstruction

/-!
# Replaying past the harness

`tests/cheat_adapter.cpp` as the engine of a run: it answers every message
with the published reports and keeps no book.  The hash cannot tell it from a
matcher; the state audit can, at every audited point where an order rests.
-/

set_option autoImplicit false

namespace MatchingBench.Cheats.Replay

open MatchingBench.Api
open MatchingBench.Adapters
open MatchingBench.Correctness
open MatchingBench.Canonical.CheatAdapter
open MatchingBench.Canonical.Sha256
open MatchingBench.Lib.KeyedSort
open MatchingBench.Lib.OrderBook
open MatchingBench.Lib.PriceTime
open MatchingBench.Lib.Runs
open MatchingBench.Reference
open MatchingBench.Harness.Audit
open MatchingBench.Harness.Contract
open MatchingBench.Harness.Deliveries
open MatchingBench.Harness.Drainer
open MatchingBench.Harness.Marshalling
open MatchingBench.Harness.Verdict
open MatchingBench.Pgellert.ReportCount
open MatchingBench.Pgellert.Reconstruction

/-! ## The adapter -/

/-- The table and what has been pushed. -/
abbrev State : Type :=
  Table × List Report

/-- A handler. -/
def handle (st : State) (m : Msg) : State :=
  (st.1, st.2 ++ engineOn st.1 m)

/-- `cheat_adapter.so`, where `file` is what it finds in the canonical file. -/
def engine (file : Option (List Char)) : Engine State where
  init _ := (engineInit file, [])
  onNewOrder st order := handle st (.newOrder order)
  onCancel st request := handle st (.cancel request)
  onModify st request := handle st (.modify request)
  queryBestBid _ := int64Min
  queryBestAsk _ := int64Max
  queryDepthAt _ _ _ := 0
  prebuild := none
  onBatch := none
  flush := id
  pushed := Prod.snd

theorem foldl_handle (msgs : List Msg) (st : State) :
    msgs.foldl handle st = (st.1, st.2 ++ msgs.flatMap (engineOn st.1)) := by
  induction msgs generalizing st with
  | nil => rw [List.flatMap_nil, List.append_nil, List.foldl_nil]
  | cons m msgs induction =>
      rw [List.foldl_cons, induction, handle, List.flatMap_cons,
        List.append_assoc]

/-- What the adapter has pushed when the run is over. -/
theorem pushed_engineEnd
    (file : Option (List Char)) (mode : Mode) (initNonce : UInt64)
    (workload : Workload) {auditIdx : List Nat}
    (ascending : auditIdx.Pairwise (· < ·))
    (below : ∀ i ∈ auditIdx, i < workload.msgs.length) :
    (engine file).pushed
        (engineEnd (engine file) mode initNonce workload.msgs auditIdx) =
      (messagesOf workload.msgs).flatMap (engineOn (engineInit file)) := by
  obtain ⟨deliveries, whole, reached⟩ :=
    measuredRun_delivers (engine file).toEngineLib mode initNonce
      workload.capped ascending below
  have loops : Loops (engine file).toEngineLib := by
    intro onBatch exported
    cases exported
  have called : (engine file).call = handle := by
    funext st m
    cases m <;> rfl
  rw [engineEnd, reached, foldl_deliver loops, handed, whole,
    map_dispatchMsg_prepare, called, foldl_handle]
  exact List.nil_append _

/-! ## The replayed reports -/

/-- Every report of the reference has one of the six types. -/
theorem step_known (book : LiveBook) (m : Msg) :
    ∀ r ∈ (Reference.step book m).2, r.type ≤ 5 := by
  intro r member
  cases m with
  | newOrder o =>
      simp only [Reference.step, Reference.newOrder] at member
      split at member
      · simp only [List.cons_append, List.mem_cons, List.mem_append,
          List.mem_map] at member
        rcases member with rfl | ⟨fill, _, rfl⟩ | residue
        · exact (by decide : meOrderAck ≤ 5)
        · exact (by decide : meTrade ≤ 5)
        · split at residue
          · rw [List.mem_singleton.mp residue]
            exact (by decide : meCancelAck ≤ 5)
          · cases residue
      · cases member
  | cancel c =>
      simp only [Reference.step, Reference.cancel] at member
      split at member
      · rw [List.mem_singleton.mp member]
        exact (by decide : meCancelAck ≤ 5)
      · rw [List.mem_singleton.mp member]
        exact (by decide : meCancelReject ≤ 5)
  | modify m =>
      simp only [Reference.step, Reference.modify] at member
      split at member
      · simp only [List.mem_append, List.mem_map, List.mem_singleton]
          at member
        rcases member with ⟨fill, _, rfl⟩ | rfl
        · exact (by decide : meTrade ≤ 5)
        · exact (by decide : meModifyAck ≤ 5)
      · rw [List.mem_singleton.mp member]
        exact (by decide : meModifyReject ≤ 5)

theorem output_known (book : LiveBook) (msgs : List Msg) :
    ∀ r ∈ output Reference.step book msgs, r.type ≤ 5 := by
  induction msgs generalizing book with
  | nil => exact fun r member => absurd member List.not_mem_nil
  | cons m msgs induction =>
      intro r member
      rcases List.mem_append.mp member with now | later
      · exact step_known book m r now
      · exact induction _ r later

/-- The canonical file of a run of the reference. -/
def canonicalFile (msgs : List Msg) : List Char :=
  (buildCanonicalText ((reportsOf msgs).map collect)).1

/-- What is replayed, message by message. -/
theorem map_collect_replayed (msgs : List Msg) :
    (msgs.flatMap (engineOn (engineInit (some (canonicalFile msgs))))).map
        collect =
      (msgs.map Msg.sequenceNumber).flatMap fun seq =>
        fiber CollectedReport.seq seq
          ((stableSort reportBefore ((reportsOf msgs).map collect)).map
            fun r => collect (projected r)) := by
  have known :
      ∀ r ∈ stableSort reportBefore ((reportsOf msgs).map collect),
        r.type ≤ 5 := by
    intro r member
    obtain ⟨report, inside, rfl⟩ := List.mem_map.mp
      ((stableSort_perm reportBefore_compares _).mem_iff.mp member)
    exact output_known Book.empty msgs report inside
  rw [canonicalFile, buildCanonicalText_eq, engineInit_joined known,
    List.map_flatMap, List.flatMap_map]
  refine List.flatMap_congr fun message _ => ?_
  have empty : replay ∅ message.sequenceNumber = [] := rfl
  rw [engineOn_eq, replay_foldl_push, empty, List.nil_append, fiber, fiber,
    List.filter_map, List.filter_map, List.map_map]
  rfl

/-- The replayed reports print like the reference's. -/
theorem replayed_sameReports
    {msgs : List Msg} (distinct : (msgs.map Msg.sequenceNumber).Nodup) :
    SameReports
      (msgs.flatMap (engineOn (engineInit (some (canonicalFile msgs)))))
      (reportsOf msgs) := by
  have covered :
      ∀ r ∈ (stableSort reportBefore ((reportsOf msgs).map collect)).map
          fun r => collect (projected r),
        r.seq ∈ msgs.map Msg.sequenceNumber := by
    intro r member
    obtain ⟨original, inSorted, rfl⟩ := List.mem_map.mp member
    obtain ⟨report, inside, rfl⟩ := List.mem_map.mp
      ((stableSort_perm reportBefore_compares _).mem_iff.mp inSorted)
    obtain ⟨m, sent, number⟩ := output_sequenceNumber msgs report inside
    exact List.mem_map.mpr ⟨m, sent, number.symm⟩
  constructor
  · rw [map_collect_replayed]
    exact (sameCanonical_replayed distinct covered).trans
      ((sameCanonical_projected _).trans (sameCanonical_sorted _))
  · rw [← List.length_map collect, map_collect_replayed,
      (flatMap_fiber_perm distinct covered).length_eq, List.length_map,
      (stableSort_perm reportBefore_compares _).length_eq, List.length_map]

/-! ## The book it does not keep -/

section Books

variable {allowed : Int64 → Prop}

/-- The prices that rest during a legal run are allowed. -/
theorem all_allowed
    {msgs : List Msg} {book : LiveBook}
    (legal : Admitted Reference.step (Legal allowed) book msgs)
    (before : book.All fun _ _ price => allowed price) :
    (final Reference.step book msgs).All fun _ _ price => allowed price := by
  induction msgs generalizing book with
  | nil => exact before
  | cons m msgs induction =>
      refine induction legal.2 ?_
      cases m with
      | newOrder o =>
          obtain ⟨fresh, -, -, permitted⟩ := legal.1
          simp only [Reference.step, Reference.newOrder, dif_pos fresh]
          exact before.submit fun _ => permitted
      | cancel c =>
          simp only [Reference.step, Reference.cancel]
          cases book.lookup c.orderId with
          | none => exact before
          | some entry => exact before.withdraw c.orderId
      | modify m =>
          obtain ⟨-, -, permitted, -⟩ := legal.1
          simp only [Reference.step, Reference.modify]
          cases book.lookup m.orderId with
          | none => exact before
          | some entry =>
              exact @Book.All.submit _ _ _ _ _ _ (before.withdraw m.orderId)
                _ _ _ (book.lookup_withdraw_self m.orderId)
                fun _ => permitted

/-- The sentinels are not prices. -/
def Unmistakable (allowed : Int64 → Prop) : Prop :=
  ¬allowed int64Min ∧ ¬allowed int64Max

/-- A book without such prices answers like no book only when it is empty. -/
theorem referenceAnswers_eq_empty_iff
    (unmistakable : Unmistakable allowed) {msgs : List Msg}
    (legal : LegalRun allowed msgs) (m : WorkloadMsg) :
    referenceAnswers msgs m = (int64Min, int64Max, 0) ↔
      bookAfter msgs = Book.empty := by
  have prices := all_allowed legal Book.all_empty
  have unsided (side : Side) (sentinel : Int64) (out : ¬allowed sentinel)
      (answer : ((bookAfter msgs).best side).getD sentinel = sentinel) :
      (bookAfter msgs).ladder side = [] := by
    cases ladder : (bookAfter msgs).ladder side with
    | nil => rfl
    | cons o rest =>
        rw [Book.best, ladder] at answer
        have price : o.price = sentinel := answer
        have found : (bookAfter msgs).lookup o.id = some (side, o) :=
          Book.lookup_eq_some_iff.mpr
            ⟨ladder ▸ List.mem_cons_self, rfl⟩
        exact absurd (price ▸ prices o.id side o found) out
  constructor
  · intro answers
    have bids := unsided .buy int64Min unmistakable.1
      (congrArg Prod.fst answers)
    have asks := unsided .sell int64Max unmistakable.2
      (congrArg (fun answer => answer.2.1) answers)
    refine Book.ext_ladder fun side => ?_
    cases side with
    | buy => exact bids
    | sell => exact asks
  · intro empty
    rw [referenceAnswers, empty]
    rfl

end Books

/-! ## The verdict -/

section Verdict

variable {allowed : Int64 → Prop} {workload : Workload}

/--
Loaded with the published reports, the adapter passes every gate but one
whatever the workload, as long as its sequence numbers are distinct and it has
no price that is a sentinel: the status is PASS, the book was empty at the
start and the report buffer holds.  Its audit against a conforming baseline
passes exactly when no order rests at any of the audited points.
-/
theorem replay_judged
    (unmistakable : Unmistakable allowed)
    (legal : LegalRun allowed (messagesOf workload.msgs))
    (distinct :
      ((messagesOf workload.msgs).map Msg.sequenceNumber).Nodup)
    {args : Args} {baselines : String → BaselineFile}
    {τ : Type} {baseline : Engine τ}
    (replayed : args.mode = .audit →
      Conforms baseline workload.msgs ∧
        baselines (baseName args.engineName) = .loads baseline.toEngineLib)
    (verifying : args.writeReference = false)
    {mt19937_64 : UInt64 → Nat → UInt64} {machine : Machine}
    {file : Option (List Char)}
    (written : Wrote mt19937_64 workload args.wantTag file)
    {auditIdx : List Nat}
    (picked : Picked mt19937_64 machine workload.msgs auditIdx)
    {drain : DrainState}
    (drained :
      let cheat := engine (some (canonicalFile (messagesOf workload.msgs)))
      Drained (cheat.pushed (engineEnd cheat args.mode machine.initNonce
        workload.msgs auditIdx)) drain)
    (reRead : Option (List Char)) :
    let cheat := engine (some (canonicalFile (messagesOf workload.msgs)))
    let outcome := harnessMain args machine file reRead workload.msgs cheat
      baselines auditIdx drain
    outcome.status = .pass ∧ outcome.prestartBookEmpty = true ∧
      outcome.reportBufferOk = true ∧
      (outcome.auditOk = true ↔
        (args.mode = .audit → ∀ i ∈ auditIdx,
          bookAfter (messagesOf (workload.msgs.take (i + 1))) =
            Book.empty)) ∧
      (outcome.valid = true ↔
        outcome.auditOk = true ∧ outcome.affinityOk = true ∧
          outcome.probeTimeOk = true ∧ outcome.canonicalOutputOk = true) := by
  intro cheat outcome
  obtain ⟨ascending, below, -, -⟩ := picked.spec
  have collected := drained.collected
  have same : SameReports _ _ := replayed_sameReports distinct
  rw [← pushed_engineEnd _ args.mode machine.initNonce workload ascending
    below] at same
  have pass : outcome.correctnessOk = true := by
    refine (judge_correctnessOk collected).mpr ⟨verifying, ?_⟩
    rw [written.get]
    exact congrArg some (canonicalDigest_eq_iff.mpr
      (congrArg sha256 (canonicalBytes_eq_iff.mpr same.1)).symm)
  have prestart : outcome.prestartBookEmpty = true :=
    judge_prestartBookEmpty.mpr ⟨rfl, rfl⟩
  have roomy : outcome.reportBufferOk = true := by
    refine (judge_reportBufferOk collected).mpr ?_
    have few := length_reportsOf_le workload.msgs
    rw [same.2]
    omega
  have unbuilt : outcome.prebuildTimeOk = true :=
    judge_prebuildTimeOk.mpr fun exports => by cases exports
  have books (i : Nat) (m : WorkloadMsg) :
      cheat.answers
            (measuredState cheat.toEngineLib machine.initNonce workload.msgs
              auditIdx i) m =
          referenceAnswers (messagesOf (workload.msgs.take (i + 1))) m ↔
        bookAfter (messagesOf (workload.msgs.take (i + 1))) =
          Book.empty := by
    have front : messagesOf (workload.msgs.take (i + 1)) <+:
        messagesOf workload.msgs :=
      (List.take_prefix _ _).map feedMsg
    rw [← referenceAnswers_eq_empty_iff unmistakable
      (legal.of_prefix front) m]
    exact eq_comm
  refine ⟨beq_iff_eq.mp pass, prestart, roomy, ?_, ?_⟩
  · refine (harnessMain_auditOk picked).trans
      (forall_congr' fun mode => ?_)
    obtain ⟨replayed, built⟩ := replayed mode
    constructor
    · rintro ⟨τ', lib, loaded, alike⟩ i audited
      rw [built] at loaded
      cases loaded
      have found := List.getElem?_eq_getElem (below i audited)
      have agrees := alike i audited _ found
      rw [replayed.replayed i (List.mem_of_getElem? found)] at agrees
      exact (books i _).mp agrees
    · intro empty
      refine ⟨τ, _, built, fun i audited m found => ?_⟩
      rw [replayed.replayed i (List.mem_of_getElem? found)]
      exact (books i m).mpr (empty i audited)
  · refine Outcome.valid_iff.trans ?_
    constructor
    · rintro ⟨-, audited, pinned, -, -, -, probed, exported⟩
      exact ⟨audited, pinned, probed, exported⟩
    · rintro ⟨audited, pinned, probed, exported⟩
      exact ⟨pass, audited, pinned, prestart, unbuilt, roomy, probed,
        exported⟩

/-- An order that never rests, and a cancel that names it. -/
def neverResting : Workload where
  msgs :=
    [{ type := 0, side := 0, ioc := 1, qty := 5, seq := 0, orderId := 1
       priceTicks := 100 },
     { type := 1, side := 0, ioc := 0, qty := 0, seq := 1, orderId := 1
       priceTicks := 100 }]
  nonempty := by decide
  capped := by decide
  typed := by decide

/--
Where orders rest the replay is VALID without an audit and not with one; where
none does it passes the audit, too.
-/
theorem replay_judged_crossing :
    let judged (mode : Mode) (workload : Workload) (auditIdx : List Nat)
        (file : Option (List Char)) (drain : DrainState) : Outcome :=
      harnessMain { auditArgs with mode := mode } quietMachine file none
        workload.msgs
        (engine (some (canonicalFile (messagesOf workload.msgs))))
        onlyReference auditIdx drain
    (∃ file drain,
      (judged .audit crossing [0, 1, 2, 3, 4] file drain).status = .pass ∧
      (judged .audit crossing [0, 1, 2, 3, 4] file drain).valid = false) ∧
    (∃ file drain,
      (judged .perf crossing [0, 1, 2, 3, 4] file drain).valid = true) ∧
    ∃ file drain,
      (judged .audit neverResting [0, 1] file drain).valid = true := by
  intro judged
  have unmistakable : Unmistakable TickPrice := by
    constructor <;> decide
  have run (mode : Mode) {workload : Workload}
      (legal : LegalRun TickPrice (messagesOf workload.msgs))
      (distinct :
        ((messagesOf workload.msgs).map Msg.sequenceNumber).Nodup)
      {auditIdx : List Nat}
      (picked : Picked counting quietMachine workload.msgs auditIdx) :
      ∃ file drain,
        (judged mode workload auditIdx file drain).status = .pass ∧
        ((judged mode workload auditIdx file drain).valid = true ↔
          (mode = .audit → ∀ i ∈ auditIdx,
            bookAfter (messagesOf (workload.msgs.take (i + 1))) =
              Book.empty)) := by
    have conforms := referenceEngine_conforms workload.msgs
    obtain ⟨file, written⟩ := exists_wrote conforms picked tag_readable
    let cheat := engine (some (canonicalFile (messagesOf workload.msgs)))
    obtain ⟨drain, drained⟩ := exists_drained
      (cheat.pushed (engineEnd cheat mode 0 workload.msgs auditIdx))
    obtain ⟨pass, -, -, audited, valid⟩ := @replay_judged TickPrice workload
      unmistakable legal distinct { auditArgs with mode := mode }
      onlyReference _ referenceEngine (fun _ => ⟨conforms, rfl⟩) rfl _
      quietMachine file written auditIdx picked drain drained none
    refine ⟨file, drain, pass, valid.trans (Iff.trans ?_ audited)⟩
    exact and_iff_left ⟨rfl, rfl, rfl⟩
  refine ⟨?_, ?_, ?_⟩
  · obtain ⟨file, drain, pass, valid⟩ :=
      run .audit (by decide) (by decide) picked_crossing
    refine ⟨file, drain, pass, Bool.eq_false_iff.mpr fun judged => ?_⟩
    have empty := valid.mp judged rfl 0 List.mem_cons_self
    have resting := congrArg (fun book => (book.ladder .buy).length) empty
    revert resting
    decide
  · obtain ⟨file, drain, -, valid⟩ :=
      run .perf (by decide) (by decide) picked_crossing
    exact ⟨file, drain, valid.mpr fun audit => by cases audit⟩
  · obtain ⟨file, drain, -, valid⟩ :=
      @run .audit neverResting (by decide) (by decide) [0, 1] ⟨2, by decide⟩
    refine ⟨file, drain, valid.mpr fun _ i audited => ?_⟩
    have index : i = 0 ∨ i = 1 := by
      simpa using audited
    refine Book.ext_ladder fun side => ?_
    rcases index with rfl | rfl <;> cases side <;> rfl

end Verdict

end MatchingBench.Cheats.Replay
