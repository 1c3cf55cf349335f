import MatchingBench.Baselines.Validation
import MatchingBench.Harness.QueryEffects
import MatchingBench.Lib.Deferral

/-!
# Matching off the clock

`tests/query_drain_cheat.cpp`: the Liquibook adapter behind a queue.  The
handlers only queue their message; the queries and `engine_flush` drain the
queue first.
-/

set_option autoImplicit false

namespace MatchingBench.Cheats.QueryDrain

open MatchingBench.Api
open MatchingBench.Adapters
open MatchingBench.Lib.Deferral
open MatchingBench.Lib.Ladders
open MatchingBench.Lib.OrderBook
open MatchingBench.Lib.Tables
open MatchingBench.Reference
open MatchingBench.Baselines
open MatchingBench.Baselines.Validation
open MatchingBench.Harness.Audit
open MatchingBench.Harness.Contract
open MatchingBench.Harness.Deliveries
open MatchingBench.Harness.Dispatch
open MatchingBench.Harness.Drainer
open MatchingBench.Harness.Marshalling
open MatchingBench.Harness.QueryEffects
open MatchingBench.Harness.SharedLibrary
open MatchingBench.Harness.Verdict

/-! ## The adapter -/

/-- The globals: the Liquibook adapter's, `g_pending` and `g_drain_pos`. -/
abbrev State (core : Liquibook.Core) : Type :=
  Deferred (Process (Liquibook.State core)) Msg

/-- `do_new_order`, `do_cancel` and `do_modify`. -/
def doMessage (core : Liquibook.Core) :
    Process (Liquibook.State core) → Msg → Process (Liquibook.State core) :=
  (liquibookLibrary core).handle

/-- `drain`. -/
def drain {core : Liquibook.Core} (st : State core) : State core :=
  st.catchUp (doMessage core)

/-- A query behind `drain`. -/
def drained
    {core : Liquibook.Core} {α : Type} (st : State core)
    (ask : Liquibook.State core → α) (crashed : α) : α :=
  query (drain st).settled ask crashed

/-- `query_drain_cheat.so`. -/
def engine (core : Liquibook.Core) : ActiveEngine (State core) where
  init _ := Deferred.start (some (Liquibook.engineInit core, []))
  onNewOrder st order := st.note (.newOrder order)
  onCancel st request := st.note (.cancel request)
  onModify st request := st.note (.modify request)
  queryBestBid st := drained st Liquibook.engineQueryBestBid 0
  queryBestAsk st := drained st Liquibook.engineQueryBestAsk 0
  queryDepthAt st price side :=
    drained st (Liquibook.engineQueryDepthAt · price side) 0
  prebuild := none
  onBatch := none
  flush := drain
  pushed st := (st.settled.map Prod.snd).getD []
  afterBestBid := drain
  afterBestAsk := drain
  afterDepthAt st _ _ := drain st

section Runs

variable {core : Liquibook.Core}

/-- What has been matched and what is queued stand for the Liquibook book. -/
def owed (st : State core) : Process (Liquibook.State core) :=
  st.owed (doMessage core)

theorem represents :
    Represents (engine core) (liquibookLibrary core).bare owed where
  init _ := rfl
  call st m := by
    cases m <;> exact Deferred.owed_note _ st _
  bestBid st :=
    congrArg (query · Liquibook.engineQueryBestBid 0)
      (st.settled_catchUp (doMessage core))
  bestAsk st :=
    congrArg (query · Liquibook.engineQueryBestAsk 0)
      (st.settled_catchUp (doMessage core))
  depthAt st price side :=
    congrArg
      (query · (Liquibook.engineQueryDepthAt · price side) 0)
      (st.settled_catchUp (doMessage core))
  afterBestBid st := st.owed_catchUp (doMessage core)
  afterBestAsk st := st.owed_catchUp (doMessage core)
  afterDepthAt st _ _ := st.owed_catchUp (doMessage core)
  pushed st :=
    congrArg (fun process : Process (Liquibook.State core) =>
      (process.map Prod.snd).getD []) (st.settled_catchUp (doMessage core))
  bare := ⟨rfl, rfl⟩
  plainBare := ⟨rfl, rfl⟩

/-! ## What is matched when -/

/--
The queue after the messages before `size`: it is drained up to the last
audited one of them.
-/
structure Queued
    (workload : List WorkloadMsg) (auditIdx : List Nat) (size : Nat)
    (st : State core) : Prop where
  pending : st.pending = (messagesOf workload).take size
  paid : st.Paid (doMessage core) (some (Liquibook.engineInit core, []))
  drained : ∀ i ∈ auditIdx, i < size → i < st.cursor
  latest : st.cursor = 0 ∨ ∃ i ∈ auditIdx, i < size ∧ st.cursor = i + 1

/-- A probe matches all that is queued. -/
theorem probed_spec
    {start : Process (Liquibook.State core)} {st : State core}
    (paid : st.Paid (doMessage core) start) (m : WorkloadMsg) :
    let after := (engine core).probed st m
    after.pending = st.pending ∧ after.cursor = st.pending.length ∧
      after.Paid (doMessage core) start := by
  have first := st.catchUp_spec (doMessage core)
  have second := (drain st).catchUp_spec (doMessage core)
  have third := (drain (drain st)).catchUp_spec (doMessage core)
  have same : (drain (drain st)).pending = st.pending :=
    second.2.1.trans first.2.1
  exact ⟨third.2.1.trans same, third.2.2.trans (congrArg _ same),
    paid.catchUp.catchUp.catchUp⟩

section Queue

variable {workload : List WorkloadMsg} {auditIdx : List Nat} {size : Nat}
  {st : State core} {m : WorkloadMsg}

theorem Queued.pending_note
    (queued : Queued workload auditIdx size st)
    (found : workload[size]? = some m) :
    (st.note (feedMsg m)).pending =
      (messagesOf workload).take (size + 1) := by
  have next : (messagesOf workload)[size]? = some (feedMsg m) := by
    rw [messagesOf, List.getElem?_map, found, Option.map_some]
  rw [List.take_add_one, next, ← queued.pending]
  rfl

/-- A message that is not audited waits. -/
theorem Queued.note
    (queued : Queued workload auditIdx size st)
    (found : workload[size]? = some m) (unprobed : size ∉ auditIdx) :
    Queued workload auditIdx (size + 1) (st.note (feedMsg m)) where
  pending := queued.pending_note found
  paid := queued.paid.note _
  drained i audited before := by
    rcases Nat.lt_succ_iff_lt_or_eq.mp before with before | rfl
    · exact queued.drained i audited before
    · exact absurd audited unprobed
  latest := by
    rcases queued.latest with start | ⟨i, audited, before, cursor⟩
    · exact Or.inl start
    · exact Or.inr ⟨i, audited, Nat.lt_succ_of_lt before, cursor⟩

/-- An audited message is matched by its probe, with all that waits. -/
theorem Queued.probed
    (queued : Queued workload auditIdx size st)
    (found : workload[size]? = some m) (audited : size ∈ auditIdx) :
    Queued workload auditIdx (size + 1)
      ((engine core).probed (st.note (feedMsg m)) m) := by
  obtain ⟨kept, moved, paid⟩ := probed_spec (queued.paid.note (feedMsg m)) m
  have pending := queued.pending_note found
  have inside := (List.getElem?_eq_some_iff.mp found).1
  rw [pending, List.length_take, messagesOf, List.length_map,
    Nat.min_eq_left inside] at moved
  exact
    { pending := kept.trans pending
      paid := paid
      drained := fun i _ below => moved ▸ below
      latest := Or.inr ⟨size, audited, Nat.lt_succ_self _, moved⟩ }

theorem activeCall_dispatch
    (mode : Mode) (run : RunState (State core))
    (found : workload[size]? = some m) :
    activeCall (engine core) mode workload run (.dispatch size) =
      { engine := run.engine.note (feedMsg m)
        utSnaps := run.utSnaps } := by
  have prepared : (workload.map prepare)[size]? = some (prepare m) := by
    rw [List.getElem?_map, found, Option.map_some]
  simp only [activeCall, runCall, prepared, dispatchMsg_prepare]
  congr 1
  cases feedMsg m <;> rfl

/-- The queue throughout the timed window. -/
theorem queued_run
    (mode : Mode) {run : RunState (State core)}
    (start : Queued workload auditIdx 0 run.engine)
    (inside : size ≤ workload.length) :
    Queued workload auditIdx size
      (((List.range size).flatMap (messageCalls auditIdx)).foldl
        (activeCall (engine core) mode workload) run).engine := by
  induction size with
  | zero => exact start
  | succ size induction =>
      have before := induction (Nat.le_of_succ_le inside)
      rw [List.range_succ, List.flatMap_append, List.flatMap_singleton,
        List.foldl_append]
      generalize ((List.range size).flatMap (messageCalls auditIdx)).foldl
        (activeCall (engine core) mode workload) run = reached at before ⊢
      have found : workload[size]? = some workload[size] :=
        List.getElem?_eq_getElem inside
      unfold messageCalls
      rw [List.foldl_cons, activeCall_dispatch mode reached found]
      by_cases audited : size ∈ auditIdx
      · rw [if_pos audited, List.foldl_cons, List.foldl_nil]
        simp only [activeCall, found]
        exact before.probed found audited
      · rw [if_neg audited, List.foldl_nil]
        exact before.note found audited

theorem queued_start (initNonce : UInt64) :
    Queued workload auditIdx 0
      (activeStart (engine core) initNonce workload) := by
  have first := (Deferred.start (some (Liquibook.engineInit core, [])) :
    State core).catchUp_spec (doMessage core)
  have second := (drain (Deferred.start (some (Liquibook.engineInit core, []))
    : State core)).catchUp_spec (doMessage core)
  have same := second.2.1.trans first.2.1
  constructor
  · rw [List.take_zero]
    exact same
  · exact Deferred.Paid.catchUp (Deferred.Paid.catchUp rfl)
  · intro i _ below
    exact absurd below (Nat.not_lt_zero i)
  · refine Or.inl (second.2.2.trans ?_)
    rw [show (drain _ : State core).pending = [] from first.2.1]
    rfl

/-- Only what follows the last audited message is left for `engine_flush`. -/
theorem activeRun_spec
    (mode : Mode) (initNonce : UInt64)
    (ascending : auditIdx.Pairwise (· < ·))
    (below : ∀ i ∈ auditIdx, i < workload.length) {last : Nat}
    (audited : last ∈ auditIdx) (latest : ∀ i ∈ auditIdx, i ≤ last) :
    let run := activeRun (engine core) mode initNonce workload auditIdx
    run.engine.pending = messagesOf workload ∧
      run.engine.cursor = last + 1 ∧
      run.engine.settled =
        ((messagesOf workload).take (last + 1)).foldl (doMessage core)
          (some (Liquibook.engineInit core, [])) := by
  intro run
  have calls :
      dispatchCalls (engine core).toEngineLib workload.length auditIdx =
        (List.range workload.length).flatMap (messageCalls auditIdx) :=
    perMessageDispatch_eq ascending _
  have queued : Queued workload auditIdx workload.length run.engine := by
    dsimp only [run, activeRun]
    rw [calls]
    exact queued_run mode (queued_start initNonce) (Nat.le_refl _)
  have whole : run.engine.pending = messagesOf workload := by
    rw [queued.pending, List.take_of_length_le]
    rw [messagesOf, List.length_map]
  have cursor : run.engine.cursor = last + 1 := by
    have reached := queued.drained last audited (below last audited)
    rcases queued.latest with start | ⟨i, inside, _, moved⟩
    · omega
    · have behind := latest i inside
      omega
  refine ⟨whole, cursor, ?_⟩
  have paid := queued.paid
  rw [Deferred.Paid, whole, cursor] at paid
  exact paid

end Queue

end Runs

/-! ## The verdict -/

section Verdict

variable {core : Liquibook.Core} {ladders : core.State → Sides Nat Nat}
  {allowed : Int64 → Prop}

/-- The tables of `engine_init` hold a workload that fits them. -/
theorem simulates_engineInit
    (correct : core.Correct ladders) {msgs : List Msg}
    (ids : NewIds (2 ^ 21) msgs) (few : orderCount msgs < 2 ^ 21) :
    LiquibookRefinement.Simulates allowed ladders msgs
      (Liquibook.engineInit core) Book.empty := by
  have nothing (id : UInt64) :
      Liquibook.findOrder (Liquibook.engineInit core).orders id = none :=
    LiquibookRefinement.findOrder_resize (Nat.zero_le _) id
  constructor
  · exact correct.ladders_init ▸ standsFor_empty _ _ _
  · intro id order stored
    rw [nothing] at stored
    cases stored
  · exact Book.all_empty
  · change 0 + orderCount msgs < (resize [] (2 ^ 21) (0 : UInt64)).length
    rw [length_resize, Nat.zero_add]
    exact few
  · change NewIds (resize ([] : List (Option Liquibook.SimpleOrder))
      (2 ^ 21) none).length msgs
    rw [length_resize]
    exact ids

variable {workload : Workload}

/-- The adapter behind the queue conforms without a prebuild pass. -/
theorem bare_conforms
    (correct : core.Correct ladders)
    (fits : LiquibookRefinement.Fits allowed)
    (legal : LegalRun allowed (messagesOf workload.msgs))
    (ids : NewIds (2 ^ 21) (messagesOf workload.msgs))
    (few : orderCount (messagesOf workload.msgs) < 2 ^ 21)
    (representable : ∀ m ∈ workload.msgs,
      LiquibookRefinement.Representable core.priceBits m.priceTicks) :
    Conforms (liquibookLibrary core).bare workload.msgs :=
  ((liquibookLibrary core).drives_bare workload.msgs).conforms
    (LiquibookRefinement.step_forward correct fits) legal
    (simulates_engineInit correct ids few)
    fun _ _ _ simulates =>
      ⟨LiquibookRefinement.queryBestBid_eq correct simulates,
        LiquibookRefinement.queryBestAsk_eq correct simulates,
        fun m member =>
          LiquibookRefinement.queryDepthAt_eq correct fits simulates
            (representable m member) m.side⟩

/-- What the first messages make the adapter push. -/
theorem pushed_prefix
    (correct : core.Correct ladders)
    (fits : LiquibookRefinement.Fits allowed) {front msgs : List Msg}
    (reached : front <+: msgs) (legal : LegalRun allowed msgs)
    (ids : NewIds (2 ^ 21) msgs) (few : orderCount msgs < 2 ^ 21) :
    SameReports
      (((front.foldl (doMessage core)
        (some (Liquibook.engineInit core, []))).map Prod.snd).getD [])
      (reportsOf front) := by
  obtain ⟨back, rfl⟩ := reached
  obtain ⟨last, out, ran, _, same⟩ :=
    (LiquibookRefinement.step_forward correct fits).run
      (simulates_engineInit correct ids few) legal
  have stepped := (liquibookLibrary core).foldl_handle front
    (Liquibook.engineInit core) []
  rw [doMessage, stepped, show Lib.Runs.run (liquibookLibrary core).step
    (Liquibook.engineInit core) front = some (last, out) from ran]
  exact same

/--
The cheat is judged like an honest engine: its hash passes, its audit passes,
and its run is VALID exactly when the measurement gates hold.  Yet nothing is
matched on the clock but what follows the last audited message: up to that one
the reports are pushed by the probes.
-/
theorem query_drain_judged
    (correct : core.Correct ladders)
    (fits : LiquibookRefinement.Fits allowed)
    (legal : LegalRun allowed (messagesOf workload.msgs))
    (ids : NewIds (2 ^ 21) (messagesOf workload.msgs))
    (few : orderCount (messagesOf workload.msgs) < 2 ^ 21)
    (representable : ∀ m ∈ workload.msgs,
      LiquibookRefinement.Representable core.priceBits m.priceTicks)
    {τ : Type} {baseline : Engine τ}
    (replayed : Conforms baseline workload.msgs) {args : Args}
    {baselines : String → BaselineFile}
    (built : baselines (baseName args.engineName) =
      .loads baseline.toEngineLib)
    (verifying : args.writeReference = false)
    {mt19937_64 : UInt64 → Nat → UInt64} {machine : Machine}
    {file : Option (List Char)}
    (written : Wrote mt19937_64 workload args.wantTag file)
    {auditIdx : List Nat}
    (picked : Picked mt19937_64 machine workload.msgs auditIdx)
    {drain : DrainState}
    (drained : Drained
      ((engine core).pushed (activeEnd (engine core) args.mode
        machine.initNonce workload.msgs auditIdx)) drain)
    (reRead : Option (List Char)) {last : Nat} (audited : last ∈ auditIdx)
    (latest : ∀ i ∈ auditIdx, i ≤ last) :
    let outcome := activeMain args machine file reRead workload.msgs
      (engine core) baselines auditIdx drain
    let flushed := activeRun (engine core) args.mode machine.initNonce
      workload.msgs auditIdx
    outcome.status = .pass ∧ outcome.auditOk = true ∧
      (outcome.valid = true ↔
        outcome.affinityOk = true ∧ outcome.probeTimeOk = true ∧
          outcome.canonicalOutputOk = true) ∧
      flushed.engine.cursor = last + 1 ∧
      SameReports ((engine core).pushed flushed.engine)
        (reportsOf ((messagesOf workload.msgs).take (last + 1))) := by
  intro outcome flushed
  obtain ⟨ascending, below, -, -⟩ := picked.spec
  have conforms := bare_conforms correct fits legal ids few representable
  rw [(@represents core).activeEnd] at drained
  obtain ⟨pass, passes, valid⟩ := conforms.judgedValid replayed built
    verifying machine file reRead auditIdx drain written picked drained
  have same : outcome = _ := (@represents core).activeMain args machine file
    reRead baselines drain
  have unbuilt : outcome.prebuildTimeOk = true := by
    rw [same]
    exact judge_prebuildTimeOk.mpr fun exports => by cases exports
  rw [← same] at pass passes valid
  obtain ⟨-, cursor, settled⟩ := activeRun_spec args.mode
    machine.initNonce ascending below audited latest
  refine ⟨pass, passes, valid.trans ?_, cursor, ?_⟩
  · constructor
    · rintro ⟨pinned, -, probed, exported⟩
      exact ⟨pinned, probed, exported⟩
    · rintro ⟨pinned, probed, exported⟩
      exact ⟨pinned, unbuilt, probed, exported⟩
  · have pushed := pushed_prefix correct fits
      (List.take_prefix (last + 1) (messagesOf workload.msgs)) legal ids few
    rw [← settled] at pushed
    exact pushed

/-- Sixty-six messages: buys and sells of five at one price, in turn. -/
def pairs : Workload where
  msgs := (List.range 66).map fun i =>
    { type := 0, side := if i % 2 = 0 then 0 else 1, ioc := 0, qty := 5
      seq := i.toUInt64, orderId := i.toUInt64 + 1, priceTicks := 100 }
  nonempty := by decide
  capped := by decide
  typed := by decide

theorem picked_pairs :
    Picked counting quietMachine pairs.msgs (List.range 64) :=
  ⟨64, by decide +kernel⟩

theorem pairs_ids : NewIds (2 ^ 21) (messagesOf pairs.msgs) := by
  have below : ((messagesOf pairs.msgs).all fun m =>
      decide (m.orderId.toNat < 2 ^ 21)) = true := by
    decide +kernel
  intro o member
  exact of_decide_eq_true (List.all_eq_true.mp below _ member)

theorem pairs_representable (m : WorkloadMsg) (member : m ∈ pairs.msgs) :
    LiquibookRefinement.Representable LadderCores.liquibook.priceBits
      m.priceTicks := by
  obtain ⟨i, -, rfl⟩ := List.mem_map.mp member
  exact Or.inr (show 0 ≤ (100 : Int64).toInt ∧ (100 : Int64).toInt < 2 ^ _ by
    decide)

/--
On a machine that measures nothing odd the cheat is VALID, and the last two
messages wait for the flush.
-/
theorem query_drain_judged_pairs :
    let cheat := engine LadderCores.liquibook
    let flushed := activeRun cheat auditArgs.mode quietMachine.initNonce
      pairs.msgs (List.range 64)
    (∃ file drain,
      (activeMain auditArgs quietMachine file none pairs.msgs cheat
        onlyReference (List.range 64) drain).valid = true) ∧
      flushed.engine.cursor = 64 ∧
      SameReports (cheat.pushed flushed.engine)
        (reportsOf ((messagesOf pairs.msgs).take 64)) := by
  intro cheat flushed
  have conforms := referenceEngine_conforms pairs.msgs
  obtain ⟨file, written⟩ := exists_wrote conforms picked_pairs tag_readable
  obtain ⟨drain, drained⟩ := exists_drained
    (cheat.pushed (activeEnd cheat auditArgs.mode quietMachine.initNonce
      pairs.msgs (List.range 64)))
  have legal : LegalRun QuantCup.QcPrice (messagesOf pairs.msgs) := by
    decide +kernel
  obtain ⟨-, -, valid, cursor, pushed⟩ := query_drain_judged
    LadderCores.liquibook_correct Agreement.qcPrice_fits legal pairs_ids
    (by decide +kernel) pairs_representable conforms
    (show onlyReference (baseName auditArgs.engineName) = _ from rfl) rfl
    written picked_pairs drained none
    (show 63 ∈ List.range 64 from List.mem_range.mpr (by decide))
    (fun i member => Nat.le_of_lt_succ (List.mem_range.mp member))
  obtain ⟨pinned, -, probed, exported⟩ := @judge_quietMachine auditArgs rfl
    file none pairs.msgs (activeObserve cheat auditArgs.mode
      quietMachine.initNonce pairs.msgs (List.range 64)) onlyReference drain
  have judged := valid.mpr ⟨pinned, probed, exported⟩
  dsimp only [flushed, cheat]
  exact ⟨⟨file, drain, judged⟩, cursor, pushed⟩

end Verdict

end MatchingBench.Cheats.QueryDrain
