import MatchingBench.Oracles.CppOrderbookRefinement
import MatchingBench.Oracles.HroptatyrClobRefinement
import MatchingBench.Oracles.LadderCores
import MatchingBench.Oracles.Llc993Refinement

/-!
# The three oracle adapters agree

All three adapters refine the same reference matcher, as long as the shadows of
hroptatyr/clob and cpp-orderbook can be sized for the orders that may rest.  An
order beyond that makes one of them loop forever and the other throw.
-/

set_option autoImplicit false

namespace MatchingBench.Oracles.Agreement

open MatchingBench.Api
open MatchingBench.Adapters
open MatchingBench.Correctness
open MatchingBench.Lib.PriceTime
open MatchingBench.Lib.OrderBook
open MatchingBench.Lib.Ladders
open MatchingBench.Lib.Runs
open MatchingBench.Lib.Tables
open MatchingBench.Reference

/-! ## Agreement -/

/-- The reports of the three adapters have one canonical text. -/
structure SameTexts (cpp clob llc : List Report) : Prop where
  clob_eq :
    (buildCanonicalText (clob.map collect)).1 =
      (buildCanonicalText (cpp.map collect)).1
  llc_eq :
    (buildCanonicalText (llc.map collect)).1 =
      (buildCanonicalText (cpp.map collect)).1

section Queries

variable {cppCore : CppOrderbook.Core} {clobCore : HroptatyrClob.Core}
  {llcCore : Llc993.Core}

/-- The three adapters answer every query alike. -/
structure SameAnswers
    (cpp : CppOrderbook.State cppCore) (clob : HroptatyrClob.State clobCore)
    (llc : llcCore.State) : Prop where
  bestBid :
    HroptatyrClob.engineQueryBestBid clob =
        CppOrderbook.engineQueryBestBid cpp ∧
      Llc993.engineQueryBestBid llc = CppOrderbook.engineQueryBestBid cpp
  bestAsk :
    HroptatyrClob.engineQueryBestAsk clob =
        CppOrderbook.engineQueryBestAsk cpp ∧
      Llc993.engineQueryBestAsk llc = CppOrderbook.engineQueryBestAsk cpp
  depthAt : ∀ price side,
    HroptatyrClob.engineQueryDepthAt clob price side =
        CppOrderbook.engineQueryDepthAt cpp price side ∧
      Llc993.engineQueryDepthAt llc price side =
        some (CppOrderbook.engineQueryDepthAt cpp price side)

end Queries

/--
On every contract-legal workload whose orders that may rest have identifiers
below `2 ^ 57`, all three adapters run without a fault.  After every message
their reports have the same canonical text; the shadow of cpp-orderbook echoes
the resting orders' sides and prices; hroptatyr/clob has the resting orders
live, and their handles rest in its engine; and while the book is within its
bounds the queries have the same answers and the parsed dump has every level.
The shadow of hroptatyr/clob may have been sized for any messages beforehand.
-/
theorem oracles_agree
    {cppCore : CppOrderbook.Core}
    {cppLadders : cppCore.State → Sides UInt64 Nat}
    (cppCorrect : cppCore.Correct cppLadders)
    {clobCore : HroptatyrClob.Core}
    {clobLadders : clobCore.State → Sides HroptatyrClob.Oid Int}
    (clobCorrect : clobCore.Correct clobLadders)
    {llcCore : Llc993.Core}
    {llcLadders : llcCore.State → Sides UInt64 Int64}
    (llcCorrect : llcCore.Correct llcLadders)
    (msgs : List Msg) (legal : LegalRun TickPrice msgs)
    (ids : GtcIds (2 ^ 57) msgs)
    (passed : List Msg) (start : HroptatyrClob.State clobCore)
    (prebuilt :
      HroptatyrClob.prebuildAll (HroptatyrClob.engineInit clobCore) passed =
        some start)
    (front : List Msg) (reached : front <+: msgs) :
    ∃ cpp cppReports clob clobReports llc llcReports,
      run CppOrderbook.step (CppOrderbook.engineInit cppCore) front =
          some (cpp, cppReports) ∧
        run HroptatyrClob.step start front = some (clob, clobReports) ∧
        run (fun st m => some (Llc993.step st m)) llcCore.init front =
          some (llc, llcReports) ∧
        SameTexts cppReports clobReports llcReports ∧
        (bookAfter front).All (CppOrderbookRefinement.Echoed cpp.shadow) ∧
        (∀ id, HroptatyrClobRefinement.isLive clob.shadow id =
          ((bookAfter front).lookup id).isSome) ∧
        (∀ id s, HroptatyrClob.liveSlot clob.shadow id = some s →
          Rests (clobLadders clob.book) s.oid) ∧
        (Bounded (bookAfter front) →
          SameAnswers cpp clob llc ∧
            ∀ side,
              BookDump.parseLevels side (cppCore.toString cpp.book) =
                wireLevels (bookAfter front) (sideOf side)) := by
  rcases reached with ⟨back, rfl⟩
  obtain ⟨cpp, cppReports, cppRan, cppSimulates, cppSame⟩ :=
    (CppOrderbookRefinement.step_forward cppCorrect).run
      (CppOrderbookRefinement.simulates_init cppCorrect
        (ids.mono (by decide))) legal
  obtain ⟨clob, clobReports, clobRan, clobSimulates, clobSame⟩ :=
    (HroptatyrClobRefinement.step_forward clobCorrect).run
      (HroptatyrClobRefinement.simulates_prebuilt clobCorrect prebuilt ids)
      legal
  obtain ⟨llc, llcReports, llcRan, llcMirrors, llcSame⟩ :=
    (Llc993Refinement.step_forward llcCorrect).run
      (Llc993Refinement.mirrors_init llcCorrect) legal
  refine ⟨cpp, cppReports, clob, clobReports, llc, llcReports, cppRan,
    clobRan, llcRan, ⟨?_, ?_⟩, cppSimulates.echoed, clobSimulates.holds.alive,
    fun _ _ => clobSimulates.holds.handle_rests, fun bounded => ⟨?_, ?_⟩⟩
  · exact (sameCanonical_iff_text_eq _ _).mp (clobSame.trans cppSame.symm).1
  · exact (sameCanonical_iff_text_eq _ _).mp (llcSame.trans cppSame.symm).1
  · have bid := CppOrderbookRefinement.queryBestBid_eq cppCorrect cppSimulates
      bounded
    have ask := CppOrderbookRefinement.queryBestAsk_eq cppCorrect cppSimulates
      bounded
    have depth := CppOrderbookRefinement.queryDepthAt_eq cppCorrect
      cppSimulates bounded
    refine ⟨?_, ?_, fun price side => ?_⟩
    · rw [bid]
      exact ⟨HroptatyrClobRefinement.queryBestBid_eq clobCorrect
          clobSimulates.holds bounded,
        Llc993Refinement.queryBestBid_eq llcCorrect llcMirrors bounded⟩
    · rw [ask]
      exact ⟨HroptatyrClobRefinement.queryBestAsk_eq clobCorrect
          clobSimulates.holds bounded,
        Llc993Refinement.queryBestAsk_eq llcCorrect llcMirrors bounded⟩
    · rw [depth]
      exact ⟨HroptatyrClobRefinement.queryDepthAt_eq clobCorrect
          clobSimulates.holds bounded price side,
        Llc993Refinement.queryDepthAt_eq llcCorrect llcMirrors bounded price
          side⟩
  · intro side
    exact (CppOrderbookRefinement.parseLevels_eq cppCorrect cppSimulates
      bounded side).1

/--
Makers on both sides, an IOC order with a residue, a partial fill, a crossing
modify, a reused identifier, and a stale cancel and modify.
-/
def mixedWorkload : List Msg :=
  [.newOrder { orderId := 1, sequenceNumber := 1, priceTicks := 100
               quantity := 5, side := 1, ioc := 0 },
   .newOrder { orderId := 2, sequenceNumber := 2, priceTicks := 98
               quantity := 4, side := 0, ioc := 0 },
   .newOrder { orderId := 3, sequenceNumber := 3, priceTicks := 101
               quantity := 9, side := 0, ioc := 1 },
   .newOrder { orderId := 1, sequenceNumber := 4, priceTicks := 99
               quantity := 3, side := 1, ioc := 0 },
   .modify { orderId := 2, sequenceNumber := 5, newPriceTicks := 99
             newQuantity := 2, side := 0 },
   .cancel { orderId := 18446744073709551615, sequenceNumber := 6 },
   .modify { orderId := 2, sequenceNumber := 7, newPriceTicks := 97
             newQuantity := 1, side := 1 }]

theorem oracles_agree_mixedWorkload :
    ∃ cpp cppReports clob clobReports llc llcReports,
      run CppOrderbook.step (CppOrderbook.engineInit LadderCores.cppOrderbook)
          mixedWorkload = some (cpp, cppReports) ∧
        run HroptatyrClob.step
            (HroptatyrClob.engineInit LadderCores.hroptatyrClob)
            mixedWorkload = some (clob, clobReports) ∧
        run (fun st m => some (Llc993.step st m)) LadderCores.llc993.init
            mixedWorkload = some (llc, llcReports) ∧
        SameTexts cppReports clobReports llcReports ∧
        SameAnswers cpp clob llc := by
  have bounded : Bounded (bookAfter mixedWorkload) :=
    ⟨fun side => by cases side <;> decide,
      fun side => by cases side <;> decide⟩
  obtain ⟨cpp, cppReports, clob, clobReports, llc, llcReports, cppRan,
    clobRan, llcRan, texts, _, _, _, answers⟩ :=
    oracles_agree LadderCores.cppOrderbook_correct
      LadderCores.hroptatyrClob_correct LadderCores.llc993_correct
      mixedWorkload (by decide)
      (fun o member _ => by
        simp only [mixedWorkload, List.mem_cons, Msg.newOrder.injEq,
          reduceCtorEq, List.not_mem_nil, or_false] at member
        rcases member with rfl | rfl | rfl | rfl <;> decide)
      [] (HroptatyrClob.engineInit LadderCores.hroptatyrClob) rfl
      mixedWorkload (List.prefix_refl mixedWorkload)
  exact ⟨cpp, cppReports, clob, clobReports, llc, llcReports, cppRan, clobRan,
    llcRan, texts, (answers bounded).1⟩

/-! ## Orders that cannot be sized for -/

/-- Powers of two do not pass an identifier of `2 ^ 63` or more. -/
theorem doubled_two_pow
    (fuel exponent : Nat) {id : UInt64} (large : 2 ^ 63 ≤ id.toNat) :
    HroptatyrClob.doubled fuel (UInt64.ofNat (2 ^ exponent)) id = none := by
  induction fuel generalizing exponent with
  | zero => rfl
  | succ fuel induction =>
      have below : UInt64.ofNat (2 ^ exponent) ≤ id := by
        rw [UInt64.le_iff_toNat_le, UInt64.toNat_ofNat']
        rcases Nat.lt_or_ge exponent 64 with few | many
        · have power : 2 ^ exponent ≤ 2 ^ 63 :=
            Nat.pow_le_pow_right (by decide) (Nat.le_of_lt_succ few)
          exact (Nat.mod_le _ _).trans (power.trans large)
        · rw [Nat.mod_eq_zero_of_dvd (Nat.pow_dvd_pow 2 many)]
          exact Nat.zero_le _
      have twice :
          UInt64.ofNat (2 ^ exponent) * 2 =
            UInt64.ofNat (2 ^ (exponent + 1)) := by
        rw [Nat.pow_succ, UInt64.ofNat_mul]
        rfl
      rw [HroptatyrClob.doubled, if_pos below, twice]
      exact induction (exponent + 1)

/-- The initial shadow cannot be sized for such an identifier. -/
theorem shadowEnsure_initial
    (bytes : UInt64) {id : UInt64} (large : 2 ^ 63 ≤ id.toNat) :
    HroptatyrClob.shadowEnsure bytes
      (resize [] (2 ^ 21) HroptatyrClob.zeroShadow) id = none := by
  unfold HroptatyrClob.shadowEnsure
  rw [length_resize, if_neg (by omega)]
  dsimp only
  rw [if_pos (by decide),
    show UInt64.ofNat (2 ^ 21) * 2 = UInt64.ofNat (2 ^ 22) by decide,
    doubled_two_pow 65 22 large]
  rfl

/-- A first order that would rest with such an identifier is never handled. -/
theorem first_order_diverges
    {core : HroptatyrClob.Core}
    {ladders : core.State → Sides HroptatyrClob.Oid Int}
    (correct : core.Correct ladders) {o : NewOrder}
    (large : 2 ^ 63 ≤ o.orderId.toNat) (limit : o.ioc = 0)
    (positive : 1 ≤ o.quantity.toNat) (permitted : TickPrice o.priceTicks) :
    HroptatyrClob.step (HroptatyrClob.engineInit core) (.newOrder o) =
      none := by
  have initial :=
    @HroptatyrClobRefinement.simulates_prebuilt core ladders correct [] []
      (HroptatyrClob.engineInit core) rfl (fun _ member => nomatch member)
  have crossed := @HroptatyrClobRefinement.Holds.crossed core ladders _ _
    correct initial.holds (submittedOrder o) rfl o.quantity rfl positive
    permitted o.sequenceNumber o.side
  have few := o.quantity.toNat_lt
  have unfilled :
      ¬HroptatyrClob.toI64
        (HroptatyrClob.Qty.total { dis := o.quantity.toNat, hid := 0 }) ≤
          0 := by
    rw [HroptatyrClob.Qty.total, Int.add_zero,
      HroptatyrClobRefinement.toI64_nonpos_iff (by omega)]
    omega
  have rem :
      (core.unxsOrder (HroptatyrClob.engineInit core).book
        (HroptatyrClob.crossingOrder o.orderId o.side o.priceTicks
          o.quantity)).2.1 =
      { sid := sideOf o.side
        qty := { dis := o.quantity.toNat, hid := 0 }
        lmt := o.priceTicks.toInt
        usr := o.orderId } := crossed.rem
  have drained :
      HroptatyrClob.drainExecutions o.sequenceNumber o.orderId
        (HroptatyrClob.engineInit core).shadow
        (core.unxsOrder (HroptatyrClob.engineInit core).book
          (HroptatyrClob.crossingOrder o.orderId o.side o.priceTicks
            o.quantity)).2.2 =
      ((HroptatyrClob.engineInit core).shadow, []) := crossed.drained
  unfold HroptatyrClob.step HroptatyrClob.engineOnNewOrder
    HroptatyrClob.crossAndRest
  dsimp only
  rw [drained, rem]
  dsimp only
  have unsized :
      HroptatyrClob.shadowEnsure core.sizeofShadow
        (HroptatyrClob.engineInit core).shadow o.orderId = none :=
    shadowEnsure_initial core.sizeofShadow large
  rw [if_neg unfilled, if_neg (not_not_intro limit), unsized]
  rfl

/-- A first order that would rest with such an identifier ends in a throw. -/
theorem first_order_throws
    {core : CppOrderbook.Core} {ladders : core.State → Sides UInt64 Nat}
    (correct : core.Correct ladders) {o : NewOrder}
    (large : CppOrderbook.maxSize ≤ o.orderId.toNat) (limit : o.ioc = 0)
    (positive : 1 ≤ o.quantity.toNat) (permitted : TickPrice o.priceTicks) :
    CppOrderbook.step (CppOrderbook.engineInit core) (.newOrder o) = none := by
  have most : CppOrderbook.maxSize = 2 ^ 59 - 1 := by decide
  have few := o.quantity.toNat_lt
  have ticks := (CppOrderbookRefinement.toDecPrice_ticks permitted).2
  have low := permitted.1
  have someQty : 0 < CppOrderbook.toDecQty o.quantity := by
    rw [UInt64.lt_iff_toNat_lt, UInt64.toNat_zero,
      CppOrderbookRefinement.toDecQty_toNat]
    exact Nat.mul_pos (by decide) positive
  have somePrice : 0 < CppOrderbook.toDecPrice o.priceTicks := by
    rw [UInt64.lt_iff_toNat_lt, UInt64.toNat_zero]
    rw [CppOrderbook.scale] at ticks
    omega
  have empty : ¬Rests (ladders core.init) o.orderId := by
    rw [correct.ladders_init]
    rintro ⟨_, _, member, _⟩
    cases member
  have events := (correct.addOrder core.init o.orderId
    (if o.side = 0 then Side.buy else Side.sell)
    (CppOrderbook.toDecQty o.quantity) (CppOrderbook.toDecPrice o.priceTicks)
    (if o.ioc ≠ 0 then CppOrderbook.Flag.ioC else CppOrderbook.Flag.none)
    empty someQty somePrice).2
  rw [correct.ladders_init] at events
  have unsized : CppOrderbook.shadowSlot
      (CppOrderbook.engineInit core).shadow o.orderId = none := by
    have room : (CppOrderbook.engineInit core).shadow.length = 2 ^ 22 :=
      length_resize _ _ _
    have word := o.orderId.toNat_lt
    rw [CppOrderbook.shadowSlot, if_pos (by omega)]
    dsimp only
    rw [if_pos]
    rw [UInt64.toNat_add, UInt64.toNat_one]
    omega
  have added : CppOrderbook.addOrder (CppOrderbook.engineInit core)
      o.sequenceNumber o.orderId
      (if o.side = 0 then Side.buy else Side.sell) o.quantity o.priceTicks
      (if o.ioc ≠ 0 then CppOrderbook.Flag.ioC else CppOrderbook.Flag.none) =
        some
          ((core.addOrder core.init o.orderId
            (if o.side = 0 then Side.buy else Side.sell)
            (CppOrderbook.toDecQty o.quantity)
            (CppOrderbook.toDecPrice o.priceTicks)
            (if o.ioc ≠ 0 then CppOrderbook.Flag.ioC
              else CppOrderbook.Flag.none)).1,
            CppOrderbook.startCall (CppOrderbook.engineInit core).shadow) := by
    unfold CppOrderbook.addOrder
    dsimp only
    rw [show (CppOrderbook.engineInit core).book = core.init from rfl, events]
    rfl
  unfold CppOrderbook.step CppOrderbook.onNewOrder
  dsimp only
  rw [added, Option.bind_some, if_neg (not_not_intro limit),
    CppOrderbook.writeSlot, CppOrderbook.startCall]
  dsimp only
  rw [unsized]
  rfl

/-- An order to buy whose identifier is the first such. -/
def unsizedOrder : NewOrder where
  orderId := UInt64.ofNat (2 ^ 63)
  sequenceNumber := 1
  priceTicks := 1
  quantity := 1
  side := 0
  ioc := 0

/--
That order is legal and leaves a small book.  The loop that sizes the shadow of
hroptatyr/clob for it does not end after any number of iterations, and so
neither does its handler; cpp-orderbook throws; llc993 pushes a report.
-/
theorem oracles_disagree_unsizedOrder :
    LegalRun TickPrice [.newOrder unsizedOrder] ∧
      Bounded (bookAfter [.newOrder unsizedOrder]) ∧
      (∀ fuel, HroptatyrClob.doubled fuel (UInt64.ofNat (2 ^ 22))
        unsizedOrder.orderId = none) ∧
      run HroptatyrClob.step
          (HroptatyrClob.engineInit LadderCores.hroptatyrClob)
          [.newOrder unsizedOrder] = none ∧
      run CppOrderbook.step (CppOrderbook.engineInit LadderCores.cppOrderbook)
          [.newOrder unsizedOrder] = none ∧
      ∃ llc llcReports,
        run (fun st m => some (Llc993.step st m)) LadderCores.llc993.init
            [.newOrder unsizedOrder] = some (llc, llcReports) ∧
          SameReports llcReports (reportsOf [.newOrder unsizedOrder]) := by
  have legal : LegalRun TickPrice ([.newOrder unsizedOrder] ++ []) := by
    decide
  have large : 2 ^ 63 ≤ unsizedOrder.orderId.toNat := by decide
  have bounded : Bounded (bookAfter [.newOrder unsizedOrder]) :=
    ⟨fun side => by cases side <;> decide,
      fun side => by cases side <;> decide⟩
  refine ⟨legal, bounded, fun fuel => doubled_two_pow fuel 22 large, ?_, ?_,
    ?_⟩
  · rw [run, first_order_diverges LadderCores.hroptatyrClob_correct large rfl
      (by decide) (by decide)]
    rfl
  · rw [run, first_order_throws LadderCores.cppOrderbook_correct (by decide)
      rfl (by decide) (by decide)]
    rfl
  · obtain ⟨llc, llcReports, llcRan, _, llcSame⟩ :=
      (Llc993Refinement.step_forward LadderCores.llc993_correct).run
        (Llc993Refinement.mirrors_init LadderCores.llc993_correct) legal
    exact ⟨llc, llcReports, llcRan, llcSame⟩

end MatchingBench.Oracles.Agreement
