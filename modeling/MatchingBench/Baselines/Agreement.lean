import MatchingBench.Baselines.LadderCores
import MatchingBench.Baselines.LiquibookRefinement
import MatchingBench.Baselines.QuantCupRefinement

/-!
# The baseline adapters agree

Both baselines refine the same reference matcher, so a workload that both can
prebuild gets the same answers from them.
-/

set_option autoImplicit false

namespace MatchingBench.Baselines.Agreement

open MatchingBench.Api
open MatchingBench.Adapters
open MatchingBench.Correctness
open MatchingBench.Lib.PriceTime
open MatchingBench.Lib.Ladders
open MatchingBench.Lib.Runs
open MatchingBench.Reference

/-- QuantCup's prices fit every width of `lb::Price` that is assumed. -/
theorem qcPrice_fits : LiquibookRefinement.Fits QuantCup.QcPrice := by
  rintro price ⟨low, high⟩
  rw [QuantCup.kNumPricePoints] at high
  exact ⟨low, by omega⟩

/--
On every contract-legal workload that is first prebuilt and then dispatched in
the same order, both adapters run without a fault, and after every message
their reports have the same canonical text and the three queries the same
answers.  A depth query names a side of the API, 0 or 1, and a price that
`lb::Price` can represent; with 64 bits every price of the API is one.
-/
theorem baselines_agree
    {quantCup : QuantCup.Core} {kMaxNumOrders : Nat}
    {qcLadders : quantCup.State → Sides (Nat × QuantCup.Field) Nat}
    {calls : quantCup.State → Nat}
    (qcCorrect : quantCup.Correct kMaxNumOrders qcLadders calls)
    {liquibook : Liquibook.Core}
    {lbLadders : liquibook.State → Sides Nat Nat}
    (lbCorrect : liquibook.Correct lbLadders)
    (msgs : List Msg) (legal : LegalRun QuantCup.QcPrice msgs)
    (ids : NewIds (2 ^ 32) msgs) (fits : orderCount msgs < kMaxNumOrders)
    (front : List Msg) (reached : front <+: msgs) :
    ∃ built qc qcReports lb lbReports,
      QuantCup.prebuildAll kMaxNumOrders (QuantCup.engineInit quantCup) msgs =
          some built ∧
        run QuantCup.step built front = some (qc, qcReports) ∧
        run Liquibook.step
            (Liquibook.prebuildAll (Liquibook.engineInit liquibook) msgs)
            front =
          some (lb, lbReports) ∧
        (buildCanonicalText (qcReports.map collect)).1 =
          (buildCanonicalText (lbReports.map collect)).1 ∧
        QuantCup.engineQueryBestBid qc = Liquibook.engineQueryBestBid lb ∧
        QuantCup.engineQueryBestAsk qc = Liquibook.engineQueryBestAsk lb ∧
        ∀ price side, side = 0 ∨ side = 1 →
          LiquibookRefinement.Representable liquibook.priceBits price →
            QuantCup.engineQueryDepthAt qc price side =
              Liquibook.engineQueryDepthAt lb price side := by
  rcases reached with ⟨back, rfl⟩
  obtain ⟨built, prebuilt, qcInitial⟩ :=
    QuantCupRefinement.simulates_prebuilt qcCorrect
      (fun _ member => legal.newOrder_allowed member) ids fits
  obtain ⟨qc, qcReports, qcRan, qcSimulates, qcSame⟩ :=
    (QuantCupRefinement.step_forward qcCorrect).run qcInitial legal
  obtain ⟨lb, lbReports, lbRan, lbSimulates, lbSame⟩ :=
    (LiquibookRefinement.step_forward lbCorrect qcPrice_fits).run
      (LiquibookRefinement.simulates_prebuilt lbCorrect
        (ids.mono (by decide))) legal
  refine ⟨built, qc, qcReports, lb, lbReports, prebuilt, qcRan, lbRan,
    ?_, ?_, ?_, ?_⟩
  · have same := qcSame.trans lbSame.symm
    exact (sameCanonical_iff_text_eq _ _).mp same.1
  · exact (qcSimulates.bestBid_eq).trans
      (LiquibookRefinement.queryBestBid_eq lbCorrect lbSimulates).symm
  · exact (qcSimulates.bestAsk_eq).trans
      (LiquibookRefinement.queryBestAsk_eq lbCorrect lbSimulates).symm
  · intro price side valid representable
    exact (qcSimulates.depthAt_eq price valid).trans
      (LiquibookRefinement.queryDepthAt_eq lbCorrect qcPrice_fits lbSimulates
        representable side).symm

/--
Makers at two prices, an IOC order with a residue, a crossing modify, a stale
cancel, a stale modify and a reused identifier.
-/
def mixedWorkload : List Msg :=
  [.newOrder { orderId := 1, sequenceNumber := 1, priceTicks := 100
               quantity := 5, side := 1, ioc := 0 },
   .newOrder { orderId := 2, sequenceNumber := 2, priceTicks := 99
               quantity := 2, side := 1, ioc := 0 },
   .newOrder { orderId := 3, sequenceNumber := 3, priceTicks := 100
               quantity := 9, side := 0, ioc := 1 },
   .newOrder { orderId := 4, sequenceNumber := 4, priceTicks := 98
               quantity := 4, side := 0, ioc := 0 },
   .newOrder { orderId := 1, sequenceNumber := 5, priceTicks := 101
               quantity := 3, side := 1, ioc := 0 },
   .modify { orderId := 4, sequenceNumber := 6, newPriceTicks := 101
             newQuantity := 5, side := 0 },
   .cancel { orderId := 2, sequenceNumber := 7 },
   .modify { orderId := 2, sequenceNumber := 8, newPriceTicks := 97
             newQuantity := 1, side := 1 }]

theorem baselines_agree_mixedWorkload :
    ∃ built qc qcReports lb lbReports,
      QuantCup.prebuildAll 10 (QuantCup.engineInit LadderCores.quantCup)
          mixedWorkload = some built ∧
        run QuantCup.step built mixedWorkload = some (qc, qcReports) ∧
        run Liquibook.step
            (Liquibook.prebuildAll (Liquibook.engineInit LadderCores.liquibook)
              mixedWorkload)
            mixedWorkload = some (lb, lbReports) ∧
        QuantCup.engineQueryBestBid qc = Liquibook.engineQueryBestBid lb := by
  obtain ⟨built, qc, qcReports, lb, lbReports, prebuilt, qcRan, lbRan, _,
    bids, _⟩ :=
    baselines_agree (LadderCores.quantCup_correct 10)
      LadderCores.liquibook_correct mixedWorkload (by decide)
      (fun o member => by
        simp only [mixedWorkload, List.mem_cons, Msg.newOrder.injEq,
          reduceCtorEq, List.not_mem_nil, or_false] at member
        rcases member with rfl | rfl | rfl | rfl | rfl <;> decide)
      (by decide) mixedWorkload (List.prefix_refl mixedWorkload)
  exact ⟨built, qc, qcReports, lb, lbReports, prebuilt, qcRan, lbRan, bids⟩

end MatchingBench.Baselines.Agreement
