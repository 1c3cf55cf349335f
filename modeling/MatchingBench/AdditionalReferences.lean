import MatchingBench.Baselines.Validation
import MatchingBench.Oracles.Agreement
import MatchingBench.Workload.Bounds

/-!
# The additional references before the harness

The four engines of `additional_references/` that are modelled here, each as
the shared library that its adapter builds.  Their queries go through dumps and
iterators that only show a book of limited size, which no generated workload
exceeds.
-/

set_option autoImplicit false

namespace MatchingBench.AdditionalReferences

open MatchingBench.Api
open MatchingBench.Adapters
open MatchingBench.Baselines
open MatchingBench.Baselines.Validation
open MatchingBench.Lib.Draws
open MatchingBench.Lib.Ladders
open MatchingBench.Lib.OrderBook
open MatchingBench.Reference
open MatchingBench.Harness.Contract
open MatchingBench.Harness.Marshalling
open MatchingBench.Harness.SharedLibrary
open MatchingBench.Harness.Verdict
open MatchingBench.Oracles
open MatchingBench.Workload.Arrivals (tapeOf)
open MatchingBench.Workload.Bounds
open MatchingBench.Workload.File
open MatchingBench.Workload.Generator (Numerics Request Uniform generate)
open MatchingBench.Workload.Loaded
open MatchingBench.Workload.Structure (steady twoSides meeting)

/-! ## The four libraries -/

/-- `pgellert_adapter.so`. -/
def pgellertLibrary : Library Pgellert.Adapter.State where
  init := Pgellert.Adapter.State.init
  prebuild st _ := some st
  step := Pgellert.Adapter.step
  bestBid := Pgellert.Adapter.engineQueryBestBid
  bestAsk := Pgellert.Adapter.engineQueryBestAsk
  depthAt := Pgellert.Adapter.engineQueryDepthAt

/-- `cpp_orderbook_adapter.so`. -/
def cppOrderbookLibrary (core : CppOrderbook.Core) :
    Library (CppOrderbook.State core) where
  init := CppOrderbook.engineInit core
  prebuild st _ := some st
  step := CppOrderbook.step
  bestBid := CppOrderbook.engineQueryBestBid
  bestAsk := CppOrderbook.engineQueryBestAsk
  depthAt := CppOrderbook.engineQueryDepthAt

/-- `hroptatyr_clob_adapter.so`. -/
def hroptatyrClobLibrary (core : HroptatyrClob.Core) :
    Library (HroptatyrClob.State core) where
  init := HroptatyrClob.engineInit core
  prebuild := HroptatyrClob.enginePrebuild
  step := HroptatyrClob.step
  bestBid := HroptatyrClob.engineQueryBestBid
  bestAsk := HroptatyrClob.engineQueryBestAsk
  depthAt := HroptatyrClob.engineQueryDepthAt

/-- `llc993_adapter.so`; a depth query past the volumes takes it down. -/
def llc993Library (core : Llc993.Core) : Library core.State where
  init := core.init
  prebuild book _ := some book
  step book m := some (Llc993.step book m)
  bestBid := Llc993.engineQueryBestBid
  bestAsk := Llc993.engineQueryBestAsk
  depthAt book price side :=
    (Llc993.engineQueryDepthAt book price side).getD 0

/-! ## Conformance -/

/-- Every book on the way stays within the bounds of the queries. -/
def BoundedRun (msgs : List Msg) : Prop :=
  ∀ front, front <+: msgs → Bounded (bookAfter front)

theorem BoundedRun.reached
    {msgs rest : List Msg} {book : LiveBook} (bounded : BoundedRun msgs)
    (reached : Reached msgs rest book) : Bounded book := by
  obtain ⟨front, split, rfl⟩ := reached
  exact bounded front ⟨rest, split⟩

section Conformance

variable {workload : Workload}

theorem pgellert_conforms
    (legal : LegalRun NonNegative
      (messagesOf workload.msgs)) :
    Conforms pgellertLibrary.bare workload.msgs :=
  (pgellertLibrary.drives_bare workload.msgs).conforms
    (fun _ _ _ _ simulates legal =>
      Pgellert.Refinement.step_simulates Pgellert.Refinement.signed_ticks
        simulates legal)
    legal Pgellert.Refinement.simulates_init
    fun _ _ _ simulates =>
      ⟨Pgellert.Refinement.queryBestBid_eq simulates,
        Pgellert.Refinement.queryBestAsk_eq simulates, fun m _ =>
          Pgellert.Refinement.queryDepthAt_eq simulates m.priceTicks m.side⟩

theorem cppOrderbook_conforms
    {core : CppOrderbook.Core} {ladders : core.State → Sides UInt64 Nat}
    (correct : core.Correct ladders)
    (legal : LegalRun TickPrice (messagesOf workload.msgs))
    (ids : GtcIds CppOrderbook.maxSize (messagesOf workload.msgs))
    (bounded : BoundedRun (messagesOf workload.msgs)) :
    Conforms (cppOrderbookLibrary core).batched workload.msgs :=
  ((cppOrderbookLibrary core).drives_batched workload.msgs).conforms
    ((CppOrderbookRefinement.step_forward correct).reached
      (messagesOf workload.msgs))
    legal
    ⟨CppOrderbookRefinement.simulates_init correct ids, [], rfl, rfl⟩
    fun _ _ _ ⟨simulates, reached⟩ =>
      have small := bounded.reached reached
      ⟨CppOrderbookRefinement.queryBestBid_eq correct simulates small,
        CppOrderbookRefinement.queryBestAsk_eq correct simulates small,
        fun m _ => CppOrderbookRefinement.queryDepthAt_eq correct simulates
          small m.priceTicks m.side⟩

theorem hroptatyrClob_conforms
    {core : HroptatyrClob.Core}
    {ladders : core.State → Sides HroptatyrClob.Oid Int}
    (correct : core.Correct ladders)
    (legal : LegalRun TickPrice (messagesOf workload.msgs))
    (ids : ∀ m ∈ messagesOf workload.msgs, m.orderId.toNat < 2 ^ 57)
    (bounded : BoundedRun (messagesOf workload.msgs)) :
    Conforms (hroptatyrClobLibrary core).engine workload.msgs := by
  obtain ⟨start, prebuilt⟩ := HroptatyrClobRefinement.prebuildAll_some correct
    ids (HroptatyrClob.engineInit core)
  have initial := HroptatyrClobRefinement.simulates_prebuilt correct prebuilt
    fun o member _ => ids _ member
  exact ((hroptatyrClobLibrary core).drives workload prebuilt).conforms
    ((HroptatyrClobRefinement.step_forward correct).reached
      (messagesOf workload.msgs))
    legal ⟨initial, [], rfl, rfl⟩
    fun _ _ _ ⟨simulates, reached⟩ =>
      have small := bounded.reached reached
      ⟨HroptatyrClobRefinement.queryBestBid_eq correct simulates.holds small,
        HroptatyrClobRefinement.queryBestAsk_eq correct simulates.holds small,
        fun m _ => HroptatyrClobRefinement.queryDepthAt_eq correct
          simulates.holds small m.priceTicks m.side⟩

theorem llc993_conforms
    {core : Llc993.Core} {ladders : core.State → Sides UInt64 Int64}
    (correct : core.Correct ladders)
    (legal : LegalRun TickPrice (messagesOf workload.msgs))
    (bounded : BoundedRun (messagesOf workload.msgs)) :
    Conforms (llc993Library core).bare workload.msgs :=
  ((llc993Library core).drives_bare workload.msgs).conforms
    ((Llc993Refinement.step_forward correct).reached
      (messagesOf workload.msgs))
    legal ⟨Llc993Refinement.mirrors_init correct, [], rfl, rfl⟩
    fun _ _ _ ⟨mirrors, reached⟩ =>
      have small := bounded.reached reached
      ⟨Llc993Refinement.queryBestBid_eq correct mirrors small,
        Llc993Refinement.queryBestAsk_eq correct mirrors small,
        fun m _ => congrArg (Option.getD · 0)
          (Llc993Refinement.queryDepthAt_eq correct mirrors small
            m.priceTicks m.side)⟩

end Conformance

/-! ## Generated workloads -/

/-- The engine conforms on the workload and is judged VALID on it. -/
structure Passes
    {σ : Type} (mt19937_64 : UInt64 → Nat → UInt64) (workload : Workload)
    (args : Args) (baselines : String → BaselineFile) (engine : Engine σ) :
    Prop where
  conforms : Conforms engine workload.msgs
  judged : JudgedValid mt19937_64 workload args baselines engine

/--
On every generated workload whose prices QuantCup can hold, once written and
loaded again, no book on the way has a level of `10 ^ 11` lots or more than
`2 ^ 20` levels, so that all four engines can show it.  They conform, each can
write the reference hash, and each is judged VALID against it, audited against
Liquibook.
-/
theorem references_validate
    {cpp : CppOrderbook.Core} {cppLadders : cpp.State → Sides UInt64 Nat}
    (cppCorrect : cpp.Correct cppLadders)
    {clob : HroptatyrClob.Core}
    {clobLadders : clob.State → Sides HroptatyrClob.Oid Int}
    (clobCorrect : clob.Correct clobLadders)
    {llc : Llc993.Core} {llcLadders : llc.State → Sides UInt64 Int64}
    (llcCorrect : llc.Correct llcLadders)
    {liquibook : Liquibook.Core} {lbLadders : liquibook.State → Sides Nat Nat}
    (lbCorrect : liquibook.Correct lbLadders)
    (num : Numerics) (request : Request) (stream : Nat → Uniform)
    (capped : ((generate num request).run stream).length ≤ workloadMax)
    (priced : ∀ m ∈ (generate num request).run stream,
      QuantCup.QcPrice m.priceTicks)
    (path : String) (mt19937_64 : UInt64 → Nat → UInt64) (args : Args)
    (verifying : args.writeReference = false)
    (named : args.engineName ≠ "liquibook")
    {baselines : String → BaselineFile}
    (lb : baselines "liquibook" = builtFrom (liquibookLibrary liquibook)) :
    ∃ workload,
      LoadedFrom ((generate num request).run stream) path workload ∧
        BoundedRun (messagesOf workload.msgs) ∧
        Passes mt19937_64 workload args baselines pgellertLibrary.bare ∧
        Passes mt19937_64 workload args baselines
          (cppOrderbookLibrary cpp).batched ∧
        Passes mt19937_64 workload args baselines
          (hroptatyrClobLibrary clob).engine ∧
        Passes mt19937_64 workload args baselines
          (llc993Library llc).bare := by
  obtain ⟨workload, loaded⟩ :=
    exists_loadedFrom num request stream capped path
  have legal {allowed : Int64 → Prop}
      (holds : ∀ price, QuantCup.QcPrice price → allowed price) :
      LegalRun allowed (messagesOf workload.msgs) :=
    loaded.messages ▸ legalRun_generated fun m member =>
      holds _ (priced m member)
  have ticks (price : Int64) (inside : QuantCup.QcPrice price) :
      TickPrice price := by
    have ⟨low, high⟩ := Agreement.qcPrice_fits price inside
    exact ⟨low, by omega⟩
  have nonneg (price : Int64) (inside : QuantCup.QcPrice price) :
      NonNegative price := by
    have low := inside.1
    unfold NonNegative
    omega
  have ids : ∀ m ∈ messagesOf workload.msgs, m.orderId.toNat < 2 ^ 57 := by
    rw [loaded.messages]
    exact fun m member => Nat.lt_of_le_of_lt ((ids_generated member).trans
      capped) (by decide)
  have bounded : BoundedRun (messagesOf workload.msgs) := by
    rw [loaded.messages]
    exact fun front reached =>
      bounded_generated (by decide) capped priced reached
  have lbConforms := liquibook_conforms lbCorrect (legal fun _ inside => inside)
    (fun o member => Nat.lt_trans (ids _ member) (by decide))
    fun m member => loaded_representable loaded lbCorrect.bits priced member
  have judged {σ : Type} {engine : Engine σ}
      (conforms : Conforms engine workload.msgs) :
      Passes mt19937_64 workload args baselines engine :=
    ⟨conforms, conforms.judgedValid lbConforms
      (by rw [baseName, if_neg (by simpa using named)]; exact lb) verifying⟩
  exact ⟨workload, loaded, bounded, judged (pgellert_conforms (legal nonneg)),
    judged (cppOrderbook_conforms cppCorrect (legal ticks)
      (fun o member _ => Nat.lt_trans (ids _ member) (by decide)) bounded),
    judged (hroptatyrClob_conforms clobCorrect (legal ticks) ids bounded),
    judged (llc993_conforms llcCorrect (legal ticks) bounded)⟩

/-- Two orders that trade; each engine is judged VALID against Liquibook. -/
theorem references_validate_meeting :
    ∃ workload, Met workload ∧
      meTrade ∈ (reportsOf (messagesOf workload.msgs)).map Report.type ∧
      (∃ file drain, (harnessMain (staticArgs "other") quietMachine file none
        workload.msgs pgellertLibrary.bare ladderBaselines [0, 1, 2, 3, 4]
        drain).valid = true) ∧
      (∃ file drain, (harnessMain (staticArgs "other") quietMachine file none
        workload.msgs
        (cppOrderbookLibrary Oracles.LadderCores.cppOrderbook).batched
        ladderBaselines [0, 1, 2, 3, 4] drain).valid = true) ∧
      (∃ file drain, (harnessMain (staticArgs "other") quietMachine file none
        workload.msgs
        (hroptatyrClobLibrary Oracles.LadderCores.hroptatyrClob).engine
        ladderBaselines [0, 1, 2, 3, 4] drain).valid = true) ∧
      ∃ file drain, (harnessMain (staticArgs "other") quietMachine file none
        workload.msgs (llc993Library Oracles.LadderCores.llc993).bare
        ladderBaselines [0, 1, 2, 3, 4] drain).valid = true := by
  obtain ⟨workload, met, -, pgellert, cpp, clob, llc⟩ := references_validate
    Oracles.LadderCores.cppOrderbook_correct
    Oracles.LadderCores.hroptatyrClob_correct
    Oracles.LadderCores.llc993_correct
    Baselines.LadderCores.liquibook_correct
    steady twoSides meeting (by decide +kernel) (by decide +kernel)
    "orders.bin" counting (staticArgs "other") rfl (by decide)
    (show ladderBaselines "liquibook" = _ from if_neg (by decide))
  -- the hash that each is held against is written by another of them
  exact ⟨workload, met, Met.trades met,
    Met.valid met pgellert.judged cpp.conforms,
    Met.valid met cpp.judged clob.conforms,
    Met.valid met clob.judged llc.conforms,
    Met.valid met llc.judged pgellert.conforms⟩

end MatchingBench.AdditionalReferences
