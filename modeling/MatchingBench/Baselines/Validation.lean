import MatchingBench.Baselines.Agreement
import MatchingBench.Harness.SharedLibrary
import MatchingBench.Workload.Loaded

/-!
# The baselines before the harness

The whole chain: the generator writes a workload, the harness loads it, one
baseline writes the reference hash, and either baseline is then run against it
and audited against the other.
-/

set_option autoImplicit false

namespace MatchingBench.Baselines.Validation

open MatchingBench.Api
open MatchingBench.Adapters
open MatchingBench.Lib.Draws
open MatchingBench.Lib.Ladders
open MatchingBench.Lib.OrderBook
open MatchingBench.Reference
open MatchingBench.Harness.Audit
open MatchingBench.Harness.Contract
open MatchingBench.Harness.Drainer
open MatchingBench.Harness.Marshalling
open MatchingBench.Harness.ReferenceHash
open MatchingBench.Harness.SharedLibrary
open MatchingBench.Harness.Verdict
open MatchingBench.Workload.Arrivals (tapeOf)
open MatchingBench.Workload.File
open MatchingBench.Workload.Generator (Numerics Request Uniform generate)
open MatchingBench.Workload.Loaded
open MatchingBench.Workload.Structure (steady twoSides meeting)

/-! ## The two libraries -/

/-- `liquibook_adapter.so`. -/
def liquibookLibrary (core : Liquibook.Core) :
    Library (Liquibook.State core) where
  init := Liquibook.engineInit core
  prebuild st m := some (Liquibook.enginePrebuild st m)
  step := Liquibook.step
  bestBid := Liquibook.engineQueryBestBid
  bestAsk := Liquibook.engineQueryBestAsk
  depthAt := Liquibook.engineQueryDepthAt

/-- `quantcup_adapter.so`. -/
def quantCupLibrary (core : QuantCup.Core) (kMaxNumOrders : Nat) :
    Library (QuantCup.State core) where
  init := QuantCup.engineInit core
  prebuild := QuantCup.enginePrebuild kMaxNumOrders
  step := QuantCup.step
  bestBid := QuantCup.engineQueryBestBid
  bestAsk := QuantCup.engineQueryBestAsk
  depthAt := QuantCup.engineQueryDepthAt

theorem liquibook_prebuildAll
    {core : Liquibook.Core} (msgs : List Msg) (st : Liquibook.State core) :
    (liquibookLibrary core).prebuildAll st msgs =
      some (Liquibook.prebuildAll st msgs) := by
  induction msgs generalizing st with
  | nil => rfl
  | cons m msgs induction => exact induction _

theorem quantCup_prebuildAll
    {core : QuantCup.Core} (kMaxNumOrders : Nat) (msgs : List Msg)
    (st : QuantCup.State core) :
    (quantCupLibrary core kMaxNumOrders).prebuildAll st msgs =
      QuantCup.prebuildAll kMaxNumOrders st msgs := by
  induction msgs generalizing st with
  | nil => rfl
  | cons m msgs induction =>
      rw [Library.prebuildAll, List.foldlM_cons, QuantCup.prebuildAll]
      exact bind_congr fun next => induction next

section Conformance

variable {workload : Workload}

theorem liquibook_conforms
    {core : Liquibook.Core} {ladders : core.State → Sides Nat Nat}
    (correct : core.Correct ladders)
    (legal : LegalRun QuantCup.QcPrice (messagesOf workload.msgs))
    (ids : NewIds (2 ^ 64 - 1) (messagesOf workload.msgs))
    (representable : ∀ m ∈ workload.msgs,
      LiquibookRefinement.Representable core.priceBits m.priceTicks) :
    Conforms (liquibookLibrary core).engine workload.msgs :=
  ((liquibookLibrary core).drives workload
      (liquibook_prebuildAll _ _)).conforms
    (LiquibookRefinement.step_forward correct Agreement.qcPrice_fits) legal
    (LiquibookRefinement.simulates_prebuilt correct ids)
    fun _ _ _ simulates =>
      ⟨LiquibookRefinement.queryBestBid_eq correct simulates,
        LiquibookRefinement.queryBestAsk_eq correct simulates,
        fun m member =>
          LiquibookRefinement.queryDepthAt_eq correct
            Agreement.qcPrice_fits simulates (representable m member) m.side⟩

theorem quantCup_conforms
    {core : QuantCup.Core} {kMaxNumOrders : Nat}
    {ladders : core.State → Sides (Nat × QuantCup.Field) Nat}
    {calls : core.State → Nat}
    (correct : core.Correct kMaxNumOrders ladders calls)
    (legal : LegalRun QuantCup.QcPrice (messagesOf workload.msgs))
    (ids : NewIds (2 ^ 32) (messagesOf workload.msgs))
    (room : orderCount (messagesOf workload.msgs) < kMaxNumOrders)
    (sided : ∀ m ∈ workload.msgs, m.side = 0 ∨ m.side = 1) :
    Conforms (quantCupLibrary core kMaxNumOrders).engine workload.msgs := by
  obtain ⟨built, prebuilt, initial⟩ :=
    QuantCupRefinement.simulates_prebuilt correct
      (fun _ member => legal.newOrder_allowed member) ids room
  have drives := (quantCupLibrary core kMaxNumOrders).drives workload
    ((quantCup_prebuildAll kMaxNumOrders _ _).trans prebuilt)
  exact drives.conforms (QuantCupRefinement.step_forward correct) legal
    initial
    fun _ _ _ simulates =>
      ⟨simulates.bestBid_eq, simulates.bestAsk_eq, fun m member =>
        simulates.depthAt_eq m.priceTicks (sided m member)⟩

end Conformance

/-- QuantCup's prices fit every width that `lb::Price` may have. -/
theorem representable_of_qcPrice
    {priceBits : Nat} (wide : 18 ≤ priceBits) {price : Int64}
    (allowed : QuantCup.QcPrice price) :
    LiquibookRefinement.Representable priceBits price := by
  have ⟨low, high⟩ := Agreement.qcPrice_fits _ allowed
  have power : (2 : Int) ^ 18 ≤ 2 ^ priceBits := by
    exact_mod_cast Nat.pow_le_pow_right (by decide) wide
  exact Or.inr ⟨by omega, by omega⟩

theorem loaded_representable
    {msgs : List Workload.Generator.Msg} {path : String} {workload : Workload}
    (loaded : LoadedFrom msgs path workload) {priceBits : Nat}
    (wide : 18 ≤ priceBits)
    (priced : ∀ m ∈ msgs, QuantCup.QcPrice m.priceTicks) {m : WorkloadMsg}
    (member : m ∈ workload.msgs) :
    LiquibookRefinement.Representable priceBits m.priceTicks := by
  obtain ⟨g, inside, -, price⟩ := loaded.fields m member
  rw [price]
  exact representable_of_qcPrice wide (priced g inside)

/-! ## The chain -/

/-- A library that the harness can load as a baseline. -/
def builtFrom {σ : Type} (lib : Library σ) : BaselineFile :=
  .loads lib.engine.toEngineLib

/--
On every generated workload whose prices QuantCup can hold and whose orders
fit its arena, once written and loaded again, both baselines conform: either
can write the reference hash, and each is judged VALID against it, audited
against the other.
-/
theorem baselines_validate
    {quantCup : QuantCup.Core} {kMaxNumOrders : Nat}
    {qcLadders : quantCup.State → Sides (Nat × QuantCup.Field) Nat}
    {calls : quantCup.State → Nat}
    (qcCorrect : quantCup.Correct kMaxNumOrders qcLadders calls)
    {liquibook : Liquibook.Core}
    {lbLadders : liquibook.State → Sides Nat Nat}
    (lbCorrect : liquibook.Correct lbLadders)
    (num : Numerics) (request : Request) (stream : Nat → Uniform)
    (capped : ((generate num request).run stream).length ≤ workloadMax)
    (room : orderCount (tapeOf ((generate num request).run stream)) <
      kMaxNumOrders)
    (priced : ∀ m ∈ (generate num request).run stream,
      QuantCup.QcPrice m.priceTicks)
    (path : String) (mt19937_64 : UInt64 → Nat → UInt64) (args : Args)
    (verifying : args.writeReference = false)
    {baselines : String → BaselineFile}
    (lb : baselines "liquibook" = builtFrom (liquibookLibrary liquibook))
    (qc : baselines "quantcup" =
      builtFrom (quantCupLibrary quantCup kMaxNumOrders)) :
    ∃ workload,
      LoadedFrom ((generate num request).run stream) path workload ∧
        Conforms (liquibookLibrary liquibook).engine workload.msgs ∧
        Conforms (quantCupLibrary quantCup kMaxNumOrders).engine
          workload.msgs ∧
        (args.engineName = "liquibook" →
          JudgedValid mt19937_64 workload args baselines
            (liquibookLibrary liquibook).engine) ∧
        (args.engineName = "quantcup" →
          JudgedValid mt19937_64 workload args baselines
            (quantCupLibrary quantCup kMaxNumOrders).engine) := by
  obtain ⟨workload, loaded⟩ :=
    exists_loadedFrom num request stream capped path
  have ids : NewIds (2 ^ 32) (messagesOf workload.msgs) :=
    loaded.messages ▸ newIds_generated (Nat.lt_of_le_of_lt capped (by decide))
  have legal : LegalRun QuantCup.QcPrice (messagesOf workload.msgs) :=
    loaded.messages ▸ legalRun_generated priced
  have sided (m : WorkloadMsg) (member : m ∈ workload.msgs) :
      m.side = 0 ∨ m.side = 1 := by
    obtain ⟨g, inside, side, -⟩ := loaded.fields m member
    rw [side]
    exact (generated_wellFormed num request stream inside).sided
  have lbConforms := liquibook_conforms lbCorrect legal
    (ids.mono (by decide))
    fun m member => loaded_representable loaded lbCorrect.bits priced member
  have qcConforms := quantCup_conforms qcCorrect legal ids
    (loaded.messages ▸ room) sided
  refine ⟨workload, loaded, lbConforms, qcConforms, fun name => ?_,
    fun name => ?_⟩
  · exact lbConforms.judgedValid qcConforms (by rw [name]; exact qc)
      verifying
  · exact qcConforms.judgedValid lbConforms (by rw [name]; exact lb)
      verifying

/-- The two libraries over engines that are their ladders. -/
def ladderBaselines (name : String) : BaselineFile :=
  if name = "quantcup" then builtFrom (quantCupLibrary LadderCores.quantCup 10)
  else builtFrom (liquibookLibrary LadderCores.liquibook)

/-! ## Two orders that meet -/

/-- The audit of an engine in the static scenario. -/
def staticArgs (engineName : String) : Args where
  engineName := engineName
  scenario := ⟨"static".toList, by decide⟩
  seed := 23
  count := 2
  mode := .audit
  writeReference := false
  canonicalOutput := false
  exclusive := not_writing

/-- A load of the two orders that meet. -/
def Met (workload : Workload) : Prop :=
  LoadedFrom ((generate steady twoSides).run meeting) "orders.bin" workload

section Met

variable {σ υ : Type} {workload : Workload} (met : Met workload)
include met

/-- They trade. -/
theorem Met.trades :
    meTrade ∈ (reportsOf (messagesOf workload.msgs)).map Report.type := by
  rw [met.messages]
  decide +kernel

/-- All of their messages are picked. -/
theorem Met.picked :
    Picked counting quietMachine workload.msgs [0, 1, 2, 3, 4] := by
  have length := congrArg List.length met.messages
  have five : ((generate steady twoSides).run meeting).length = 5 := by
    decide +kernel
  rw [messagesOf, List.length_map, tapeOf, List.length_mapIdx, five] at length
  exact ⟨5, by rw [length]; decide⟩

/-- An engine that nothing but the measurement can gate is found VALID. -/
theorem Met.valid
    {engineName : String} {baselines : String → BaselineFile}
    {engine : Engine σ}
    (judged : JudgedValid counting workload (staticArgs engineName) baselines
      engine)
    {writer : Engine υ} (conforms : Conforms writer workload.msgs) :
    ∃ file drain, (harnessMain (staticArgs engineName) quietMachine file none
      workload.msgs engine baselines [0, 1, 2, 3, 4] drain).valid = true :=
  judged.exists_run rfl
    ((readable_wantTag_iff ⟨"static".toList, by decide⟩ 23 2).mpr (by decide))
    conforms met.picked

end Met

/-- Each baseline is judged VALID against the hash and answers of the other. -/
theorem baselines_validate_meeting :
    (∃ workload, Met workload ∧
      ∃ file drain, (harnessMain (staticArgs "liquibook") quietMachine file
        none workload.msgs (liquibookLibrary LadderCores.liquibook).engine
        ladderBaselines [0, 1, 2, 3, 4] drain).valid = true) ∧
    ∃ workload, Met workload ∧
      meTrade ∈ (reportsOf (messagesOf workload.msgs)).map Report.type ∧
      ∃ file drain, (harnessMain (staticArgs "quantcup") quietMachine file
        none workload.msgs (quantCupLibrary LadderCores.quantCup 10).engine
        ladderBaselines [0, 1, 2, 3, 4] drain).valid = true := by
  have chain (engineName : String) := baselines_validate
    (LadderCores.quantCup_correct 10) LadderCores.liquibook_correct
    steady twoSides meeting (by decide +kernel) (by decide +kernel)
    (by decide +kernel) "orders.bin" counting (staticArgs engineName) rfl
    (show ladderBaselines "liquibook" = _ from if_neg (by decide))
    (show ladderBaselines "quantcup" = _ from if_pos rfl)
  constructor
  · obtain ⟨workload, met, -, qcConforms, judged, -⟩ := chain "liquibook"
    exact ⟨workload, met, Met.valid met (judged rfl) qcConforms⟩
  · obtain ⟨workload, met, lbConforms, -, -, judged⟩ := chain "quantcup"
    exact ⟨workload, met, Met.trades met,
      Met.valid met (judged rfl) lbConforms⟩

end MatchingBench.Baselines.Validation
