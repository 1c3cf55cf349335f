import MatchingBench.Baselines.ExchangeCoreBatch
import MatchingBench.Baselines.ExchangeCorePriceTime

/-!
# The two deliveries of the exchange-core adapter

The batch path against the per-message path: the same reports and the same
book for every run of messages, wherever the output buffer forces it to be
resumed.
-/

set_option autoImplicit false

namespace MatchingBench.Baselines.ExchangeCoreDelivery

open MatchingBench.Api
open MatchingBench.Lib.OrderBook (Book)
open MatchingBench.Lib.Runs
open MatchingBench.Baselines.ExchangeCore
open MatchingBench.Baselines.ExchangeCoreStage
open MatchingBench.Baselines.ExchangeCoreBatch
open MatchingBench.Baselines.ExchangeCorePriceTime

/-! ## The residual of an IOC order -/

theorem size_eq {evt : MatcherTradeEvent} (nonneg : 0 ≤ evt.size.toInt) :
    evt.size = Int64.ofNat evt.size.toInt.toNat := by
  have low := evt.size.toInt_lt
  apply Int64.toInt.inj
  rw [Int64.toInt_ofNat_of_lt (by omega), Int.toNat_of_nonneg nonneg]

/-- C++ adds up the sizes. -/
theorem foldl_staged
    {trades : List MatcherTradeEvent}
    (nonneg : ∀ evt ∈ trades, 0 ≤ evt.size.toInt)
    (small : total trades < 2 ^ 32) (start : Nat) :
    trades.foldl
        (fun filled evt => filled + evt.size.toInt32.toUInt32.toUInt64)
        (UInt64.ofNat start) =
      UInt64.ofNat (start + total trades) := by
  induction trades generalizing start with
  | nil => rfl
  | cons evt trades induction =>
      rw [List.forall_mem_cons] at nonneg
      rw [total, List.map_cons, List.sum_cons, ← total] at small ⊢
      have size :
          evt.size.toInt32.toUInt32.toUInt64 =
            UInt64.ofNat evt.size.toInt.toNat := by
        conv_lhs => rw [size_eq nonneg.1]
        rw [Int64.toInt32_ofNat', Int32.toUInt32_ofNat',
          UInt32.toUInt64_ofNat' (lt_of_le_of_lt (Nat.le_add_right _ _) small)]
      rw [List.foldl_cons, size, ← UInt64.ofNat_add,
        induction nonneg.2 (by omega), Nat.add_assoc]

/-- So does Java. -/
theorem foldl_batch
    {trades : List MatcherTradeEvent}
    (nonneg : ∀ evt ∈ trades, 0 ≤ evt.size.toInt) (start : Nat) :
    trades.foldl (fun filled evt => filled + evt.size) (Int64.ofNat start) =
      Int64.ofNat (start + total trades) := by
  induction trades generalizing start with
  | nil => rfl
  | cons evt trades induction =>
      rw [List.forall_mem_cons] at nonneg
      rw [total, List.map_cons, List.sum_cons, ← total]
      have size := size_eq nonneg.1
      rw [List.foldl_cons]
      conv_lhs => rw [size]
      rw [← Int64.ofNat_add, induction nonneg.2, Nat.add_assoc]

/-- A quantity below `2 ^ 31` keeps its value as a Java `int`. -/
theorem toInt_quantity
    {quantity : UInt32} (small : quantity.toNat < 2 ^ 31) :
    quantity.toInt32.toInt64.toInt = quantity.toNat := by
  calc
    quantity.toInt32.toInt64.toInt = quantity.toInt32.toInt :=
      Int32.toInt_toInt64 _
    _ = (UInt32.ofNat quantity.toNat).toInt32.toInt := by
      rw [UInt32.ofNat_toNat]
    _ = quantity.toNat := by
      rw [UInt32.toInt32_ofNat', Int32.toInt_ofNat_of_lt small]

/-- Both paths cancel the same residual. -/
theorem residual_eq
    {o : NewOrder} {trades : List MatcherTradeEvent}
    (flag : o.ioc = 0 ∨ o.ioc = 1) (small : o.quantity.toNat < 2 ^ 31)
    (nonneg : ∀ evt ∈ trades, 0 ≤ evt.size.toInt)
    (conserved : total trades ≤ o.quantity.toNat) :
    stagedResidual o trades = batchResidual o trades := by
  have staged : stagedFilled trades = UInt64.ofNat (0 + total trades) :=
    foldl_staged nonneg (by omega) 0
  have batch : batchFilled trades = Int64.ofNat (0 + total trades) :=
    foldl_batch nonneg 0
  rw [Nat.zero_add] at staged batch
  have unsigned : o.quantity.toUInt64 = UInt64.ofNat o.quantity.toNat := by
    apply UInt64.toNat_inj.mp
    rw [UInt64.toNat_ofNat_of_lt' (o.quantity.toNat_lt.trans (by decide))]
    exact UInt32.toNat_toUInt64 o.quantity
  have signed : o.quantity.toInt32.toInt64 = Int64.ofNat o.quantity.toNat := by
    apply Int64.toInt.inj
    rw [Int64.toInt_ofNat_of_lt (by omega), toInt_quantity small]
  have flagged : o.ioc ≠ 0 ↔ o.ioc = 1 := by
    rcases flag with zero | one
    · rw [zero]
      decide
    · rw [one]
      decide
  have less :
      stagedFilled trades < o.quantity.toUInt64 ↔
        batchFilled trades < o.quantity.toInt32.toInt64 := by
    rw [staged, unsigned, batch, signed, UInt64.lt_iff_toNat_lt,
      Int64.lt_iff_toInt_lt, Int64.toInt_ofNat_of_lt (by omega),
      Int64.toInt_ofNat_of_lt (by omega),
      UInt64.toNat_ofNat_of_lt'
        (lt_of_le_of_lt conserved (small.trans (by decide))),
      UInt64.toNat_ofNat_of_lt' (small.trans (by decide)), Int.ofNat_lt]
  have rest :
      (o.quantity.toUInt64 - stagedFilled trades).toUInt32 =
        (o.quantity.toInt32.toInt64 -
          batchFilled trades).toInt32.toUInt32 := by
    rw [staged, unsigned, batch, signed, ← UInt64.ofNat_sub conserved,
      ← Int64.ofNat_sub _ _ conserved, UInt64.toUInt32_ofNat',
      Int64.toInt32_ofNat', Int32.toUInt32_ofNat']
  rw [stagedResidual, batchResidual, rest]
  exact if_congr (and_congr flagged less) rfl rfl

/-! ## A run of messages -/

/-- The flag and the quantities of a message are in range. -/
def InRange : Msg → Prop
  | .newOrder o => (o.ioc = 0 ∨ o.ioc = 1) ∧ o.quantity.toNat < 2 ^ 31
  | .cancel _ => True
  | .modify m => m.newQuantity.toNat < 2 ^ 31

instance (msg : Msg) : Decidable (InRange msg) :=
  match msg with
  | .newOrder _ => inferInstanceAs (Decidable (_ ∧ _))
  | .cancel _ => inferInstanceAs (Decidable True)
  | .modify _ => inferInstanceAs (Decidable (_ < _))

/-- The fills of a new order in range add up to at most its quantity. -/
theorem fills_conserved
    {core : Core} (conserves : Conserves core) (s : EngineState core)
    {o : NewOrder} (small : o.quantity.toNat < 2 ^ 31) :
    (∀ evt ∈ fills core s (.newOrder o), 0 ≤ evt.size.toInt) ∧
      total (fills core s (.newOrder o)) ≤ o.quantity.toNat := by
  have size := toInt_quantity small
  have sized : 0 ≤ o.quantity.toInt32.toInt64.toInt := by
    rw [size]
    exact Int.natCast_nonneg _
  obtain ⟨nonneg, conserved⟩ :=
    conserves s.1
      (placeCommand s.2 o.orderId.toInt64 o.priceTicks o.quantity.toInt32
        (Int32.ofNat o.side.toNat) (orderTypeOf (Int32.ofNat o.ioc.toNat)))
      sized
  refine ⟨nonneg, conserved.trans (Nat.le_of_eq ?_)⟩
  exact (congrArg Int.toNat size).trans (Int.toNat_natCast _)

/-- In range, both paths answer a message with the same reports. -/
theorem reportsWith_eq
    {core : Core} (conserves : Conserves core) (s : EngineState core)
    {msg : Msg} (inRange : InRange msg) :
    reportsWith stagedResidual core s msg =
      reportsWith batchResidual core s msg := by
  cases msg with
  | newOrder o =>
      obtain ⟨flag, small⟩ := inRange
      obtain ⟨nonneg, conserved⟩ := fills_conserved conserves s small
      rw [reportsWith, reportsWith, residual_eq flag small nonneg conserved]
  | cancel c => rfl
  | modify m => rfl

/-- The object as `engine_init` leaves it, with a book. -/
structure Ready {core : Core} (helper : Helper core) : Prop where
  staged : Staged helper
  whole : Whole helper.outB

/--
A run of messages handed over as one batch is answered as by the handlers: the
same reports in the same order and the same book, with no message skipped or
processed twice where the output buffer ends and no call without progress.  Of
the engine itself two things are assumed: `Reduces`, that a cancel which
succeeds comes with its event, and `Conserves`, that the trades of an order add
up to no more than its size.
-/
theorem batch_agrees_with_handlers
    {core : Core} (reduces : Reduces core) (conserves : Conserves core)
    {helper : Helper core} (ready : Ready helper) {msgs : List Msg}
    (length : 40 * msgs.length < 2 ^ 31)
    (inRange : ∀ msg ∈ msgs, InRange msg)
    (few :
      Admitted (answers stagedResidual core) (FitsStage core)
        (engineOf helper) msgs) :
    ∃ last reports batch,
      run (perMessage core) helper msgs = some (last, reports) ∧
        engineOnBatch core helper msgs = some batch ∧
        batch.reports = reports ∧
        engineOf batch.helper = engineOf last ∧
        Covers 0 msgs.length batch.calls ∧
        batch.stuck = false := by
  obtain ⟨last, ran, -, reached⟩ := run_perMessage ready.staged reduces few
  have fit :
      Admitted (answers batchResidual core) (FitsStage core)
        (engineOf helper) msgs := by
    apply few.congr
    intro s msg
    rfl
  obtain ⟨batch, handed, moving, covers, reports, ends, -⟩ :=
    @resumeLoop_eq core reduces [] msgs helper ready.whole
      (by
        rw [List.nil_append]
        omega)
      fit
  have agree :
      output (answers stagedResidual core) (engineOf helper) msgs =
        output (answers batchResidual core) (engineOf helper) msgs := by
    have all :
        Admitted (answers stagedResidual core) (fun _ => InRange)
          (engineOf helper) msgs :=
      Admitted.of_forall inRange
    apply all.output_eq
    intro s msg ok
    rw [answers, answers, reportsWith_eq conserves s ok]
  refine ⟨last, _, batch, ran, handed, reports.trans agree.symm, ?_, covers,
    moving⟩
  rw [ends, reached]
  rfl

/-! ## A run of the price-time book -/

/-- The command object before the first message. -/
def freshCommand : OrderCommand where
  command := .placeOrder
  orderId := 0
  uid := 0
  price := 0
  reserveBidPrice := 0
  size := 0
  action := .bid
  orderType := .gtc
  resultCode := .validForMatchingEngine
  matcherEvent := []

/-- The object over an empty price-time book. -/
def freshHelper : Helper priceTimeCore where
  book := Book.empty
  cmd := freshCommand
  tradeBuf := List.replicate (stageCap * tradeSize) 0
  outB := List.replicate (outCap * 64) 0

theorem freshHelper_ready : Ready freshHelper where
  staged := List.length_replicate
  whole := List.length_replicate

/-- An IOC buy takes part of a sell; the rest is modified and cancelled. -/
def mixedRun : List Msg :=
  [.newOrder
      { orderId := 1, sequenceNumber := 0, priceTicks := 100, quantity := 5,
        side := 1, ioc := 0 },
    .newOrder
      { orderId := 2, sequenceNumber := 1, priceTicks := 101, quantity := 3,
        side := 0, ioc := 1 },
    .modify
      { orderId := 1, sequenceNumber := 2, newPriceTicks := 99,
        newQuantity := 4, side := 1 },
    .newOrder
      { orderId := 3, sequenceNumber := 3, priceTicks := 99, quantity := 9,
        side := 0, ioc := 1 },
    .cancel { orderId := 1, sequenceNumber := 4 }]

theorem mixedRun_fits :
    Admitted (answers stagedResidual priceTimeCore) (FitsStage priceTimeCore)
      (engineOf freshHelper) mixedRun := by
  refine ⟨?_, ?_, ?_, ?_, ?_, trivial⟩
  all_goals
    unfold FitsStage
    decide +kernel

theorem batch_agrees_with_handlers_mixedRun :
    ∃ last reports batch,
      run (perMessage priceTimeCore) freshHelper mixedRun =
          some (last, reports) ∧
        engineOnBatch priceTimeCore freshHelper mixedRun = some batch ∧
        batch.reports = reports ∧
        engineOf batch.helper = engineOf last ∧
        Covers 0 mixedRun.length batch.calls ∧
        batch.stuck = false :=
  batch_agrees_with_handlers priceTimeCore_reduces priceTimeCore_conserves
    freshHelper_ready (by decide) (by decide) mixedRun_fits

end MatchingBench.Baselines.ExchangeCoreDelivery
