import MatchingBench.Baselines.ExchangeCoreDelivery

/-!
# The capacities of the exchange-core adapter

When the fixed buffers suffice.  The stage of the per-message handlers is the
smaller one: a message that fits it fits behind the reserve check of the batch
path as well, however full the output buffer is.
-/

set_option autoImplicit false

namespace MatchingBench.Baselines.ExchangeCoreCapacity

open MatchingBench.Api
open MatchingBench.Lib.PriceTime
open MatchingBench.Lib.OrderBook
open MatchingBench.Lib.Ladders
open MatchingBench.Lib.Runs
open MatchingBench.Baselines.ExchangeCore
open MatchingBench.Baselines.ExchangeCoreStage
open MatchingBench.Baselines.ExchangeCoreBatch
open MatchingBench.Baselines.ExchangeCorePriceTime
open MatchingBench.Baselines.ExchangeCoreDelivery

/-! ## What a run has to deliver -/

/-- The trades among the reports. -/
def tradeReports (reports : List Report) : List Report :=
  reports.filter fun report => report.type = meTrade

/-- The book as a machine that emits the fills of the messages. -/
def traded (core : Core) (s : EngineState core) (msg : Msg) :
    EngineState core × List Report :=
  (next core s msg,
    (fills core s msg).map (eventReport msg.sequenceNumber msg.orderId))

/-- One batch: the reports that the resume loop pushes. -/
def handBatch (core : Core) (helper : Helper core) (msgs : List Msg) :
    Option (Helper core × List Report) :=
  (engineOnBatch core helper msgs).map fun batch =>
    (batch.helper, batch.reports)

/-- No put raised, and every fill was pushed. -/
def Delivers
    (core : Core) (helper : Helper core) (msgs : List Msg)
    (outcome : Option (Helper core × List Report)) : Prop :=
  ∃ last reports,
    outcome = some (last, reports) ∧
      tradeReports reports = output (traded core) (engineOf helper) msgs

/-- A run that neither delivery overruns a buffer in. -/
structure NeverOverruns
    (core : Core) (helper : Helper core) (msgs : List Msg) : Prop where
  perMessage : Delivers core helper msgs (run (perMessage core) helper msgs)
  batched :
    ∀ batches : List (List Msg),
      batches.flatten = msgs →
        (∀ batch ∈ batches, 40 * batch.length < 2 ^ 31) →
          Delivers core helper msgs (run (handBatch core) helper batches)

/-! ## The trades of the answers -/

theorem tradeReports_append (left right : List Report) :
    tradeReports (left ++ right) = tradeReports left ++ tradeReports right :=
  List.filter_append left right

theorem tradeReports_ack
    {type : UInt8} (other : type ≠ meTrade) (seq oid : UInt64) (side : UInt8)
    (price : Int64) (qty : UInt32) :
    tradeReports [ackReport type seq oid side price qty] = [] := by
  simp [tradeReports, ackReport, other]

theorem tradeReports_trades
    (seq taker : UInt64) (trades : List MatcherTradeEvent) :
    tradeReports (trades.map (eventReport seq taker)) =
      trades.map (eventReport seq taker) := by
  apply List.filter_eq_self.mpr
  intro report member
  obtain ⟨evt, -, rfl⟩ := List.mem_map.mp member
  rfl

/-- A residual is cancelled, not traded. -/
def NoTrades (residual : NewOrder → List MatcherTradeEvent → List Report) :
    Prop :=
  ∀ o trades, tradeReports (residual o trades) = []

theorem noTrades_staged : NoTrades stagedResidual := by
  intro o trades
  rw [stagedResidual]
  split
  · exact tradeReports_ack (by decide) _ _ _ _ _
  · rfl

theorem noTrades_batch : NoTrades batchResidual := by
  intro o trades
  rw [batchResidual]
  split
  · exact tradeReports_ack (by decide) _ _ _ _ _
  · rfl

section Answers

variable {residual : NewOrder → List MatcherTradeEvent → List Report}
  (noTrades : NoTrades residual) (core : Core)
include noTrades

/-- The trades among a message's reports are its fills. -/
theorem tradeReports_reportsWith (s : EngineState core) (msg : Msg) :
    tradeReports (reportsWith residual core s msg) =
      (fills core s msg).map
        (eventReport msg.sequenceNumber msg.orderId) := by
  cases msg with
  | newOrder o =>
      rw [reportsWith, List.cons_append, ← List.singleton_append,
        tradeReports_append, tradeReports_append, noTrades,
        tradeReports_ack (by decide), tradeReports_trades, List.nil_append,
        List.append_nil]
      rfl
  | cancel c =>
      rw [reportsWith, fills]
      split
      · exact tradeReports_ack (by decide) _ _ _ _ _
      · exact tradeReports_ack (by decide) _ _ _ _ _
  | modify m =>
      rw [reportsWith]
      split
      · rename_i absent
        rw [fills, if_pos absent]
        exact tradeReports_ack (by decide) _ _ _ _ _
      · rw [tradeReports_append, tradeReports_ack (by decide),
          tradeReports_trades, List.append_nil]
        rfl

theorem tradeReports_output (s : EngineState core) (msgs : List Msg) :
    tradeReports (output (answers residual core) s msgs) =
      output (traded core) s msgs := by
  induction msgs generalizing s with
  | nil => rfl
  | cons msg msgs induction =>
      rw [output, output, tradeReports_append, induction]
      congr 1
      exact tradeReports_reportsWith noTrades core s msg

end Answers

/-! ## When the buffers suffice -/

section Delivery

variable {core : Core} (reduces : Reduces core)
include reduces

/-- Batches whose messages all fit the stage get the book's answers. -/
theorem run_handBatch
    {batches : List (List Msg)}
    (short : ∀ batch ∈ batches, 40 * batch.length < 2 ^ 31)
    {helper : Helper core} (whole : Whole helper.outB)
    (fit :
      Admitted (answers batchResidual core) (FitsStage core)
        (engineOf helper) batches.flatten) :
    ∃ last,
      run (handBatch core) helper batches =
        some (last,
          output (answers batchResidual core) (engineOf helper)
            batches.flatten) := by
  induction batches generalizing helper with
  | nil => exact ⟨helper, rfl⟩
  | cons msgs batches induction =>
      rw [List.forall_mem_cons] at short
      rw [List.flatten_cons, admitted_append] at fit
      obtain ⟨batch, handed, -, -, reports, ends, kept, -⟩ :=
        @resumeLoop_eq core reduces [] msgs helper whole
          (by
            rw [List.nil_append]
            omega)
          fit.1
      have one : handBatch core helper msgs =
        some (batch.helper, batch.reports) :=
        congrArg (Option.map _) handed
      rw [← ends] at fit
      obtain ⟨last, rest⟩ := induction short.2 kept fit.2
      refine ⟨last, ?_⟩
      rw [run, one, Option.bind_some, rest, Option.map_some, reports,
        List.flatten_cons, output_append, ← ends]

/-- A message with more fills than the stage holds aborts the handlers. -/
theorem run_aborts
    {helper : Helper core} (ready : Ready helper) {front back : List Msg}
    {msg : Msg}
    (many :
      stageCap <
        (fills core
          (final (answers stagedResidual core) (engineOf helper) front)
          msg).length) :
    run (perMessage core) helper (front ++ msg :: back) = none := by
  rw [← Option.not_isSome_iff_eq_none]
  intro ran
  have fit := fit_of_run ready.staged reduces ran
  rw [admitted_append] at fit
  exact absurd fit.2.1 (not_le.mpr many)

/--
Neither delivery of a run overruns a buffer exactly when every message of it
makes at most 1024 fills in the book it arrives at.  The handlers need the
bound; the batch path alone would do with a larger one.
-/
theorem never_overruns_iff
    {helper : Helper core} (ready : Ready helper) (msgs : List Msg) :
    NeverOverruns core helper msgs ↔
      ∀ front msg back, msgs = front ++ msg :: back →
        (fills core (final (traded core) (engineOf helper) front)
          msg).length ≤ stageCap := by
  have states :
      (∀ front msg back, msgs = front ++ msg :: back →
        (fills core (final (traded core) (engineOf helper) front)
          msg).length ≤ stageCap) ↔
        Admitted (traded core) (FitsStage core) (engineOf helper) msgs :=
    (@admitted_iff _ _ _ (traded core) (FitsStage core) _ _).symm
  rw [states]
  constructor
  · intro never
    obtain ⟨last, reports, ran, -⟩ := never.perMessage
    have done : (run (perMessage core) helper msgs).isSome := by
      rw [ran]
      rfl
    apply (fit_of_run ready.staged reduces done).congr
    intro s msg
    rfl
  · intro fit
    constructor
    · have staged :
          Admitted (answers stagedResidual core) (FitsStage core)
            (engineOf helper) msgs := by
        apply fit.congr
        intro s msg
        rfl
      obtain ⟨last, ran, -⟩ := run_perMessage ready.staged reduces staged
      exact ⟨last, _, ran, tradeReports_output noTrades_staged core _ msgs⟩
    · rintro batches rfl short
      have batched :
          Admitted (answers batchResidual core) (FitsStage core)
            (engineOf helper) batches.flatten := by
        apply fit.congr
        intro s msg
        rfl
      obtain ⟨last, ran⟩ := run_handBatch reduces short ready.whole batched
      exact ⟨last, _, ran, tradeReports_output noTrades_batch core _ _⟩

end Delivery

theorem never_overruns_iff_mixedRun :
    NeverOverruns priceTimeCore freshHelper mixedRun ↔
      ∀ front msg back, mixedRun = front ++ msg :: back →
        (fills priceTimeCore
          (final (traded priceTimeCore) (engineOf freshHelper) front)
          msg).length ≤ stageCap :=
  never_overruns_iff priceTimeCore_reduces freshHelper_ready mixedRun

/-! ## A sweep that does not fit -/

/-- `NEW(i, SELL, 1, 100)` at its place in the tape. -/
def unitSell (i : Nat) : Msg :=
  .newOrder
    { orderId := UInt64.ofNat (i + 1), sequenceNumber := UInt64.ofNat i,
      priceTicks := 100, quantity := 1, side := 1, ioc := 0 }

/-- `NEW(5001, BUY, 5000, 100, ioc=1)`. -/
def sweepingBuy : Msg :=
  .newOrder
    { orderId := 5001, sequenceNumber := 5000, priceTicks := 100,
      quantity := 5000, side := 0, ioc := 1 }

/-- So many sells. -/
def unitSells (count : Nat) : List Msg :=
  (List.range count).map unitSell

/-- The messages of `deep_recursive_sweep_5000`. -/
def deepSweep : List Msg :=
  unitSells 5000 ++ [sweepingBuy]

/-- A new order as the contract asks for it. -/
def LegalOrder : Msg → Prop
  | .newOrder o =>
      (o.side = 0 ∨ o.side = 1) ∧ (o.ioc = 0 ∨ o.ioc = 1) ∧
        1 ≤ o.quantity.toNat ∧ 0 ≤ o.priceTicks.toInt
  | _ => False

/-- Unit sells at one price under the first identifiers, and nothing else. -/
structure UnitSells (count : Nat) (book : Book Int64 Int64) : Prop where
  bids : book.ladder .buy = []
  length : (book.ladder .sell).length = count
  units : ∀ o ∈ book.ladder .sell, o.price = 100 ∧ o.qty = 1
  ids :
    ∀ o ∈ book.ladder .sell, ∃ i < count,
      o.id = (UInt64.ofNat (i + 1)).toInt64

/-- The identifiers behind the first ones are new. -/
theorem UnitSells.fresh
    {count : Nat} {book : Book Int64 Int64} (sells : UnitSells count book)
    {id : UInt64} (above : count < id.toNat) :
    book.lookup id.toInt64 = none := by
  apply Book.lookup_eq_none_iff.mpr
  intro side member
  obtain ⟨o, inside, same⟩ := List.mem_map.mp member
  cases side with
  | buy =>
      rw [sells.bids] at inside
      exact absurd inside List.not_mem_nil
  | sell =>
      obtain ⟨i, below, named⟩ := sells.ids o inside
      have equal := congrArg Int64.toUInt64 (same.symm.trans named)
      rw [UInt64.toUInt64_toInt64, UInt64.toUInt64_toInt64] at equal
      have le : id.toNat ≤ i + 1 := by
        rw [equal, UInt64.toNat_ofNat']
        exact Nat.mod_le _ _
      omega

section UnitSell

variable {count : Nat} {book : Book Int64 Int64} (sells : UnitSells count book)
  {cmd : OrderCommand} (action : cmd.action = .ask)
  (size : cmd.size.toInt.toNat = 1)
include sells action size

/-- A unit sell meets no order. -/
theorem swept_unitSell :
    swept book cmd = { fills := [], left := 1, rest := [] } := by
  rw [swept, action, size]
  change sweep _ _ (book.ladder .buy) 1 = _
  rw [sells.bids]
  rfl

/-- A unit sell queues behind the others. -/
theorem placed_unitSell
    (type : cmd.orderType = .gtc) (price : cmd.price = 100)
    (id : cmd.orderId = (UInt64.ofNat (count + 1)).toInt64)
    (small : count + 1 < 2 ^ 64) :
    UnitSells (count + 1) (priceTimeCore.newOrder book cmd).1 := by
  have fresh : book.lookup (restingOf cmd).id = none := by
    change book.lookup cmd.orderId = none
    rw [id]
    apply sells.fresh
    rw [UInt64.toNat_ofNat_of_lt' small]
    exact Nat.lt_succ_self count
  have met :
      cross book.ladder .sell cmd.price cmd.size.toInt.toNat =
        { fills := [], left := 1, rest := [] } := by
    have nothing := swept_unitSell sells action size
    rwa [swept, action] at nothing
  have traded :
      crossed book.ladder .sell cmd.price cmd.size.toInt.toNat =
        book.ladder := by
    rw [crossed, met]
    dsimp only
    rw [← sells.bids]
    exact Function.update_eq_self _ _
  have ladder :
      Book.ladder (priceTimeCore.newOrder book cmd).1 =
        queue book.ladder .sell
          { id := cmd.orderId, price := 100, qty := 1 } := by
    rw [ladder_newOrder fresh, action, type]
    dsimp only [submitted, restingOf, sideOfAction]
    rw [met, traded, price]
    rfl
  have asks :
      Book.ladder (priceTimeCore.newOrder book cmd).1 .sell =
        enqueue .sell
          ({ id := cmd.orderId, price := 100, qty := 1 } :
            Resting Int64 Int64)
          (book.ladder .sell) := by
    rw [ladder]
    exact Function.update_self _ _ _
  constructor
  · rw [ladder]
    exact sells.bids
  · rw [asks, (enqueue_perm _ _ _).length_eq, List.length_cons, sells.length]
  · intro o member
    rw [asks, mem_enqueue] at member
    rcases member with rfl | earlier
    · exact ⟨rfl, rfl⟩
    · exact sells.units o earlier
  · intro o member
    rw [asks, mem_enqueue] at member
    rcases member with rfl | earlier
    · exact ⟨count, Nat.lt_succ_self count, id⟩
    · obtain ⟨i, below, named⟩ := sells.ids o earlier
      exact ⟨i, Nat.lt_succ_of_lt below, named⟩

end UnitSell

theorem final_unitSells
    (residual : NewOrder → List MatcherTradeEvent → List Report)
    {count : Nat} (small : count < 2 ^ 64) :
    UnitSells count
      (final (answers residual priceTimeCore) (engineOf freshHelper)
        (unitSells count)).1 := by
  induction count with
  | zero =>
      constructor
      · rfl
      · rfl
      · exact List.forall_mem_nil _
      · exact List.forall_mem_nil _
  | succ count induction =>
      rw [unitSells, List.range_succ, List.map_append, final_append,
        ← unitSells]
      exact placed_unitSell (induction (Nat.lt_of_succ_lt small)) rfl rfl rfl
        rfl rfl small

/-- A buy of as many units as rest makes as many fills. -/
theorem length_fills_units
    {makers : List (Resting Int64 Int64)}
    (units : ∀ o ∈ makers, o.price = 100 ∧ o.qty = 1) :
    (sweep .buy 100 makers makers.length).fills.length = makers.length := by
  induction makers with
  | nil => rfl
  | cons maker makers induction =>
      rw [List.forall_mem_cons] at units
      obtain ⟨⟨price, qty⟩, rest⟩ := units
      have reaches : Side.atLeast .buy 100 maker.price := by
        rw [price]
        exact Side.atLeast_refl _ _
      have left : (maker :: makers).length - 1 = makers.length := rfl
      rw [sweep, if_neg (by simp [reaches]), if_pos (by simp [qty]), qty, left]
      dsimp only
      rw [List.length_cons, induction rest]
      rfl

/-- An IOC buy of all the units makes a fill for each. -/
theorem length_fills_newOrder
    {count : Nat} {s : EngineState priceTimeCore} (sells : UnitSells count s.1)
    {o : NewOrder} (bought : o.side = 0) (price : o.priceTicks = 100)
    (quantity : o.quantity.toInt32.toInt64.toInt.toNat = count)
    (above : count < o.orderId.toNat) :
    (fills priceTimeCore s (.newOrder o)).length = count := by
  have trades :
      fills priceTimeCore s (.newOrder o) =
        (sweep .buy 100 (Book.ladder s.1 .sell) count).fills.map
          tradeEvent := by
    rw [fills, placedNew, bought, price]
    refine (tradesOf_newOrder (sells.fresh above)).trans ?_
    rw [← quantity]
    rfl
  rw [trades, List.length_map]
  conv_lhs => rw [← sells.length]
  rw [length_fills_units sells.units, sells.length]

/-- The last message of the deep sweep makes 5000 fills. -/
theorem length_fills_sweepingBuy
    {s : EngineState priceTimeCore} (sells : UnitSells 5000 s.1) :
    (fills priceTimeCore s sweepingBuy).length = 5000 :=
  length_fills_newOrder sells rfl rfl rfl (by decide)

theorem nodup_orderIds
    {count : Nat} (small : count + 1 < 2 ^ 64) {last : Msg}
    (behind : last.orderId = UInt64.ofNat (count + 1)) :
    ((unitSells count ++ [last]).map Msg.orderId).Nodup := by
  have ids :
      (unitSells count ++ [last]).map Msg.orderId =
        (List.range (count + 1)).map fun i => UInt64.ofNat (i + 1) := by
    rw [unitSells, List.map_append, List.map_map, List.range_succ,
      List.map_append, List.map_singleton, List.map_singleton, behind]
    rfl
  rw [ids]
  apply List.nodup_range.map_on
  intro i early j late same
  rw [List.mem_range] at early late
  have equal := congrArg UInt64.toNat same
  rw [UInt64.toNat_ofNat_of_lt' (lt_of_le_of_lt early small),
    UInt64.toNat_ofNat_of_lt' (lt_of_le_of_lt late small)] at equal
  exact Nat.succ.inj equal

theorem legal_deepSweep : ∀ msg ∈ deepSweep, LegalOrder msg := by
  intro msg member
  rcases List.mem_append.mp member with sell | buy
  · obtain ⟨i, -, rfl⟩ := List.mem_map.mp sell
    exact ⟨Or.inr rfl, Or.inl rfl, Nat.le_refl 1, Int.natCast_nonneg 100⟩
  · rw [List.mem_singleton.mp buy]
    exact ⟨Or.inl rfl, Or.inr rfl, by decide, by decide⟩

/--
The suite's own deep sweep is legal and aborts the handlers, that is, a run
delivered message by message, as it is with `ME_NO_BATCH`.
-/
theorem handlers_abort_deepSweep :
    (deepSweep.map Msg.orderId).Nodup ∧
      (∀ msg ∈ deepSweep, LegalOrder msg) ∧
      run (perMessage priceTimeCore) freshHelper deepSweep = none ∧
      ¬ NeverOverruns priceTimeCore freshHelper deepSweep := by
  have many :
      stageCap <
        (fills priceTimeCore
          (final (answers stagedResidual priceTimeCore) (engineOf freshHelper)
            (unitSells 5000)) sweepingBuy).length := by
    rw [length_fills_sweepingBuy (final_unitSells stagedResidual (by decide))]
    decide
  have aborted : run (perMessage priceTimeCore) freshHelper deepSweep = none :=
    @run_aborts _ priceTimeCore_reduces _ freshHelper_ready (unitSells 5000) []
      sweepingBuy many
  refine ⟨nodup_orderIds (by decide) rfl, legal_deepSweep, aborted, ?_⟩
  intro never
  obtain ⟨last, reports, ran, -⟩ := never.perMessage
  rw [aborted] at ran
  exact absurd ran (by simp)

/-! ## A sweep that the batch path does not hold -/

/-- `NEW(65537, BUY, 65536, 100, ioc=1)`. -/
def largeBuy : NewOrder where
  orderId := 65537
  sequenceNumber := 65536
  priceTicks := 100
  quantity := 65536
  side := 0
  ioc := 1

theorem fits_unitSells {count : Nat} (small : count < 2 ^ 64) :
    Admitted (answers batchResidual priceTimeCore) (FitsStage priceTimeCore)
      (engineOf freshHelper) (unitSells count) := by
  induction count with
  | zero => trivial
  | succ count induction =>
      rw [unitSells, List.range_succ, List.map_append, admitted_append,
        ← unitSells]
      have before := Nat.lt_of_succ_lt small
      refine ⟨induction before, ?_, trivial⟩
      have sells := final_unitSells batchResidual before
      have unmatched :
          fills priceTimeCore
              (final (answers batchResidual priceTimeCore)
                (engineOf freshHelper) (unitSells count)) (unitSell count) =
            [] := by
        have above : count < (UInt64.ofNat (count + 1)).toNat := by
          rw [UInt64.toNat_ofNat_of_lt' small]
          exact Nat.lt_succ_self count
        refine (tradesOf_newOrder (sells.fresh above)).trans ?_
        rw [swept_unitSell sells rfl rfl]
        rfl
      rw [FitsStage, unmatched]
      exact Nat.zero_le stageCap

/--
The reserve check of the batch path keeps 2048 records free, which bounds no
sweep either: delivered in batches, an order that meets 65536 others aborts.
-/
theorem run_handBatch_aborts
    {count : Nat} (many : outCap ≤ count) (short : count < 2 ^ 25)
    {o : NewOrder} (bought : o.side = 0) (price : o.priceTicks = 100)
    (quantity : o.quantity.toInt32.toInt64.toInt.toNat = count)
    (above : count < o.orderId.toNat) :
    run (handBatch priceTimeCore) freshHelper
      [unitSells count, [.newOrder o]] = none := by
  have small : count < 2 ^ 64 := by omega
  have length : (unitSells count).length = count := by
    rw [unitSells, List.length_map, List.length_range]
  obtain ⟨batch, handed, -, -, -, ends, whole, -⟩ :=
    @resumeLoop_eq _ priceTimeCore_reduces [] (unitSells count) freshHelper
      freshHelper_ready.whole
      (by
        rw [List.nil_append, length]
        omega)
      (fits_unitSells small)
  have first : handBatch priceTimeCore freshHelper (unitSells count) =
      some (batch.helper, batch.reports) :=
    congrArg (Option.map _) handed
  have sells := final_unitSells batchResidual small
  rw [← ends] at sells
  have fills := length_fills_newOrder sells bought price quantity above
  have last : handBatch priceTimeCore batch.helper [.newOrder o] = none := by
    rw [handBatch, engineOnBatch_of_overrun whole (many.trans fills.ge)]
    rfl
  rw [run, first, Option.bind_some, run, last]
  rfl

/-- Such a run is legal, as the deep sweep is. -/
theorem batch_aborts_largeSweep :
    ((unitSells 65536 ++ [Msg.newOrder largeBuy]).map Msg.orderId).Nodup ∧
      LegalOrder (.newOrder largeBuy) ∧
      run (handBatch priceTimeCore) freshHelper
        [unitSells 65536, [.newOrder largeBuy]] = none := by
  refine ⟨nodup_orderIds (by decide) rfl, ?_,
    run_handBatch_aborts (Nat.le_refl _) (by decide) rfl rfl rfl (by decide)⟩
  exact ⟨Or.inl rfl, Or.inr rfl, by decide, by decide⟩

end MatchingBench.Baselines.ExchangeCoreCapacity
