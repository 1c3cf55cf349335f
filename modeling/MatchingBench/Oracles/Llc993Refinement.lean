import MatchingBench.Adapters
import MatchingBench.Oracles.Llc993

/-!
# The llc993 adapter refines the reference matcher

The engine speaks the client's identifiers, ticks and quantities, so its
ladders are those of the reference book.
-/

set_option autoImplicit false

namespace MatchingBench.Oracles.Llc993Refinement

open MatchingBench.Api
open MatchingBench.Adapters
open MatchingBench.Lib.PriceTime
open MatchingBench.Lib.OrderBook
open MatchingBench.Lib.Correspondence
open MatchingBench.Lib.Ladders
open MatchingBench.Lib.Levels
open MatchingBench.Reference
open MatchingBench.Oracles.Llc993

/-! ## Trades -/

/-- The Trade events among others: their total size and their reports. -/
theorem emitTrades_eq
    {events : List MatcherTradeEvent} {fills : List (Fill UInt64 Int64)}
    (trades : events.filter (·.eventType = .trade) = fills.map tradeEvent)
    (seq takerOid : UInt64) :
    emitTrades events seq takerOid =
      (Int64.ofNat (fills.map Fill.qty).sum,
        fills.map (tradeReport seq takerOid)) := by
  have total (fills : List (Fill UInt64 Int64)) (filled : Nat)
      (reports : List Report) :
      (fills.map tradeEvent).foldl
          (fun (state : Int64 × List Report) ev =>
            (state.1 + ev.size, state.2 ++ [tradeReportOf seq takerOid ev]))
          (Int64.ofNat filled, reports) =
        (Int64.ofNat (filled + (fills.map Fill.qty).sum),
          reports ++ fills.map (tradeReport seq takerOid)) := by
    induction fills generalizing filled reports with
    | nil => simp
    | cons fill fills induction =>
        have reported :
            tradeReportOf seq takerOid (tradeEvent fill) =
              tradeReport seq takerOid fill := by
          simp [tradeReportOf, tradeEvent, tradeReport]
        rw [List.map_cons, List.foldl_cons]
        dsimp only
        rw [reported, tradeEvent, ← Int64.ofNat_add, induction]
        simp [Nat.add_assoc]
  have sum := total fills 0 []
  rw [← trades, List.foldl_filter, Nat.zero_add, List.nil_append] at sum
  rw [← sum]
  unfold emitTrades
  simp only [decide_eq_true_eq]
  rfl

/-- The size a taker has left. -/
theorem residual_eq
    {filled left : Nat} {quantity : UInt32}
    (whole : filled + left = quantity.toNat) :
    quantity.toUInt64.toInt64 - Int64.ofNat filled = Int64.ofNat left := by
  rw [toInt64_quantity, ← whole, Int64.ofNat_add, Int64.add_comm,
    Int64.add_sub_cancel]

theorem residual_pos_iff
    {left : Nat} (few : left < 2 ^ 32) : Int64.ofNat left > 0 ↔ left ≠ 0 := by
  rw [gt_iff_lt, Int64.lt_iff_toInt_lt, Int64.toInt_zero,
    Int64.toInt_ofNat_of_lt (by omega)]
  omega

/-! ## The simulation -/

section Refinement

variable {core : Core} {ladders : core.State → Sides UInt64 Int64}
  {st : core.State} {book : LiveBook}

/-- The engine holds the reference book. -/
abbrev Mirrors
    (ladders : core.State → Sides UInt64 Int64) (st : core.State)
    (book : LiveBook) : Prop :=
  StandsFor Eq Eq 1 (ladders st) book

/-- Placing a command submits its order. -/
theorem newOrder_mirrors
    (correct : core.Correct ladders) (mirrors : Mirrors ladders st book)
    {order : Resting UInt64 Int64} (fresh : book.lookup order.id = none)
    {quantity : UInt32} (whole : order.qty = quantity.toNat)
    (positive : 1 ≤ quantity.toNat) (permitted : TickPrice order.price)
    (seq : UInt64) (action : OrderAction) (orderType : Llc993.OrderType) :
    let submitted := book.submit action.side order (orderType = .gtc) fresh
    let result := core.newOrder st
      (resetPlaceCmd order.id order.price quantity.toUInt64.toInt64 action
        orderType)
    Mirrors ladders result.1 submitted.book ∧
      emitTrades result.2 seq order.id =
        (Int64.ofNat (submitted.fills.map Fill.qty).sum,
          submitted.fills.map (tradeReport seq order.id)) := by
  have size := toInt_quantity quantity
  have somePrice : 0 < order.price := by
    have ⟨low, _⟩ := permitted
    rw [Int64.lt_iff_toInt_lt, Int64.toInt_zero]
    omega
  have someSize : 0 < quantity.toUInt64.toInt64 := by
    rw [Int64.lt_iff_toInt_lt, Int64.toInt_zero, size]
    omega
  have quantities : quantity.toUInt64.toInt64.toInt.toNat = 1 * order.qty := by
    rw [size, Nat.one_mul, whole]
    exact Int.toNat_natCast _
  have ⟨after, trades⟩ := correct.newOrder st
    (resetPlaceCmd order.id order.price quantity.toUInt64.toInt64 action
      orderType)
    (mirrors.not_rests fresh) someSize somePrice
  have ⟨fills, _, _⟩ := @StandsFor.cross _ _ _ _ _ _ _ _ _ _ _ _ mirrors
    orderCompatible_eq Nat.one_pos action.side order fresh order.price rfl
  constructor
  · rw [Mirrors, after]
    exact mirrors.submitted orderCompatible_eq Nat.one_pos
      ⟨rfl, rfl, quantities⟩
  · refine emitTrades_eq ?_ seq order.id
    rw [trades]
    dsimp only [resetPlaceCmd]
    rw [quantities, eq_of_alikeFills fills]
    rfl

/-- Cancelling a resting order withdraws it. -/
theorem cancelOrder_mirrors
    (correct : core.Correct ladders) (mirrors : Mirrors ladders st book)
    {id : UInt64} {side : Side} {o : Resting UInt64 Int64}
    (found : book.lookup id = some (side, o)) :
    core.getOrderById st id = some (o.price, actionOf side) ∧
      Mirrors ladders (core.cancelOrder st id) (book.withdraw id) := by
  rcases mirrors.exists_named found with ⟨r, member, rfl, price, _⟩
  constructor
  · rw [correct.getOrderById st side r member, price]
  · rw [Mirrors, correct.cancelOrder st r.id ⟨side, r, member, rfl⟩]
    exact mirrors.withdrawn_named r.id

/-! ## Messages -/

theorem side_actionFromSide (side : UInt8) :
    (actionFromSide side).side = sideOf side := by
  unfold actionFromSide sideOf
  split <;> rfl

theorem sideToU8_actionOf (side : Side) :
    sideToU8 (actionOf side) = sideByte side := by
  cases side <;> rfl

theorem newOrder_simulates
    (correct : core.Correct ladders) (mirrors : Mirrors ladders st book)
    {o : NewOrder} (legal : Legal TickPrice book (.newOrder o)) :
    Mirrors ladders (engineOnNewOrder st o).1
        (Reference.newOrder book o).1 ∧
      (engineOnNewOrder st o).2 = (Reference.newOrder book o).2 := by
  obtain ⟨fresh, _, positive, permitted⟩ := legal
  have placed := @newOrder_mirrors core ladders st book correct mirrors
    (submittedOrder o) fresh o.quantity rfl positive permitted
    o.sequenceNumber (actionFromSide o.side)
    (if o.ioc ≠ 0 then OrderType.ioc else OrderType.gtc)
  have flagged :
      decide ((if o.ioc ≠ 0 then OrderType.ioc else OrderType.gtc) =
          OrderType.gtc) =
        decide (o.ioc = 0) := by
    by_cases limit : o.ioc = 0 <;> simp [limit]
  dsimp only at placed
  rw [flagged, side_actionFromSide] at placed
  have ⟨kept, trades⟩ := placed
  have conserved := book.submit_conserves (sideOf o.side) (submittedOrder o)
    (decide (o.ioc = 0)) fresh
  have few : (book.submit (sideOf o.side) (submittedOrder o)
      (decide (o.ioc = 0)) fresh).left < 2 ^ 32 :=
    Nat.lt_of_le_of_lt (book.submit_left_le _ _ _ fresh) o.quantity.toNat_lt
  unfold engineOnNewOrder Reference.newOrder
  rw [dif_pos fresh]
  refine ⟨kept, ?_⟩
  have traded :
      emitTrades
          (core.newOrder st
            (resetPlaceCmd o.orderId o.priceTicks o.quantity.toUInt64.toInt64
              (actionFromSide o.side)
              (if o.ioc ≠ 0 then OrderType.ioc else OrderType.gtc))).2
          o.sequenceNumber o.orderId = _ := trades
  dsimp only
  rw [traded]
  dsimp only
  rw [@residual_eq _ _ o.quantity conserved]
  simp only [residual_pos_iff few]
  have quantity :
      (Int64.ofNat (book.submit (sideOf o.side) (submittedOrder o)
        (decide (o.ioc = 0)) fresh).left).toUInt64.toUInt32 =
        UInt32.ofNat (book.submit (sideOf o.side) (submittedOrder o)
          (decide (o.ioc = 0)) fresh).left := by
    simp
  rw [quantity]
  rfl

theorem cancel_simulates
    (correct : core.Correct ladders) (mirrors : Mirrors ladders st book)
    (c : Cancel) :
    Mirrors ladders (engineOnCancel st c).1 (Reference.cancel book c).1 ∧
      SameReports (engineOnCancel st c).2 (Reference.cancel book c).2 := by
  unfold engineOnCancel Reference.cancel
  cases found : book.lookup c.orderId with
  | none =>
      rw [correct.getOrderUnknown st c.orderId (mirrors.not_rests found)]
      exact ⟨mirrors, SameReports.refl _⟩
  | some entry =>
      rcases entry with ⟨side, o⟩
      have ⟨known, kept⟩ := cancelOrder_mirrors correct mirrors found
      rw [known]
      refine ⟨kept, SameReports.singleton ⟨rfl, rfl, ?_⟩⟩
      rw [sideToU8_actionOf]
      rfl

theorem modify_simulates
    (correct : core.Correct ladders) (mirrors : Mirrors ladders st book)
    {m : Modify} (legal : Legal TickPrice book (.modify m)) :
    Mirrors ladders (engineOnModify st m).1 (Reference.modify book m).1 ∧
      (engineOnModify st m).2 = (Reference.modify book m).2 := by
  unfold engineOnModify Reference.modify
  cases found : book.lookup m.orderId with
  | none =>
      rw [correct.getOrderUnknown st m.orderId (mirrors.not_rests found)]
      exact ⟨mirrors, rfl⟩
  | some entry =>
      rcases entry with ⟨side, o⟩
      obtain ⟨_, positive, permitted, _⟩ := legal
      have ⟨known, cancelled⟩ := cancelOrder_mirrors correct mirrors found
      have fresh := book.lookup_withdraw_self m.orderId
      have placed := @newOrder_mirrors core ladders
        (core.cancelOrder st m.orderId) (book.withdraw m.orderId) correct
        cancelled (modifiedOrder m) fresh m.newQuantity rfl positive permitted
        m.sequenceNumber (actionOf side) OrderType.gtc
      dsimp only at placed
      rw [side_actionOf, decide_eq_true rfl] at placed
      have ⟨kept, trades⟩ := placed
      have traded :
          emitTrades
              (core.newOrder (core.cancelOrder st m.orderId)
                (resetPlaceCmd m.orderId m.newPriceTicks
                  m.newQuantity.toUInt64.toInt64 (actionOf side) .gtc)).2
              m.sequenceNumber m.orderId = _ := trades
      rw [known]
      refine ⟨kept, ?_⟩
      dsimp only
      rw [traded, sideToU8_actionOf]
      rfl

/-- Every legal message keeps the simulation. -/
theorem step_forward (correct : core.Correct ladders) :
    Forward TickPrice (fun st m => some (@Llc993.step core st m))
      (fun _ => Mirrors ladders) := by
  intro m rest st book mirrors legal
  cases m with
  | newOrder o =>
      have ⟨kept, reports⟩ := newOrder_simulates correct mirrors legal
      exact ⟨_, _, rfl, kept, reports ▸ SameReports.refl _⟩
  | cancel c =>
      have ⟨kept, reports⟩ := cancel_simulates correct mirrors c
      exact ⟨_, _, rfl, kept, reports⟩
  | modify m =>
      have ⟨kept, reports⟩ := modify_simulates correct mirrors legal
      exact ⟨_, _, rfl, kept, reports ▸ SameReports.refl _⟩

/-- A fresh engine stands for the empty book. -/
theorem mirrors_init (correct : core.Correct ladders) :
    Mirrors ladders core.init Book.empty := by
  rw [Mirrors, correct.ladders_init]
  exact standsFor_empty _ _ _

/-! ## Queries -/

/-- The market data holds all levels of a bounded book. -/
theorem getL2Data_eq
    (correct : core.Correct ladders) (mirrors : Mirrors ladders st book)
    (bounded : Bounded book) (side : UInt8) :
    let l2 := core.getL2Data st l2Depth
    (if side = 0 then (l2.bidPrices, l2.bidVolumes)
      else (l2.askPrices, l2.askVolumes)) =
      ((levels (book.ladder (sideOf side))).map Prod.fst,
        (levels (book.ladder (sideOf side))).map
          fun entry => Int64.ofNat entry.2) := by
  have same := mirrors.eq_ladder
  have ⟨bids, asks⟩ := correct.getL2Data st l2Depth fun s entry member => by
    rw [same] at member
    have few := bounded.total s entry member
    omega
  rw [same] at bids asks
  have all (s : Side) :
      l2Side l2Depth (levels (book.ladder s)) =
        ((levels (book.ladder s)).map Prod.fst,
          (levels (book.ladder s)).map fun entry => Int64.ofNat entry.2) := by
    unfold l2Side
    rw [List.take_of_length_le (show _ ≤ l2Depth from bounded.count s)]
  dsimp only
  unfold sideOf
  split
  · rw [bids, all]
  · rw [asks, all]

theorem queryBestBid_eq
    (correct : core.Correct ladders) (mirrors : Mirrors ladders st book)
    (bounded : Bounded book) : engineQueryBestBid st = bestBid book := by
  have data := getL2Data_eq correct mirrors bounded 0
  dsimp only at data
  rw [if_pos rfl, Prod.mk.injEq] at data
  rw [bestBid, ← best_of_levels, wireLevels]
  unfold engineQueryBestBid
  rw [data.1, show sideOf 0 = Side.buy from rfl]
  cases levels (book.ladder .buy) <;> rfl

theorem queryBestAsk_eq
    (correct : core.Correct ladders) (mirrors : Mirrors ladders st book)
    (bounded : Bounded book) : engineQueryBestAsk st = bestAsk book := by
  have data := getL2Data_eq correct mirrors bounded 1
  dsimp only at data
  rw [if_neg (by decide), Prod.mk.injEq] at data
  rw [bestAsk, ← best_of_levels, wireLevels]
  unfold engineQueryBestAsk
  rw [data.1, show sideOf 1 = Side.sell from rfl]
  cases levels (book.ladder .sell) <;> rfl

theorem queryDepthAt_eq
    (correct : core.Correct ladders) (mirrors : Mirrors ladders st book)
    (bounded : Bounded book) (price : Int64) (side : UInt8) :
    engineQueryDepthAt st price side = some (depthAt book price side) := by
  have data := getL2Data_eq correct mirrors bounded side
  dsimp only at data
  have totals := bounded.total (sideOf side)
  rw [← depth_of_find, wireLevels]
  unfold engineQueryDepthAt
  dsimp only
  rw [data]
  dsimp only
  clear data
  generalize levels (book.ladder (sideOf side)) = entries at totals ⊢
  induction entries with
  | nil => rfl
  | cons entry later induction =>
      have rest := induction fun other member =>
        totals other (List.mem_cons_of_mem _ member)
      have few := totals entry List.mem_cons_self
      rw [List.map_cons, List.map_cons, List.map_cons, List.findIdx?_cons,
        List.find?_cons]
      dsimp only
      by_cases here : entry.1 = price
      · have volume :
            (if Int64.ofNat entry.2 > 0 then (Int64.ofNat entry.2).toUInt64
              else 0) = UInt64.ofNat entry.2 := by
          split
          · simp
          · rename_i nothing
            rw [gt_iff_lt, Int64.lt_iff_toInt_lt, Int64.toInt_zero,
              Int64.toInt_ofNat_of_lt (by omega)] at nothing
            rw [show entry.2 = 0 by omega]
            rfl
        rw [decide_eq_true here, if_pos rfl]
        exact congrArg some volume
      · rw [decide_eq_false here, if_neg Bool.false_ne_true, ← rest]
        cases (later.map Prod.fst).findIdx? (· = price) <;> rfl

end Refinement

end MatchingBench.Oracles.Llc993Refinement
