import MatchingBench.Lib.Ladders
import MatchingBench.Lib.Levels
import MatchingBench.Reference

/-!
# The llc993 adapter

`llc993_adapter/llc993_adapter.rs`.  The engine behind it is a parameter.  The
adapter keeps nothing of its own: the engine is addressed by the client's
identifiers and knows side and price of what rests.
-/

set_option autoImplicit false

namespace MatchingBench.Oracles.Llc993

open MatchingBench.Api
open MatchingBench.Lib.PriceTime
open MatchingBench.Lib.Ladders
open MatchingBench.Lib.Levels
open MatchingBench.Reference

/-! ## The engine -/

/-- `OrderAction`. -/
inductive OrderAction where
  | bid
  | ask
deriving DecidableEq, Repr

/-- `OrderType`, the two the adapter uses. -/
inductive OrderType where
  | gtc
  | ioc
deriving DecidableEq, Repr

/-- `MatcherEventType`: a fill, or the bookkeeping of a removed quantity. -/
inductive MatcherEventType where
  | trade
  | reject
deriving DecidableEq, Repr

/-- `MatcherTradeEvent`. -/
structure MatcherTradeEvent where
  eventType : MatcherEventType
  size : Int64
  /-- The maker's price. -/
  price : Int64
  matchedOrderId : UInt64
deriving DecidableEq, Repr

/-- `OrderCommand` as it is placed. -/
structure OrderCommand where
  orderId : UInt64
  price : Int64
  size : Int64
  action : OrderAction
  orderType : OrderType
deriving DecidableEq, Repr

/-- What `get_l2_data` returns. -/
structure L2MarketData where
  bidPrices : List Int64
  bidVolumes : List Int64
  askPrices : List Int64
  askVolumes : List Int64
deriving DecidableEq, Repr

/--
The engine, a `DirectOrderBook`: `newOrder` places a command and pushes its
events, `cancelOrder` removes an order, `getOrderById` finds a resting one, and
`getL2Data` lists the best levels.
-/
structure Core where
  State : Type
  init : State
  newOrder : State → OrderCommand → State × List MatcherTradeEvent
  cancelOrder : State → UInt64 → State
  getOrderById : State → UInt64 → Option (Int64 × OrderAction)
  getL2Data : State → Nat → L2MarketData

/-- The side of an action. -/
def OrderAction.side : OrderAction → Side
  | .bid => .buy
  | .ask => .sell

/-- The action of a side. -/
def actionOf : Side → OrderAction
  | .buy => .bid
  | .sell => .ask

@[simp]
theorem side_actionOf (side : Side) : (actionOf side).side = side := by
  cases side <;> rfl

/-- A command as it rests. -/
def OrderCommand.resting (cmd : OrderCommand) : Resting UInt64 Int64 where
  id := cmd.orderId
  price := cmd.price
  qty := cmd.size.toInt.toNat

/-- The event of a fill. -/
def tradeEvent (fill : Fill UInt64 Int64) : MatcherTradeEvent where
  eventType := .trade
  size := Int64.ofNat fill.qty
  price := fill.maker.price
  matchedOrderId := fill.maker.id

/-- The prices and volumes of the best levels. -/
def l2Side (depth : Nat) (entries : List (Int64 × Nat)) :
    List Int64 × List Int64 :=
  ((entries.take depth).map Prod.fst,
    (entries.take depth).map fun entry => Int64.ofNat entry.2)

/--
The engine is a price-time matcher at the maker's price: `newOrder` pushes one
Trade event per fill, possibly among bookkeeping events, and queues the rest
of an order unless it is immediate-or-cancel, and `cancelOrder` withdraws a
resting order.
-/
structure Core.Correct
    (core : Core) (ladders : core.State → Sides UInt64 Int64) : Prop where
  ladders_init : ladders core.init = fun _ => []
  newOrder : ∀ st (cmd : OrderCommand), ¬Rests (ladders st) cmd.orderId →
    0 < cmd.size → 0 < cmd.price →
      let result := core.newOrder st cmd
      ladders result.1 =
          submitted (ladders st) cmd.action.side cmd.resting
            (cmd.orderType = .gtc) ∧
        result.2.filter (·.eventType = .trade) =
          (cross (ladders st) cmd.action.side cmd.price
            cmd.size.toInt.toNat).fills.map tradeEvent
  cancelOrder : ∀ st orderId, Rests (ladders st) orderId →
    ladders (core.cancelOrder st orderId) = withdrawn (ladders st) orderId
  getOrderById : ∀ st side o, o ∈ ladders st side →
    core.getOrderById st o.id = some (o.price, actionOf side)
  getOrderUnknown : ∀ st orderId, ¬Rests (ladders st) orderId →
    core.getOrderById st orderId = none
  getL2Data : ∀ st depth,
    (∀ side, ∀ entry ∈ levels (ladders st side), entry.2 < 2 ^ 63) →
      let data := core.getL2Data st depth
      (data.bidPrices, data.bidVolumes) =
          l2Side depth (levels (ladders st .buy)) ∧
        (data.askPrices, data.askVolumes) =
          l2Side depth (levels (ladders st .sell))

/-! ## Orders and trades -/

/-- `L2_DEPTH`. -/
def l2Depth : Nat := 2 ^ 20

/-- `side_to_u8`. -/
def sideToU8 : OrderAction → UInt8
  | .bid => 0
  | .ask => 1

/-- `action_from_side`. -/
def actionFromSide (side : UInt8) : OrderAction :=
  if side = 0 then .bid else .ask

/-- `reset_place_cmd`. -/
def resetPlaceCmd
    (orderId : UInt64) (price size : Int64) (action : OrderAction)
    (orderType : OrderType) : OrderCommand where
  orderId := orderId
  price := price
  size := size
  action := action
  orderType := orderType

/-- The report of a Trade event. -/
def tradeReportOf
    (seq takerOid : UInt64) (ev : MatcherTradeEvent) : Report where
  type := meTrade
  side := 0
  sequenceNumber := seq
  orderId := 0
  priceTicks := ev.price
  quantity := ev.size.toUInt64.toUInt32
  makerOrderId := ev.matchedOrderId
  takerOrderId := takerOid

/-- `emit_trades`: the total filled size and the reports. -/
def emitTrades
    (events : List MatcherTradeEvent) (seq takerOid : UInt64) :
    Int64 × List Report :=
  events.foldl
    (fun (filled, reports) ev =>
      if ev.eventType = .trade then
        (filled + ev.size, reports ++ [tradeReportOf seq takerOid ev])
      else
        (filled, reports))
    (0, [])

/-! ## Handlers -/

variable {core : Core}

/-- `engine_on_new_order`. -/
def engineOnNewOrder (book : core.State) (o : NewOrder) :
    core.State × List Report :=
  let ack := ackReport meOrderAck o.sequenceNumber o.orderId o.side
    o.priceTicks o.quantity
  let action := actionFromSide o.side
  let orderType := if o.ioc ≠ 0 then OrderType.ioc else OrderType.gtc
  let (book, events) := core.newOrder book
    (resetPlaceCmd o.orderId o.priceTicks o.quantity.toUInt64.toInt64 action
      orderType)
  let (filled, trades) := emitTrades events o.sequenceNumber o.orderId
  let residual := o.quantity.toUInt64.toInt64 - filled
  (book,
    ack :: trades ++
      if o.ioc ≠ 0 ∧ residual > 0 then
        [ackReport meCancelAck o.sequenceNumber o.orderId o.side o.priceTicks
          residual.toUInt64.toUInt32]
      else
        [])

/-- `engine_on_cancel`. -/
def engineOnCancel (book : core.State) (c : Cancel) :
    core.State × List Report :=
  match core.getOrderById book c.orderId with
  | some (price, action) =>
      (core.cancelOrder book c.orderId,
        [ackReport meCancelAck c.sequenceNumber c.orderId (sideToU8 action)
          price 0])
  | none =>
      (book, [ackReport meCancelReject c.sequenceNumber c.orderId 0 0 0])

/-- `engine_on_modify`. -/
def engineOnModify (book : core.State) (m : Modify) :
    core.State × List Report :=
  match core.getOrderById book m.orderId with
  | some (_, action) =>
      let book := core.cancelOrder book m.orderId
      let (book, events) := core.newOrder book
        (resetPlaceCmd m.orderId m.newPriceTicks
          m.newQuantity.toUInt64.toInt64 action .gtc)
      (book,
        (emitTrades events m.sequenceNumber m.orderId).2 ++
          [ackReport meModifyAck m.sequenceNumber m.orderId
            (sideToU8 action) m.newPriceTicks m.newQuantity])
  | none =>
      (book, [ackReport meModifyReject m.sequenceNumber m.orderId 0 0 0])

/-- Process one message. -/
def step (book : core.State) : Msg → core.State × List Report
  | .newOrder o => engineOnNewOrder book o
  | .cancel c => engineOnCancel book c
  | .modify m => engineOnModify book m

/-! ## Queries -/

/-- `engine_query_best_bid`. -/
def engineQueryBestBid (book : core.State) : Int64 :=
  match (core.getL2Data book l2Depth).bidPrices.head? with
  | some p => p
  | none => int64Min

/-- `engine_query_best_ask`. -/
def engineQueryBestAsk (book : core.State) : Int64 :=
  match (core.getL2Data book l2Depth).askPrices.head? with
  | some p => p
  | none => int64Max

/-- `engine_query_depth_at`; `none` where it indexes past the volumes. -/
def engineQueryDepthAt
    (book : core.State) (priceTicks : Int64) (side : UInt8) :
    Option UInt64 :=
  let l2 := core.getL2Data book l2Depth
  let (prices, volumes) :=
    if side = 0 then (l2.bidPrices, l2.bidVolumes)
    else (l2.askPrices, l2.askVolumes)
  match prices.findIdx? (· = priceTicks) with
  | some i => (volumes[i]?).map fun v => if v > 0 then v.toUInt64 else 0
  | none => some 0

end MatchingBench.Oracles.Llc993
