import MatchingBench.Api
import MatchingBench.Lib.Ladders
import MatchingBench.Lib.Tables
import Mathlib.Algebra.Group.Int.Defs
import Mathlib.Data.Nat.Basic

/-!
# The Liquibook adapter

`adapters/liquibook_adapter.cpp`.  The engine behind it is a parameter; the
adapter maps harness identifiers to the engine's orders and the engine's
order identifiers back.  A step yields `none` where the adapter reads or
writes past the end of a table.
-/

set_option autoImplicit false

namespace MatchingBench.Baselines.Liquibook

open MatchingBench.Api
open MatchingBench.Lib.PriceTime
open MatchingBench.Lib.Ladders
open MatchingBench.Lib.Tables

/-! ## The engine -/

/--
The fixed part of a `SimpleOrder`, named by its `order_id_`.  What changes,
its state and open quantity, is asked of the engine.
-/
structure SimpleOrder where
  orderId : Nat
  isBuy : Bool
  price : Nat
  qty : Nat
deriving DecidableEq, Repr

/-- `simple::OrderState`. -/
inductive OrderState where
  | osNew
  | osAccepted
  | osComplete
  | osCancelled
  | osRejected
deriving DecidableEq, Repr

/-- The arguments of `on_fill`, orders by their `order_id_`. -/
structure OnFill where
  taker : Nat
  maker : Nat
  qty : Nat
  price : Nat
deriving DecidableEq, Repr

/--
The engine: `add` takes an order and whether it is immediate-or-cancel and
reports its fills in order; `bids` and `asks` list the trackers of a side with
their price and open quantity.
-/
structure Core where
  State : Type
  init : State
  /-- The width of `book::Price` in bits. -/
  priceBits : Nat
  add : State → SimpleOrder → Bool → State × List OnFill
  cancel : State → Nat → State
  orderState : State → Nat → OrderState
  openQty : State → Nat → Nat
  bids : State → List (Nat × Nat)
  asks : State → List (Nat × Nat)

/-- The side of an order. -/
def SimpleOrder.bookSide (order : SimpleOrder) : Side :=
  if order.isBuy then .buy else .sell

/-- The order as it rests. -/
def SimpleOrder.resting (order : SimpleOrder) : Resting Nat Nat where
  id := order.orderId
  price := order.price
  qty := order.qty

/-- The call for a fill. -/
def onFillOf (order : SimpleOrder) (fill : Fill Nat Nat) : OnFill where
  taker := order.orderId
  maker := fill.maker.id
  qty := fill.qty
  price := fill.maker.price

/-- A tracker of a resting order. -/
def trackerOf (o : Resting Nat Nat) : Nat × Nat :=
  (o.price, o.qty)

/--
The engine is a price-time matcher at the maker's price: `add` trades an order
and queues the rest of it unless it is immediate-or-cancel, with one `on_fill`
per fill, and `cancel` withdraws a resting order.  An order rests exactly when
it is accepted with open quantity.
-/
structure Core.Correct
    (core : Core) (ladders : core.State → Sides Nat Nat) : Prop where
  bits : 18 ≤ core.priceBits
  ladders_init : ladders core.init = fun _ => []
  add : ∀ st order ioc, ¬Rests (ladders st) order.orderId →
    0 < order.qty → 0 < order.price →
      let side := order.bookSide
      let result := core.add st order ioc
      ladders result.1 =
          submitted (ladders st) side order.resting (!ioc) ∧
        result.2 =
          (cross (ladders st) side order.price order.qty).fills.map
            (onFillOf order)
  cancel : ∀ st orderId, Rests (ladders st) orderId →
    ladders (core.cancel st orderId) = withdrawn (ladders st) orderId
  resting : ∀ st orderId,
    core.orderState st orderId = .osAccepted ∧ 0 < core.openQty st orderId ↔
      Rests (ladders st) orderId
  bids : ∀ st, core.bids st = (ladders st .buy).map trackerOf
  asks : ∀ st, core.asks st = (ladders st .sell).map trackerOf

/-! ## State -/

/-- The engine, `SimpleOrder::last_order_id_` and the adapter's globals. -/
structure State (core : Core) where
  book : core.State
  lastOrderId : Nat
  /-- Harness order id to current order. -/
  orders : List (Option SimpleOrder)
  /-- `order_id_` to harness order id. -/
  lb2ext : List UInt64
  lbBuilt : Nat

/-- `engine_init`. -/
def engineInit (core : Core) : State core where
  book := core.init
  lastOrderId := 0
  orders := resize [] (2 ^ 21) none
  lb2ext := resize [] (2 ^ 21) 0
  lbBuilt := 0

/-- `engine_prebuild`. -/
def enginePrebuild {core : Core} (st : State core) (m : Msg) : State core :=
  let count (st : State core) : State core :=
    { st with
      lbBuilt := st.lbBuilt + 1
      lb2ext :=
        if st.lbBuilt + 1 ≥ st.lb2ext.length then
          resize st.lb2ext
            (max (st.lb2ext.length * 2) (st.lbBuilt + 1 + 1)) 0
        else
          st.lb2ext }
  match m with
  | .cancel _ => st
  | .newOrder o =>
      count { st with
        orders :=
          if o.orderId.toNat ≥ st.orders.length then
            resize st.orders
              (max (st.orders.length * 2) (o.orderId + 1).toNat) none
          else
            st.orders }
  | .modify _ => count st

/-- Pass a whole workload to `engine_prebuild`. -/
def prebuildAll {core : Core} (st : State core) (msgs : List Msg) :
    State core :=
  msgs.foldl enginePrebuild st

/-- `find_order`. -/
def findOrder (orders : List (Option SimpleOrder)) (extId : UInt64) :
    Option SimpleOrder :=
  (orders[extId.toNat]?).join

/-- `resting` of an order that exists. -/
def resting {core : Core} (st : State core) (order : SimpleOrder) : Bool :=
  core.orderState st.book order.orderId == .osAccepted &&
    decide (core.openQty st.book order.orderId > 0)

/-- `static_cast<lb::Price>`. -/
def castPrice (bits : Nat) (price : Int64) : Nat :=
  (price.toInt % 2 ^ bits).toNat

/-! ## Orders and fills -/

/--
`make_order`, `map_lb_id` and the store of the forward map: construct an order
and register it under its harness id.
-/
def register
    {core : Core} (st : State core) (extId : UInt64) (isBuy : Bool)
    (price : Int64) (qty : UInt32) : Option (State core × SimpleOrder) :=
  let order : SimpleOrder :=
    { orderId := st.lastOrderId + 1
      isBuy := isBuy
      price := castPrice core.priceBits price
      qty := qty.toNat }
  (store st.lb2ext order.orderId extId).bind fun lb2ext =>
    (store st.orders extId.toNat (some order)).map fun orders =>
      ({ st with
          lastOrderId := order.orderId
          lb2ext := lb2ext
          orders := orders },
        order)

/-- The globals the listener writes. -/
structure Listening where
  filled : Nat
  reports : List Report

/-- `Listener::on_fill`. -/
def onFill
    (lb2ext : List UInt64) (seq : UInt64) (l : Listening) (fill : OnFill) :
    Option Listening :=
  (lb2ext[fill.maker]?).bind fun maker =>
    (lb2ext[fill.taker]?).map fun taker =>
      { filled := l.filled + fill.qty
        reports := l.reports ++
          [{ type := meTrade
             side := 0
             sequenceNumber := seq
             orderId := 0
             priceTicks := Int64.ofNat fill.price
             quantity := UInt32.ofNat fill.qty
             makerOrderId := maker
             takerOrderId := taker }] }

/-- `g_book->add`, with the calls of its listener. -/
def add
    {core : Core} (st : State core) (seq : UInt64) (order : SimpleOrder)
    (ioc : Bool) : Option (State core × Listening) :=
  let (book, fills) := core.add st.book order ioc
  (fills.foldlM (onFill st.lb2ext seq) { filled := 0, reports := [] }).map
    fun l => ({ st with book := book }, l)

/-! ## Handlers -/

/-- `engine_on_new_order`. -/
def engineOnNewOrder {core : Core} (st : State core) (o : NewOrder) :
    Option (State core × List Report) :=
  let ack := ackReport meOrderAck o.sequenceNumber o.orderId o.side
    o.priceTicks o.quantity
  let ioc := decide (o.ioc ≠ 0)
  (register st o.orderId (o.side == 0) o.priceTicks o.quantity).bind
    fun (st, order) =>
      (add st o.sequenceNumber order ioc).map fun (st, l) =>
        (st,
          ack :: l.reports ++
            if ioc ∧ l.filled < o.quantity.toNat then
              [ackReport meCancelAck o.sequenceNumber o.orderId o.side
                o.priceTicks (UInt32.ofNat (o.quantity.toNat - l.filled))]
            else
              [])

/-- `engine_on_cancel`. -/
def engineOnCancel {core : Core} (st : State core) (c : Cancel) :
    State core × List Report :=
  let reject :=
    (st, [ackReport meCancelReject c.sequenceNumber c.orderId 0 0 0])
  match findOrder st.orders c.orderId with
  | some order =>
      if resting st order then
        ({ st with book := core.cancel st.book order.orderId },
          [ackReport meCancelAck c.sequenceNumber c.orderId
            (if order.isBuy then 0 else 1) (Int64.ofNat order.price) 0])
      else
        reject
  | none => reject

/-- `engine_on_modify`. -/
def engineOnModify {core : Core} (st : State core) (m : Modify) :
    Option (State core × List Report) :=
  let reject :=
    some (st, [ackReport meModifyReject m.sequenceNumber m.orderId 0 0 0])
  match findOrder st.orders m.orderId with
  | some cur =>
      if resting st cur then
        let st := { st with book := core.cancel st.book cur.orderId }
        (register st m.orderId (m.side == 0) m.newPriceTicks
          m.newQuantity).bind fun (st, order) =>
            (add st m.sequenceNumber order false).map fun (st, l) =>
              (st,
                l.reports ++
                  [ackReport meModifyAck m.sequenceNumber m.orderId m.side
                    m.newPriceTicks m.newQuantity])
      else
        reject
  | none => reject

/-- Dispatch of one message. -/
def step {core : Core} (st : State core) :
    Msg → Option (State core × List Report)
  | .newOrder o => engineOnNewOrder st o
  | .cancel c => some (engineOnCancel st c)
  | .modify m => engineOnModify st m

/-! ## Queries -/

/-- `engine_query_best_bid`. -/
def engineQueryBestBid {core : Core} (st : State core) : Int64 :=
  match core.bids st.book with
  | [] => int64Min
  | best :: _ => Int64.ofNat best.1

/-- `engine_query_best_ask`. -/
def engineQueryBestAsk {core : Core} (st : State core) : Int64 :=
  match core.asks st.book with
  | [] => int64Max
  | best :: _ => Int64.ofNat best.1

/-- `engine_query_depth_at`: the trackers of `equal_range`, added up. -/
def engineQueryDepthAt
    {core : Core} (st : State core) (priceTicks : Int64) (side : UInt8) :
    UInt64 :=
  let price := castPrice core.priceBits priceTicks
  let trackers := if side = 0 then core.bids st.book else core.asks st.book
  (trackers.filter (·.1 = price)).foldl
    (fun total tracker => total + UInt64.ofNat tracker.2) 0

end MatchingBench.Baselines.Liquibook
