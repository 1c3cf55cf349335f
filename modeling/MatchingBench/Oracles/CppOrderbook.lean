import MatchingBench.Api
import MatchingBench.Lib.Ladders
import MatchingBench.Lib.Levels
import MatchingBench.Lib.Tables
import MatchingBench.Oracles.BookDump
import Mathlib.Data.Nat.Basic

/-!
# The cpp-orderbook adapter

`cpp_orderbook_adapter/cpp_orderbook_adapter.cpp`.  The engine behind it is a
parameter; the adapter keeps a shadow of each order, indexed by its identifier,
and answers queries from the engine's book dump.  Memory is taken to be there;
a step yields `none` where the shadow cannot hold an identifier.
-/

set_option autoImplicit false

namespace MatchingBench.Oracles.CppOrderbook

open MatchingBench.Api
open MatchingBench.Lib.PriceTime
open MatchingBench.Lib.Ladders
open MatchingBench.Lib.Levels
open MatchingBench.Lib.TextScan
open MatchingBench.Lib.Tables
open MatchingBench.Oracles.BookDump

/-! ## The engine -/

/-- `Decimal = decimal::U8`: a 64-bit multiple of `10 ^ -8`. -/
abbrev Decimal := UInt64

/-- The scale of a `Decimal`. -/
def scale : Nat := 10 ^ 8

/-- `Decimal(i, 0)`: one 64-bit multiplication. -/
def Decimal.ofInt (i : UInt64) : Decimal :=
  i * UInt64.ofNat scale

/-- `d.to_int()`. -/
def Decimal.toInt (d : Decimal) : UInt64 :=
  d / UInt64.ofNat scale

/-- `orderbook::Flag`, the two the adapter uses. -/
inductive Flag where
  | none
  | ioC
deriving DecidableEq, Repr

/-- `ExecutionReport`, by its `exec_type` with the fields the adapter reads. -/
inductive ExecutionReport where
  | new
  | trade (makerOrderId takerOrderId : UInt64) (lastQty lastPrice : Decimal)
  | canceled (qty : Decimal)
  | rejected
deriving DecidableEq, Repr

/--
The engine: `addOrder` takes a limit order and reports its acceptance and its
trades, `cancelOrder` reports its verdict, and `toString` prints the book.
-/
structure Core where
  State : Type
  init : State
  addOrder : State → UInt64 → Side → Decimal → Decimal → Flag →
    State × List ExecutionReport
  cancelOrder : State → UInt64 → State × List ExecutionReport
  toString : State → List Char

/-- An order in the engine's units, under its own identifier. -/
def restingOrder (id : UInt64) (qty price : Decimal) :
    Resting UInt64 Nat where
  id := id
  price := price.toNat
  qty := qty.toNat

/-- The notification of a fill. -/
def tradeOf (taker : UInt64) (fill : Fill UInt64 Nat) : ExecutionReport :=
  .trade fill.maker.id taker (UInt64.ofNat fill.qty)
    (UInt64.ofNat fill.maker.price)

/-- A level of whole ticks in the engine's units. -/
def scaledLevel (level : Nat × Nat) : Nat × Nat :=
  (scale * level.1, scale * level.2)

/--
The engine is a price-time matcher at the maker's price: `addOrder` reports New
before one Trade per fill and queues the rest of an order unless it is
immediate-or-cancel, `cancelOrder` withdraws a resting order and reports its
open quantity, and the dump prints the levels of both sides while their totals
fit a `Decimal`.
-/
structure Core.Correct
    (core : Core) (ladders : core.State → Sides UInt64 Nat) : Prop where
  ladders_init : ladders core.init = fun _ => []
  addOrder : ∀ st id side qty price flag, ¬Rests (ladders st) id →
    0 < qty → 0 < price →
      let result := core.addOrder st id side qty price flag
      ladders result.1 =
          submitted (ladders st) side (restingOrder id qty price)
            (flag = .none) ∧
        result.2 =
          .new :: (cross (ladders st) side price.toNat qty.toNat).fills.map
            (tradeOf id)
  cancelOrder : ∀ st side o, o ∈ ladders st side →
    ladders (core.cancelOrder st o.id).1 = withdrawn (ladders st) o.id ∧
      (core.cancelOrder st o.id).2 = [.canceled (UInt64.ofNat o.qty)]
  cancelUnknown : ∀ st id, ¬Rests (ladders st) id →
    ladders (core.cancelOrder st id).1 = ladders st ∧
      (core.cancelOrder st id).2 = [.rejected]
  toString : ∀ st bids asks,
    levels (ladders st .buy) = bids.map scaledLevel →
      levels (ladders st .sell) = asks.map scaledLevel →
        (∀ level ∈ bids ++ asks, scale * level.2 < 2 ^ 64) →
          core.toString st = dump bids asks

/-! ## Decimal conversions -/

/-- `toDecPrice`. -/
def toDecPrice (ticks : Int64) : Decimal :=
  if ticks ≤ 0 then 0 else Decimal.ofInt ticks.toUInt64

/-- `toDecQty`. -/
def toDecQty (q : UInt32) : Decimal :=
  Decimal.ofInt q.toUInt64

/-- `fromDecPrice`. -/
def fromDecPrice (d : Decimal) : Int64 :=
  d.toInt.toInt64

/-- `fromDecQty`. -/
def fromDecQty (d : Decimal) : UInt32 :=
  if d.toInt > UInt64.ofNat (2 ^ 32 - 1) then UInt32.ofNat (2 ^ 32 - 1)
  else d.toInt.toUInt32

/-! ## State -/

/-- A slot of the shadow. -/
structure Shadow where
  price : Int64
  remaining : UInt32
  /-- 0 = buy, 1 = sell. -/
  side : UInt8
  alive : Bool
deriving DecidableEq, Repr

/-- `Shadow{}`. -/
def emptyShadow : Shadow where
  price := 0
  remaining := 0
  side := 0
  alive := false

/-- The engine and the adapter's shadow. -/
structure State (core : Core) where
  book : core.State
  shadow : List Shadow

/-- `kShadowInit`. -/
def kShadowInit : Nat := 2 ^ 22

/-- `engine_init`. -/
def engineInit (core : Core) : State core where
  book := core.init
  shadow := resize [] kShadowInit emptyShadow

/-- `max_size` of a vector of such slots, which have 16 bytes. -/
def maxSize : Nat := (2 ^ 63 - 1) / 16

/--
`shadowSlot`: the shadow with a slot for an identifier.  `resize` throws beyond
`max_size`; the new size wraps for the last identifier, and the slot is then
past the end.
-/
def shadowSlot (shadow : List Shadow) (oid : UInt64) : Option (List Shadow) :=
  if oid.toNat ≥ shadow.length then
    let size := (oid + 1).toNat
    if size > maxSize ∨ size ≤ oid.toNat then none
    else some (resize shadow size emptyShadow)
  else
    some shadow

/-- Change the slot of an identifier, growing the shadow if needed. -/
def writeSlot (shadow : List Shadow) (oid : UInt64) (change : Shadow → Shadow) :
    Option (List Shadow) :=
  (shadowSlot shadow oid).map fun grown => update grown oid.toNat change

/-! ## Notifications -/

/-- The globals the notification handler writes, and its reports. -/
structure Call where
  shadow : List Shadow
  takerFill : UInt64
  cancelOK : Bool
  cancelQty : UInt64
  reports : List Report

/-- The globals as a handler sets them before it calls the engine. -/
def startCall (shadow : List Shadow) : Call where
  shadow := shadow
  takerFill := 0
  cancelOK := false
  cancelQty := 0
  reports := []

/-- `emitTrade`. -/
def emitTrade
    (seq makerId takerId : UInt64) (price : Int64) (qty : UInt32) : Report where
  type := meTrade
  side := 0
  sequenceNumber := seq
  orderId := makerId
  priceTicks := price
  quantity := qty
  makerOrderId := makerId
  takerOrderId := takerId

/-- What a fill does to its maker's slot. -/
def reduceShadow (q : UInt32) (e : Shadow) : Shadow :=
  let rem := if e.remaining ≥ q then e.remaining - q else 0
  { e with
    remaining := rem
    alive := if rem = 0 then false else e.alive }

/-- `HarnessNotification::onExecutionReport`. -/
def onExecutionReport (curSeq : UInt64) (call : Call) :
    ExecutionReport → Option Call
  | .trade maker taker lastQty lastPrice =>
      let q := fromDecQty lastQty
      let p := fromDecPrice lastPrice
      (writeSlot call.shadow maker (reduceShadow q)).map fun shadow =>
        { call with
          shadow := shadow
          takerFill := call.takerFill + q.toUInt64
          reports := call.reports ++ [emitTrade curSeq maker taker p q] }
  | .canceled qty =>
      some
        { call with
          cancelOK := true
          cancelQty := (fromDecQty qty).toUInt64 }
  | .rejected => some call
  | .new => some call

/-- `gBook->addOrder`, with the notifications it sends. -/
def addOrder
    {core : Core} (st : State core) (seq oid : UInt64) (side : Side)
    (qty : UInt32) (price : Int64) (flag : Flag) :
    Option (core.State × Call) :=
  let (book, events) :=
    core.addOrder st.book oid side (toDecQty qty) (toDecPrice price) flag
  (events.foldlM (onExecutionReport seq) (startCall st.shadow)).map
    fun call => (book, call)

/-- `gBook->cancelOrder`, with the notification it sends. -/
def cancelOrder {core : Core} (st : State core) (seq oid : UInt64) :
    Option (core.State × Call) :=
  let (book, events) := core.cancelOrder st.book oid
  (events.foldlM (onExecutionReport seq) (startCall st.shadow)).map
    fun call => (book, call)

/-- The quantity a taker has left. -/
def residualOf (filled : UInt64) (qty : UInt32) : UInt32 :=
  if filled < qty.toUInt64 then (qty.toUInt64 - filled).toUInt32 else 0

/-- The slot of an order with a remainder that may rest. -/
def placed (price : Int64) (side : UInt8) (residual : UInt32) : Shadow where
  price := price
  remaining := residual
  side := side
  alive := residual > 0

/-! ## Handlers -/

/-- `onNewOrder`. -/
def onNewOrder {core : Core} (st : State core) (o : NewOrder) :
    Option (State core × List Report) :=
  let ack := ackReport meOrderAck o.sequenceNumber o.orderId o.side
    o.priceTicks o.quantity
  let sideT := if o.side = 0 then Side.buy else Side.sell
  let flag := if o.ioc ≠ 0 then Flag.ioC else Flag.none
  (addOrder st o.sequenceNumber o.orderId sideT o.quantity o.priceTicks
      flag).bind fun (book, call) =>
    let residual := residualOf call.takerFill o.quantity
    if o.ioc ≠ 0 then
      some
        ({ book := book, shadow := call.shadow },
          ack :: call.reports ++
            if residual > 0 then
              [ackReport meCancelAck o.sequenceNumber o.orderId o.side
                o.priceTicks residual]
            else
              [])
    else
      (writeSlot call.shadow o.orderId
          fun _ => placed o.priceTicks o.side residual).map fun shadow =>
        ({ book := book, shadow := shadow }, ack :: call.reports)

/-- `onCancel`. -/
def onCancel {core : Core} (st : State core) (c : Cancel) :
    Option (State core × List Report) :=
  (cancelOrder st c.sequenceNumber c.orderId).bind fun (book, call) =>
    if call.cancelOK then
      (shadowSlot call.shadow c.orderId).bind fun shadow =>
        (shadow[c.orderId.toNat]?).map fun e =>
          ({ book := book
             shadow := update shadow c.orderId.toNat
               fun e => { e with alive := false } },
            [ackReport meCancelAck c.sequenceNumber c.orderId e.side e.price
              call.cancelQty.toUInt32])
    else
      some
        ({ book := book, shadow := call.shadow },
          [ackReport meCancelReject c.sequenceNumber c.orderId 0 0 0])

/-- `onModify`. -/
def onModify {core : Core} (st : State core) (m : Modify) :
    Option (State core × List Report) :=
  (cancelOrder st m.sequenceNumber m.orderId).bind fun (book, call) =>
    if call.cancelOK then
      (shadowSlot call.shadow m.orderId).bind fun shadow =>
        (shadow[m.orderId.toNat]?).bind fun e =>
          let ack := ackReport meModifyAck m.sequenceNumber m.orderId e.side
            m.newPriceTicks m.newQuantity
          let sideT := if e.side = 0 then Side.buy else Side.sell
          let st : State core := { book := book, shadow := shadow }
          (addOrder st m.sequenceNumber m.orderId sideT m.newQuantity
              m.newPriceTicks Flag.none).bind fun (book, call) =>
            let residual := residualOf call.takerFill m.newQuantity
            (writeSlot call.shadow m.orderId
                fun _ => placed m.newPriceTicks e.side residual).map
              fun shadow =>
                ({ book := book, shadow := shadow }, ack :: call.reports)
    else
      some
        ({ book := book, shadow := call.shadow },
          [ackReport meModifyReject m.sequenceNumber m.orderId 0 0 0])

/-- Process one message. -/
def step {core : Core} (st : State core) :
    Msg → Option (State core × List Report)
  | .newOrder o => onNewOrder st o
  | .cancel c => onCancel st c
  | .modify m => onModify st m

/-! ## Queries -/

/-- `engine_query_best_bid`. -/
def engineQueryBestBid {core : Core} (st : State core) : Int64 :=
  match parseBidLevel (splitBidAsk (firstLine (core.toString st.book))).1 with
  | some (price, _) => price
  | none => int64Min

/-- `engine_query_best_ask`. -/
def engineQueryBestAsk {core : Core} (st : State core) : Int64 :=
  match parseAskLevel (splitBidAsk (firstLine (core.toString st.book))).2 with
  | some (price, _) => price
  | none => int64Max

/-- `engine_query_depth_at`. -/
def engineQueryDepthAt
    {core : Core} (st : State core) (priceTicks : Int64) (side : UInt8) :
    UInt64 :=
  (lines (core.toString st.book)).foldl
    (fun total line =>
      match parseLine side line with
      | some (lvlPrice, lvlQty) =>
          if lvlPrice = priceTicks then total + lvlQty else total
      | none => total)
    0

end MatchingBench.Oracles.CppOrderbook
