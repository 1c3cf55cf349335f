import MatchingBench.Api
import MatchingBench.Pgellert.FifoBook

/-!
# The pgellert adapter

`wrapper/src/lib.rs`: the FIFO book behind the engine ABI, with a shadow of
the liveness, side, price and open quantity of every order it has seen rest.
A handler yields the new state and the reports it pushed; `none` is a panic
inside the book.
-/

set_option autoImplicit false

namespace MatchingBench.Pgellert.Adapter

open MatchingBench.Api
open MatchingBench.Lib.Maps
open MatchingBench.Lib.PriceTime (Side)
open MatchingBench.Pgellert.FifoBook

/-! ## State -/

/-- `OrderShadow`. -/
structure OrderShadow where
  price : Int64
  qty : UInt32
  /-- 0 = buy, 1 = sell. -/
  side : UInt8
  alive : Bool
deriving DecidableEq, Repr

/-- `State`. -/
structure State where
  book : FIFOBook
  shadow : HashMap UInt64 OrderShadow

/-- The state `engine_init` installs. -/
def State.init : State where
  book := FIFOBook.new
  shadow := ∅

/-- `key`. -/
def key (orderId : UInt64) : OrderId :=
  (0, orderId)

/-- `pack_id`. -/
def packId (_clientId seqNumber : UInt64) : UInt64 :=
  seqNumber

/-- `as u64` of an `i64`. -/
def asU64 (price : Int64) : Nat :=
  price.toUInt64.toNat

/-- `as i64` of a `u64`. -/
def asI64 (price : Nat) : Int64 :=
  (UInt64.ofNat price).toInt64

/-- `if side == 0 { Side::Buy } else { Side::Sell }`. -/
def bookSide (side : UInt8) : Side :=
  if side = 0 then .buy else .sell

/-! ## Matching -/

/-- The accumulators of the loop over the trades. -/
structure Matching where
  shadow : HashMap UInt64 OrderShadow
  aggFilled : Nat
  reports : List Report

/-- The `(maker_price, maker_id, taker_id)` of a trade. -/
def makerOf (aggSide : UInt8) (trade : Trade) : Int64 × UInt64 × UInt64 :=
  if aggSide = 0 then
    (asI64 trade.ask.price,
      packId trade.ask.clientId trade.ask.seqNumber,
      packId trade.bid.clientId trade.bid.seqNumber)
  else
    (asI64 trade.bid.price,
      packId trade.bid.clientId trade.bid.seqNumber,
      packId trade.ask.clientId trade.ask.seqNumber)

/-- Decrement a maker's shadow; mark it dead when it is filled. -/
def OrderShadow.fill (sh : OrderShadow) (quantity : Nat) : OrderShadow :=
  if sh.qty.toNat > quantity then
    { sh with qty := sh.qty - UInt32.ofNat quantity }
  else
    { sh with qty := 0, alive := false }

/-- One iteration of the loop over the trades. -/
def Matching.onTrade
    (aggSeq : UInt64) (aggSide : UInt8) (m : Matching) (trade : Trade) :
    Matching :=
  let (makerPrice, makerId, takerId) := makerOf aggSide trade
  { aggFilled := m.aggFilled + trade.quantity
    shadow := m.shadow.modify makerId fun sh => sh.fill trade.quantity
    reports := m.reports ++
      [{ type := meTrade
         side := 0
         sequenceNumber := aggSeq
         orderId := 0
         priceTicks := makerPrice
         quantity := UInt32.ofNat trade.quantity
         makerOrderId := makerId
         takerOrderId := takerId }] }

/-- `match_aggressor`: the state, the Trade reports and the residual. -/
def matchAggressor
    (st : State) (aggSeq : UInt64) (aggSide : UInt8) (order : Order) :
    Option (State × List Report × UInt32) :=
  let aggTotal := order.size
  match (st.book.apply order).checkForTrades with
  | none => none
  | some (trades, book) =>
      let matched := trades.foldl (Matching.onTrade aggSeq aggSide)
        { shadow := st.shadow, aggFilled := 0, reports := [] }
      some ({ book := book, shadow := matched.shadow }, matched.reports,
        UInt32.ofNat (aggTotal - matched.aggFilled))

/-- `shadow.insert` of a resting residual. -/
def State.rest
    (st : State) (orderId : UInt64) (price : Int64) (residual : UInt32)
    (side : UInt8) : State :=
  { st with
    shadow := st.shadow.set orderId
      { price := price, qty := residual, side := side, alive := true } }

/-- Drop an order from the book and mark its shadow dead. -/
def State.kill (st : State) (orderId : UInt64) (side : Side) : State where
  book := (st.book.cancel (key orderId) side).2
  shadow := st.shadow.modify orderId fun sh =>
    { sh with alive := false, qty := 0 }

/-! ## Handlers -/

/-- `engine_on_new_order`. -/
def engineOnNewOrder (st : State) (o : NewOrder) :
    Option (State × List Report) :=
  let ack := ackReport meOrderAck o.sequenceNumber o.orderId o.side
    o.priceTicks o.quantity
  let side := bookSide o.side
  let (cid, seq) := key o.orderId
  let bookOrder : Order :=
    { clientId := cid
      seqNumber := seq
      price := asU64 o.priceTicks
      size := o.quantity.toNat
      side := side }
  match matchAggressor st o.sequenceNumber o.side bookOrder with
  | none => none
  | some (st, trades, residual) =>
      if o.ioc ≠ 0 then
        if residual > 0 then
          some
            ({ st with book := (st.book.cancel (key o.orderId) side).2 },
              ack :: trades ++
                [ackReport meCancelAck o.sequenceNumber o.orderId o.side
                  o.priceTicks residual])
        else
          some (st, ack :: trades)
      else if residual > 0 then
        some (st.rest o.orderId o.priceTicks residual o.side, ack :: trades)
      else
        some (st, ack :: trades)

/-- `engine_on_cancel`. -/
def engineOnCancel (st : State) (c : Cancel) : State × List Report :=
  match st.shadow.get c.orderId with
  | some sh =>
      if sh.alive then
        (st.kill c.orderId (bookSide sh.side),
          [ackReport meCancelAck c.sequenceNumber c.orderId sh.side sh.price
            0])
      else
        (st, [ackReport meCancelReject c.sequenceNumber c.orderId 0 0 0])
  | none => (st, [ackReport meCancelReject c.sequenceNumber c.orderId 0 0 0])

/-- `engine_on_modify`. -/
def engineOnModify (st : State) (m : Modify) :
    Option (State × List Report) :=
  let reject :=
    some (st, [ackReport meModifyReject m.sequenceNumber m.orderId 0 0 0])
  match st.shadow.get m.orderId with
  | none => reject
  | some sh =>
      if sh.alive then
        let oldSide := bookSide sh.side
        let st := st.kill m.orderId oldSide
        let ack := ackReport meModifyAck m.sequenceNumber m.orderId sh.side
          m.newPriceTicks m.newQuantity
        let bookOrder : Order :=
          { clientId := 0
            seqNumber := m.orderId
            price := asU64 m.newPriceTicks
            size := m.newQuantity.toNat
            side := oldSide }
        match matchAggressor st m.sequenceNumber sh.side bookOrder with
        | none => none
        | some (st, trades, residual) =>
            if residual > 0 then
              some (st.rest m.orderId m.newPriceTicks residual sh.side,
                ack :: trades)
            else
              some (st, ack :: trades)
      else
        reject

/-- Dispatch of one message. -/
def step (st : State) : Msg → Option (State × List Report)
  | .newOrder o => engineOnNewOrder st o
  | .cancel c => some (engineOnCancel st c)
  | .modify m => engineOnModify st m

/-! ## Queries -/

/-- `engine_query_best_bid`. -/
def engineQueryBestBid (st : State) : Int64 :=
  match st.book.bestBid with
  | some price => asI64 price
  | none => int64Min

/-- `engine_query_best_ask`. -/
def engineQueryBestAsk (st : State) : Int64 :=
  match st.book.bestAsk with
  | some price => asI64 price
  | none => int64Max

/-- `engine_query_depth_at`. -/
def engineQueryDepthAt
    (st : State) (priceTicks : Int64) (side : UInt8) : UInt64 :=
  if priceTicks < 0 then 0
  else st.book.depthAt (asU64 priceTicks) (bookSide side)

/-! ## The shadow's content -/

/-- The shadow record of an order that is alive. -/
def liveIn (shadow : HashMap UInt64 OrderShadow) (orderId : UInt64) :
    Option OrderShadow :=
  (shadow.get orderId).filter fun sh => sh.alive

end MatchingBench.Pgellert.Adapter
