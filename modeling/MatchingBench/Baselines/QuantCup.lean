import MatchingBench.Api
import MatchingBench.Lib.Ladders
import MatchingBench.Lib.Tables
import Mathlib.Data.Nat.Basic

/-!
# The QuantCup adapter

`adapters/quantcup_adapter.cpp`.  The engine behind it is a parameter; the
adapter keeps a shadow of every order, the native orders built before the
timed window and two cursors into them.  A step yields `none` where the
adapter aborts or reads or writes past the end of a table.
-/

set_option autoImplicit false

namespace MatchingBench.Baselines.QuantCup

open MatchingBench.Api
open MatchingBench.Lib.PriceTime
open MatchingBench.Lib.Ladders
open MatchingBench.Lib.Tables

/-! ## Native records -/

/-- `Field`: four characters. -/
structure Field where
  c0 : UInt8
  c1 : UInt8
  c2 : UInt8
  c3 : UInt8
deriving DecidableEq, Repr, Inhabited

/-- `encode_id`. -/
def encodeId (id : UInt64) : Field where
  c0 := (id &&& 0xFF).toUInt8
  c1 := ((id >>> 8) &&& 0xFF).toUInt8
  c2 := ((id >>> 16) &&& 0xFF).toUInt8
  c3 := ((id >>> 24) &&& 0xFF).toUInt8

/-- `decode_id`. -/
def decodeId (f : Field) : UInt64 :=
  f.c0.toUInt64 ||| f.c1.toUInt64 <<< 8 ||| f.c2.toUInt64 <<< 16 |||
    f.c3.toUInt64 <<< 24

/-- `t_order`. -/
structure TOrder where
  symbol : Field
  trader : Field
  /-- 0 = buy, 1 = sell. -/
  side : Nat
  price : UInt32
  size : Nat
deriving DecidableEq, Repr

/-- `t_execution`. -/
structure TExecution where
  symbol : Field
  trader : Field
  side : Nat
  price : UInt32
  size : Nat
deriving DecidableEq, Repr

/-! ## The engine -/

/--
The engine: `limit` returns the order's handle and reports its executions in
order, `cancel` takes a handle.
-/
structure Core where
  State : Type
  init : State
  limit : State → TOrder → State × Nat × List TExecution
  cancel : State → Nat → State

/-- `OB::kNumPricePoints`. -/
def kNumPricePoints : Nat := 262144

/-- The side of a `t_side`. -/
def tSide (side : Nat) : Side :=
  if side = 0 then .buy else .sell

/-- The native order as it rests, named by its handle and trader. -/
def TOrder.resting (order : TOrder) (handle : Nat) :
    Resting (Nat × Field) Nat where
  id := (handle, order.trader)
  price := order.price.toNat
  qty := order.size

/-- The report of a fill to the incoming order. -/
def takerExecution
    (order : TOrder) (fill : Fill (Nat × Field) Nat) : TExecution where
  symbol := order.symbol
  trader := order.trader
  side := order.side
  price := UInt32.ofNat fill.maker.price
  size := fill.qty

/-- The report of a fill to the resting order. -/
def makerExecution
    (order : TOrder) (fill : Fill (Nat × Field) Nat) : TExecution where
  symbol := order.symbol
  trader := fill.maker.id.2
  side := 1 - order.side
  price := UInt32.ofNat fill.maker.price
  size := fill.qty

/-- Every fill is reported once per side, in either order. -/
inductive OncePerSide (order : TOrder) :
    List (Fill (Nat × Field) Nat) → List TExecution → Prop where
  | nil : OncePerSide order [] []
  | cons {fill : Fill (Nat × Field) Nat} {pair : List TExecution}
      {fills : List (Fill (Nat × Field) Nat)} {executions : List TExecution}
      (both : pair.Perm
        [takerExecution order fill, makerExecution order fill])
      (rest : OncePerSide order fills executions) :
      OncePerSide order (fill :: fills) (pair ++ executions)

/--
The engine is a price-time matcher at the maker's price: `limit` trades an
order and queues the rest of it under a new handle, without an IOC option, and
`cancel` withdraws a resting order.  It serves prices of its array and one
`limit` call less than its arena has slots.
-/
structure Core.Correct
    (core : Core) (kMaxNumOrders : Nat)
    (ladders : core.State → Sides (Nat × Field) Nat)
    (calls : core.State → Nat) : Prop where
  ladders_init : ladders core.init = fun _ => []
  calls_init : calls core.init = 0
  limit : ∀ st order, calls st + 1 < kMaxNumOrders → order.side ≤ 1 →
    1 ≤ order.price.toNat → order.price.toNat < kNumPricePoints →
    0 < order.size →
      let side := tSide order.side
      let result := core.limit st order
      ladders result.1 =
          submitted (ladders st) side (order.resting result.2.1) true ∧
        calls result.1 = calls st + 1 ∧
        OncePerSide order
          (cross (ladders st) side order.price.toNat order.size).fills
          result.2.2 ∧
        ∀ trader, ¬Rests (ladders st) (result.2.1, trader)
  cancel : ∀ st handle trader, Rests (ladders st) (handle, trader) →
    ladders (core.cancel st handle) =
        withdrawn (ladders st) (handle, trader) ∧
      calls (core.cancel st handle) = calls st

/-! ## State -/

/-- `OrderState`. -/
structure OrderState where
  price : Int64
  /-- Current resting quantity. -/
  qty : UInt32
  /-- 0 = buy, 1 = sell. -/
  side : UInt8
  alive : Bool
  qcid : Nat
deriving DecidableEq, Repr

/-- A value-initialised slot. -/
def OrderState.zero : OrderState where
  price := 0
  qty := 0
  side := 0
  alive := false
  qcid := 0

/-- The engine and the adapter's globals. -/
structure State (core : Core) where
  book : core.State
  orders : List OrderState
  pre : List TOrder
  preIdx : Nat
  preModify : List TOrder
  preModifyIdx : Nat
  limitCalls : Nat

/-- `engine_init`. -/
def engineInit (core : Core) : State core where
  book := core.init
  orders := resize [] (2 ^ 21) OrderState.zero
  pre := []
  preIdx := 0
  preModify := []
  preModifyIdx := 0
  limitCalls := 0

/-- `find_order`. -/
def findOrder (orders : List OrderState) (extId : UInt64) :
    Option OrderState :=
  orders[extId.toNat]?

/-- `QC_PRICE_MIN` to `QC_PRICE_MAX`. -/
def QcPrice (price : Int64) : Prop :=
  1 ≤ price.toInt ∧ price.toInt ≤ kNumPricePoints - 1

instance : DecidablePred QcPrice :=
  fun _ => inferInstanceAs (Decidable (_ ∧ _))

/-! ## Prebuilding -/

/-- The native order of a message's order data. -/
def prebuilt
    (orderId : UInt64) (side : UInt8) (price : Int64) (quantity : UInt32) :
    TOrder where
  symbol := default
  trader := encodeId orderId
  side := if side = 0 then 0 else 1
  price := price.toUInt64.toUInt32
  size := quantity.toNat

/-- `check_qc_arena`: `none` is the abort. -/
def checkQcArena {core : Core} (kMaxNumOrders : Nat) (st : State core) :
    Option (State core) :=
  if st.limitCalls + 1 ≥ kMaxNumOrders then none
  else some { st with limitCalls := st.limitCalls + 1 }

/-- `engine_prebuild`. -/
def enginePrebuild {core : Core} (kMaxNumOrders : Nat) (st : State core) :
    Msg → Option (State core)
  | .newOrder o =>
      if QcPrice o.priceTicks then
        (checkQcArena kMaxNumOrders st).map fun st =>
          { st with
            pre := st.pre ++
              [prebuilt o.orderId o.side o.priceTicks o.quantity]
            orders :=
              if o.orderId.toNat ≥ st.orders.length then
                resize st.orders
                  (max (st.orders.length * 2) (o.orderId + 1).toNat)
                  OrderState.zero
              else
                st.orders }
      else
        none
  | .cancel _ => some st
  | .modify m =>
      (checkQcArena kMaxNumOrders st).map fun st =>
        { st with
          preModify := st.preModify ++
            [prebuilt m.orderId m.side m.newPriceTicks m.newQuantity] }

/-- Pass a whole workload to `engine_prebuild`. -/
def prebuildAll {core : Core} (kMaxNumOrders : Nat) :
    State core → List Msg → Option (State core)
  | st, [] => some st
  | st, m :: rest =>
      (enginePrebuild kMaxNumOrders st m).bind fun st =>
        prebuildAll kMaxNumOrders st rest

/-! ## The fill callback -/

/-- The globals the callback writes, and the reports pushed so far. -/
structure Matching where
  orders : List OrderState
  takerLeft : UInt32
  reports : List Report

/-- Decrement a maker's shadow. -/
def OrderState.fill (s : OrderState) (qty : UInt32) : OrderState :=
  if s.qty > qty then { s with qty := s.qty - qty }
  else { s with qty := 0, alive := false }

/-- `execution`. -/
def execution
    (seq takerId : UInt64) (takerSide : UInt8) (m : Matching)
    (exec : TExecution) : Matching :=
  let takerIsBuy := takerSide = 0
  let makerCall := if takerIsBuy then exec.side = 1 else exec.side = 0
  if makerCall then
    let makerId := decodeId exec.trader
    let qty := UInt32.ofNat exec.size
    { reports := m.reports ++
        [{ type := meTrade
           side := 0
           sequenceNumber := seq
           orderId := 0
           priceTicks := Int64.ofNat exec.price.toNat
           quantity := qty
           makerOrderId := makerId
           takerOrderId := takerId }]
      takerLeft :=
        if m.takerLeft ≥ qty then m.takerLeft - qty else m.takerLeft
      orders := update m.orders makerId.toNat fun s => s.fill qty }
  else
    m

/-- `limit`, with its callbacks. -/
def limit
    {core : Core} (st : State core) (seq takerId : UInt64)
    (takerSide : UInt8) (takerLeft : UInt32) (order : TOrder) :
    core.State × Nat × Matching :=
  let (book, qcid, executions) := core.limit st.book order
  (book, qcid,
    executions.foldl (execution seq takerId takerSide)
      { orders := st.orders, takerLeft := takerLeft, reports := [] })

/-! ## Handlers -/

/-- `engine_on_new_order`. -/
def engineOnNewOrder {core : Core} (st : State core) (o : NewOrder) :
    Option (State core × List Report) :=
  let ack := ackReport meOrderAck o.sequenceNumber o.orderId o.side
    o.priceTicks o.quantity
  match st.pre[st.preIdx]? with
  | none => none
  | some order =>
      let (book, qcid, m) :=
        limit st o.sequenceNumber o.orderId o.side o.quantity order
      let st := { st with
        book := book, orders := m.orders, preIdx := st.preIdx + 1 }
      if o.ioc ≠ 0 then
        if m.takerLeft > 0 then
          some ({ st with book := core.cancel st.book qcid },
            ack :: m.reports ++
              [ackReport meCancelAck o.sequenceNumber o.orderId o.side
                o.priceTicks m.takerLeft])
        else
          some (st, ack :: m.reports)
      else if m.takerLeft > 0 then
        (store st.orders o.orderId.toNat
          { price := o.priceTicks, qty := m.takerLeft, side := o.side
            alive := true, qcid := qcid }).map fun orders =>
          ({ st with orders := orders }, ack :: m.reports)
      else
        some (st, ack :: m.reports)

/-- `engine_on_cancel`. -/
def engineOnCancel {core : Core} (st : State core) (c : Cancel) :
    State core × List Report :=
  let reject :=
    (st, [ackReport meCancelReject c.sequenceNumber c.orderId 0 0 0])
  match findOrder st.orders c.orderId with
  | some s =>
      if s.alive then
        ({ st with
            book := core.cancel st.book s.qcid
            orders := update st.orders c.orderId.toNat fun s =>
              { s with alive := false, qty := 0 } },
          [ackReport meCancelAck c.sequenceNumber c.orderId s.side s.price
            0])
      else
        reject
  | none => reject

/-- `engine_on_modify`. -/
def engineOnModify {core : Core} (st : State core) (m : Modify) :
    Option (State core × List Report) :=
  match st.preModify[st.preModifyIdx]? with
  | none => none
  | some order =>
      let st := { st with preModifyIdx := st.preModifyIdx + 1 }
      let reject :=
        some (st, [ackReport meModifyReject m.sequenceNumber m.orderId 0 0 0])
      match findOrder st.orders m.orderId with
      | some s =>
          if s.alive then
            if QcPrice m.newPriceTicks then
              let st := { st with book := core.cancel st.book s.qcid }
              let (book, qcid, matched) :=
                limit st m.sequenceNumber m.orderId m.side m.newQuantity order
              let orders := update matched.orders m.orderId.toNat fun s =>
                if matched.takerLeft > 0 then
                  { price := m.newPriceTicks, qty := matched.takerLeft
                    side := m.side, alive := true, qcid := qcid }
                else
                  { s with alive := false }
              some ({ st with book := book, orders := orders },
                matched.reports ++
                  [ackReport meModifyAck m.sequenceNumber m.orderId m.side
                    m.newPriceTicks m.newQuantity])
            else
              none
          else
            reject
      | none => reject

/-- Dispatch of one message. -/
def step {core : Core} (st : State core) :
    Msg → Option (State core × List Report)
  | .newOrder o => engineOnNewOrder st o
  | .cancel c => some (engineOnCancel st c)
  | .modify m => engineOnModify st m

/-! ## Queries -/

/-- `engine_query_best_bid`. -/
def engineQueryBestBid {core : Core} (st : State core) : Int64 :=
  st.orders.foldl
    (fun best s =>
      if s.alive && s.side == 0 && decide (s.price > best) then s.price
      else best)
    int64Min

/-- `engine_query_best_ask`. -/
def engineQueryBestAsk {core : Core} (st : State core) : Int64 :=
  st.orders.foldl
    (fun best s =>
      if s.alive && s.side == 1 && decide (s.price < best) then s.price
      else best)
    int64Max

/-- `engine_query_depth_at`. -/
def engineQueryDepthAt
    {core : Core} (st : State core) (priceTicks : Int64) (side : UInt8) :
    UInt64 :=
  st.orders.foldl
    (fun total s =>
      if s.alive && s.side == side && s.price == priceTicks then
        total + s.qty.toUInt64
      else
        total)
    0

end MatchingBench.Baselines.QuantCup
