import MatchingBench.Api
import MatchingBench.Lib.Ladders
import MatchingBench.Lib.Levels
import MatchingBench.Lib.Tables
import Mathlib.Data.Int.Order.Basic

/-!
# The hroptatyr/clob adapter

`hroptatyr_clob_adapter/hroptatyr_clob_adapter.c`.  The engine behind it is a
parameter; the adapter keeps the handle of each order and a liveness bit,
indexed by its identifier.  The memory that is asked for is taken to be there;
a step yields `none` where the loop that sizes the shadow does not end, and
where the byte size of the shadow wraps, so that too little is asked for.
-/

set_option autoImplicit false

namespace MatchingBench.Oracles.HroptatyrClob

open MatchingBench.Api
open MatchingBench.Lib.PriceTime
open MatchingBench.Lib.Ladders
open MatchingBench.Lib.Levels
open MatchingBench.Lib.Tables

/-! ## Numbers -/

/-- `_Decimal64`, of which only integers occur. -/
abbrev Decimal64 := Int

/-- The nearest multiple of a unit, half to even. -/
def roundTo (unit : Nat) (v : Int) : Int :=
  let down := v / unit
  let rest := v % unit
  if 2 * rest < unit ∨ (2 * rest = unit ∧ down % 2 = 0) then down * unit
  else (down + 1) * unit

/-- `to_dec`: sixteen digits are kept. -/
def toDec (v : Int64) : Decimal64 :=
  let size := v.toInt.natAbs
  if size < 10 ^ 16 then v.toInt
  else if size < 10 ^ 17 then roundTo 10 v.toInt
  else if size < 10 ^ 18 then roundTo 100 v.toInt
  else roundTo 1000 v.toInt

/-- `to_i64`. -/
def toI64 (v : Decimal64) : Int64 :=
  Int64.ofInt v

/-! ## The engine -/

/-- `qty_t`: displayed and hidden quantity. -/
structure Qty where
  dis : Decimal64
  hid : Decimal64
deriving DecidableEq, Repr

/-- `qty`: all of it. -/
def Qty.total (q : Qty) : Decimal64 :=
  q.dis + q.hid

/-- `clob_ord_t` of a limit order. -/
structure Ord where
  sid : Side
  qty : Qty
  lmt : Decimal64
  usr : UInt64
deriving DecidableEq, Repr

/-- `clob_oid_t` of a limit order. -/
structure Oid where
  sid : Side
  prc : Decimal64
  qid : Nat
  usr : UInt64
deriving DecidableEq, Repr

/-- One execution: its price and quantity, and the maker with its remainder. -/
structure Execution where
  prc : Decimal64
  qty : Decimal64
  maker : Oid
  makerLeft : Qty
deriving DecidableEq, Repr

/--
The engine: `unxsOrder` crosses an order and returns the rest of it and the
execution stream, `clobAdd` queues an order and returns its handle, `clobDel`
withdraws a handle, and `aggiter` lists the levels of a side.
-/
structure Core where
  State : Type
  /-- `sizeof(shadow_t)`: the engine's handle, and a word for the bit. -/
  sizeofShadow : UInt64
  init : State
  unxsOrder : State → Ord → State × Ord × List Execution
  clobAdd : State → Ord → State × Oid
  clobDel : State → Oid → State × Int
  aggiter : State → Side → List (Decimal64 × Qty)

/-- An execution as the engine records it. -/
def executionOf (fill : Fill Oid Decimal64) : Execution where
  prc := fill.maker.price
  qty := fill.qty
  maker := fill.maker.id
  makerLeft := { dis := fill.remaining, hid := 0 }

/-- An order as it rests under its handle. -/
def Ord.resting (o : Ord) (oid : Oid) : Resting Oid Decimal64 where
  id := oid
  price := o.lmt
  qty := o.qty.dis.toNat

/--
The engine is a price-time matcher at the maker's price over displayed
quantities: `unxsOrder` records one execution per fill, `clobAdd` gives a
handle that does not rest, stamped with the order's side, price and `usr`, and
`clobDel` withdraws a handle that rests.  What it does with any other handle
is left open.  A handle has no more than seven words.
-/
structure Core.Correct
    (core : Core) (ladders : core.State → Sides Oid Decimal64) : Prop where
  sizeofShadow : core.sizeofShadow.toNat ≤ 64
  ladders_init : ladders core.init = fun _ => []
  unxsOrder : ∀ st (o : Ord), o.qty.hid = 0 → 0 < o.qty.dis → 0 < o.lmt →
    let swept := cross (ladders st) o.sid o.lmt o.qty.dis.toNat
    let result := core.unxsOrder st o
    ladders result.1 = crossed (ladders st) o.sid o.lmt o.qty.dis.toNat ∧
      result.2.1 = { o with qty := { dis := swept.left, hid := 0 } } ∧
      result.2.2 = swept.fills.map executionOf
  clobAdd : ∀ st (o : Ord), o.qty.hid = 0 → 0 < o.qty.dis →
    let result := core.clobAdd st o
    ¬Rests (ladders st) result.2 ∧
      result.2.sid = o.sid ∧ result.2.prc = o.lmt ∧ result.2.usr = o.usr ∧
      ladders result.1 = queue (ladders st) o.sid (o.resting result.2)
  clobDel : ∀ st oid, Rests (ladders st) oid →
    ladders (core.clobDel st oid).1 = withdrawn (ladders st) oid ∧
      0 ≤ (core.clobDel st oid).2
  aggiter : ∀ st side,
    (∀ entry ∈ levels (ladders st side), entry.2 < 10 ^ 16) →
      core.aggiter st side =
        (levels (ladders st side)).map fun entry =>
          (entry.1, { dis := entry.2, hid := 0 })

/-! ## State -/

/-- `shadow_t`: the engine's handle, and whether the order rests. -/
structure Shadow where
  oid : Oid
  live : Bool
deriving DecidableEq, Repr

/-- A slot of zeros. -/
def zeroShadow : Shadow where
  oid := { sid := .sell, prc := 0, qid := 0, usr := 0 }
  live := false

/-- The engine's book and the adapter's shadow. -/
structure State (core : Core) where
  book : core.State
  shadow : List Shadow

/-- `engine_init`. -/
def engineInit (core : Core) : State core where
  book := core.init
  shadow := resize [] (2 ^ 21) zeroShadow

/-- The loop of `shadow_ensure`; `none` if it takes too many iterations. -/
def doubled : Nat → UInt64 → UInt64 → Option UInt64
  | 0, _, _ => none
  | fuel + 1, nuz, id =>
      if nuz ≤ id then doubled fuel (nuz * 2) id else some nuz

/-- `realloc` and `memset`: the new slots have to lie within the block. -/
def reallocated (sizeofShadow : UInt64) (shadow : List Shadow) (nuz : UInt64) :
    Option (List Shadow) :=
  if nuz.toNat * sizeofShadow.toNat ≤ (nuz * sizeofShadow).toNat then
    some (resize shadow nuz.toNat zeroShadow)
  else
    none

/--
`shadow_ensure`.  A size that has not passed the identifier after 64 doublings
has become zero and never will.
-/
def shadowEnsure (sizeofShadow : UInt64) (shadow : List Shadow) (id : UInt64) :
    Option (List Shadow) :=
  if id.toNat < shadow.length then
    some shadow
  else
    let nuz :=
      if shadow.length ≠ 0 then UInt64.ofNat shadow.length * 2
      else UInt64.ofNat (2 ^ 21)
    (doubled 65 nuz id).bind (reallocated sizeofShadow shadow)

/-- `engine_prebuild`. -/
def enginePrebuild {core : Core} (st : State core) (m : Msg) :
    Option (State core) :=
  (shadowEnsure core.sizeofShadow st.shadow m.orderId).map fun shadow =>
    { st with shadow := shadow }

/-- Pass messages to `engine_prebuild`. -/
def prebuildAll {core : Core} (st : State core) (msgs : List Msg) :
    Option (State core) :=
  msgs.foldlM enginePrebuild st

/-- Clear the liveness bit of an identifier within the shadow. -/
def clearLive (shadow : List Shadow) (id : UInt64) : List Shadow :=
  update shadow id.toNat fun s => { s with live := false }

/-- The slot of an identifier, if it is there and live. -/
def liveSlot (shadow : List Shadow) (id : UInt64) : Option Shadow :=
  (shadow[id.toNat]?).filter Shadow.live

/-! ## Executions -/

/-- The report of an execution. -/
def executionReport (takerSeq takerId : UInt64) (x : Execution) : Report where
  type := meTrade
  side := 0
  sequenceNumber := takerSeq
  orderId := takerId
  priceTicks := toI64 x.prc
  quantity := (toI64 x.qty).toUInt64.toUInt32
  makerOrderId := x.maker.usr
  takerOrderId := takerId

/-- Clear the liveness of a maker that an execution has used up. -/
def clearFilled (shadow : List Shadow) (x : Execution) : List Shadow :=
  if toI64 x.makerLeft.total ≤ 0 then clearLive shadow x.maker.usr else shadow

/-- `drain_executions`. -/
def drainExecutions
    (takerSeq takerId : UInt64) (shadow : List Shadow)
    (exe : List Execution) : List Shadow × List Report :=
  (exe.foldl clearFilled shadow, exe.map (executionReport takerSeq takerId))

/-- The order `cross_and_rest` hands to the engine. -/
def crossingOrder (id : UInt64) (side : UInt8) (price : Int64)
    (quan : UInt32) : Ord where
  sid := if side ≠ 0 then .sell else .buy
  qty := { dis := toDec quan.toUInt64.toInt64, hid := toDec 0 }
  lmt := toDec price
  usr := id

/-- `cross_and_rest`. -/
def crossAndRest
    {core : Core} (st : State core) (seq id : UInt64) (side : UInt8)
    (price : Int64) (quan : UInt32) (ioc : UInt8) :
    Option (State core × List Report) :=
  let (book, rem, exe) :=
    core.unxsOrder st.book (crossingOrder id side price quan)
  let (shadow, trades) := drainExecutions seq id st.shadow exe
  let left := toI64 rem.qty.total
  if left ≤ 0 then
    some ({ book := book, shadow := clearLive shadow id }, trades)
  else if ioc ≠ 0 then
    some
      ({ book := book, shadow := clearLive shadow id },
        trades ++
          [ackReport meCancelAck seq id side price left.toUInt64.toUInt32])
  else
    let (book, oid) := core.clobAdd book rem
    (shadowEnsure core.sizeofShadow shadow id).map fun shadow =>
      ({ book := book
         shadow := update shadow id.toNat
           fun _ => { oid := oid, live := true } },
        trades)

/-! ## Handlers -/

/-- `engine_on_new_order`. -/
def engineOnNewOrder {core : Core} (st : State core) (o : NewOrder) :
    Option (State core × List Report) :=
  (crossAndRest st o.sequenceNumber o.orderId o.side o.priceTicks o.quantity
      o.ioc).map fun (st, reports) =>
    (st,
      ackReport meOrderAck o.sequenceNumber o.orderId o.side o.priceTicks
        o.quantity :: reports)

/-- `engine_on_cancel`. -/
def engineOnCancel {core : Core} (st : State core) (c : Cancel) :
    State core × List Report :=
  let reject := ackReport meCancelReject c.sequenceNumber c.orderId 0 0 0
  match liveSlot st.shadow c.orderId with
  | none => (st, [reject])
  | some s =>
      let (book, rc) := core.clobDel st.book s.oid
      let st : State core :=
        { book := book, shadow := clearLive st.shadow c.orderId }
      if rc < 0 then
        (st, [reject])
      else
        (st,
          [ackReport meCancelAck c.sequenceNumber c.orderId
            (if s.oid.sid = .sell then 1 else 0) (toI64 s.oid.prc) 0])

/-- `engine_on_modify`. -/
def engineOnModify {core : Core} (st : State core) (m : Modify) :
    Option (State core × List Report) :=
  match liveSlot st.shadow m.orderId with
  | none =>
      some (st, [ackReport meModifyReject m.sequenceNumber m.orderId 0 0 0])
  | some s =>
      let st : State core :=
        { book := (core.clobDel st.book s.oid).1
          shadow := clearLive st.shadow m.orderId }
      (crossAndRest st m.sequenceNumber m.orderId m.side m.newPriceTicks
          m.newQuantity 0).map fun (st, reports) =>
        (st,
          reports ++
            [ackReport meModifyAck m.sequenceNumber m.orderId m.side
              m.newPriceTicks m.newQuantity])

/-- Process one message. -/
def step {core : Core} (st : State core) :
    Msg → Option (State core × List Report)
  | .newOrder o => engineOnNewOrder st o
  | .cancel c => some (engineOnCancel st c)
  | .modify m => engineOnModify st m

/-! ## Queries -/

/-- `engine_query_best_bid`. -/
def engineQueryBestBid {core : Core} (st : State core) : Int64 :=
  match (core.aggiter st.book .buy).head? with
  | some i => toI64 i.1
  | none => int64Min

/-- `engine_query_best_ask`. -/
def engineQueryBestAsk {core : Core} (st : State core) : Int64 :=
  match (core.aggiter st.book .sell).head? with
  | some i => toI64 i.1
  | none => int64Max

/-- `engine_query_depth_at`. -/
def engineQueryDepthAt
    {core : Core} (st : State core) (priceTicks : Int64) (side : UInt8) :
    UInt64 :=
  let sid := if side ≠ 0 then Side.sell else Side.buy
  match (core.aggiter st.book sid).find? (toI64 ·.1 = priceTicks) with
  | some i => (toI64 i.2.total).toUInt64
  | none => 0

end MatchingBench.Oracles.HroptatyrClob
