import MatchingBench.Api
import MatchingBench.Lib.ByteBuffer

/-!
# The exchange-core adapter

`adapters/exchange_core_adapter.cpp` and `adapters/HarnessExchangeCore.java`.
The order book behind them is a parameter.  Reports cross between the two
sides in byte buffers of fixed size; a `put` past the end of one raises in
Java and the C++ side aborts, which is `none` here.  Offsets are taken not to
wrap: `40 * n` is below `2 ^ 31` for every batch that is handed over.
-/

set_option autoImplicit false

namespace MatchingBench.Baselines.ExchangeCore

open MatchingBench.Api
open MatchingBench.Lib.LittleEndian
open MatchingBench.Lib.ByteBuffer

/-! ## The order book -/

/-- `OrderAction`. -/
inductive OrderAction where
  | bid
  | ask
deriving DecidableEq, Repr

/-- `OrderType`, as far as it is used. -/
inductive OrderType where
  | ioc
  | gtc
deriving DecidableEq, Repr

/-- `OrderCommandType`, as far as it is used. -/
inductive OrderCommandType where
  | placeOrder
  | cancelOrder
deriving DecidableEq, Repr

/-- `CommandResultCode`: all failures are one. -/
inductive CommandResultCode where
  | validForMatchingEngine
  | success
  | failure
deriving DecidableEq, Repr

/-- `MatcherEventType`. -/
inductive MatcherEventType where
  | trade
  | reject
  | reduce
deriving DecidableEq, Repr

/-- `MatcherTradeEvent`; a chain of them is a list. -/
structure MatcherTradeEvent where
  eventType : MatcherEventType
  price : Int64
  size : Int64
  matchedOrderId : Int64
deriving DecidableEq, Repr

/-- `OrderCommand`, the one object that all commands go through. -/
structure OrderCommand where
  command : OrderCommandType
  orderId : Int64
  uid : Int64
  price : Int64
  reserveBidPrice : Int64
  size : Int64
  action : OrderAction
  orderType : OrderType
  resultCode : CommandResultCode
  matcherEvent : List MatcherTradeEvent
deriving DecidableEq, Repr

/--
`OrderBookDirectImpl`: a deterministic state machine that answers in the
command's own fields.
-/
structure Core where
  State : Type
  newOrder : State → OrderCommand → State × OrderCommand
  cancelOrder : State → OrderCommand → State × OrderCommand × CommandResultCode

/-! ## `HarnessExchangeCore` -/

/-- `TRADE_SIZE`. -/
def tradeSize : Nat := 40

/-- `UID`. -/
def uid : Int64 := 1001

/-- The Java object: the book, the command and the two output buffers. -/
structure Helper (core : Core) where
  book : core.State
  cmd : OrderCommand
  tradeBuf : List UInt8
  outB : List UInt8

/-- `putLong`. -/
def longBytes (value : Int64) : List UInt8 :=
  encode 8 value.toUInt64.toNat

/-- `putInt`. -/
def intBytes (value : Int32) : List UInt8 :=
  encode 4 value.toUInt32.toNat

/-- The command for a new order. -/
def placeCommand
    (cmd : OrderCommand) (orderId price : Int64) (qty side : Int32)
    (orderType : OrderType) : OrderCommand :=
  { cmd with
    command := .placeOrder
    orderId := orderId
    uid := uid
    price := price
    reserveBidPrice := price
    size := qty.toInt64
    action := if side = 0 then .bid else .ask
    orderType := orderType
    resultCode := .validForMatchingEngine
    matcherEvent := [] }

/-- The command for a cancel; the other fields are left as they are. -/
def cancelCommand (cmd : OrderCommand) (orderId : Int64) : OrderCommand :=
  { cmd with
    command := .cancelOrder
    orderId := orderId
    uid := uid
    resultCode := .validForMatchingEngine
    matcherEvent := [] }

/-- The type of an order by its flag. -/
def orderTypeOf (ioc : Int32) : OrderType :=
  if ioc = 1 then .ioc else .gtc

/-- The puts of one fill record at an offset. -/
def stageWrites
    (takerId seq : Int64) (evt : MatcherTradeEvent) (off : Nat) :
    List (Nat × List UInt8) :=
  [(off, longBytes seq),
    (off + 8, longBytes evt.price),
    (off + 16, intBytes evt.size.toInt32),
    (off + 24, longBytes evt.matchedOrderId),
    (off + 32, longBytes takerId)]

/-- `writeTrades` from the `n`-th record on: the buffer and the count. -/
def writeTrades (takerId seq : Int64) :
    List UInt8 → Nat → List MatcherTradeEvent → Option (List UInt8 × Nat)
  | tradeBuf, n, [] => some (tradeBuf, n)
  | tradeBuf, n, evt :: events =>
      if evt.eventType ≠ .trade then writeTrades takerId seq tradeBuf n events
      else
        (putAll tradeBuf
          (stageWrites takerId seq evt (n * tradeSize))).bind fun tradeBuf =>
          writeTrades takerId seq tradeBuf (n + 1) events

/-- `onNew`. -/
def onNew
    (core : Core) (helper : Helper core) (orderId seq price : Int64)
    (qty side ioc : Int32) : Option (Helper core × Int) :=
  let (book, cmd) := core.newOrder helper.book
    (placeCommand helper.cmd orderId price qty side (orderTypeOf ioc))
  (writeTrades orderId seq helper.tradeBuf 0 cmd.matcherEvent).map
    fun (tradeBuf, n) =>
      ({ helper with book := book, cmd := cmd, tradeBuf := tradeBuf }, n)

/-- `onCancel`: 1 or 2 for the side, 0 when the order does not rest. -/
def onCancel
    (core : Core) (helper : Helper core) (orderId : Int64) :
    Option (Helper core × Int) :=
  let (book, cmd, code) := core.cancelOrder helper.book
    (cancelCommand helper.cmd orderId)
  if code ≠ .success then
    some ({ helper with book := book, cmd := cmd }, 0)
  else
    match cmd.matcherEvent with
    | [] => none
    | evt :: _ =>
        (put helper.tradeBuf (0 * tradeSize + 8) (longBytes evt.price)).map
          fun tradeBuf =>
            ({ helper with book := book, cmd := cmd, tradeBuf := tradeBuf },
              if cmd.action = .bid then 1 else 2)

/-- `onModify`: the fill count, or -1 when the order does not rest. -/
def onModify
    (core : Core) (helper : Helper core) (orderId seq price : Int64)
    (qty side : Int32) : Option (Helper core × Int) :=
  let (book, cmd, code) := core.cancelOrder helper.book
    (cancelCommand helper.cmd orderId)
  let helper := { helper with book := book, cmd := cmd }
  if code ≠ .success then some (helper, -1)
  else onNew core helper orderId seq price qty side 0

/-! ## The per-message handlers -/

/-- `STAGE_CAP`. -/
def stageCap : Nat := 1024

/-- `StageTrade`. -/
structure StageTrade where
  seq : UInt64
  price : Int64
  qty : UInt32
  maker : UInt64
  taker : UInt64
deriving DecidableEq, Repr

/-- `g_stage[k]`. -/
def stageTrade (stage : List UInt8) (k : Nat) : StageTrade where
  seq := UInt64.ofNat (field stage (k * tradeSize) 8)
  price := (UInt64.ofNat (field stage (k * tradeSize + 8) 8)).toInt64
  qty := UInt32.ofNat (field stage (k * tradeSize + 16) 4)
  maker := UInt64.ofNat (field stage (k * tradeSize + 24) 8)
  taker := UInt64.ofNat (field stage (k * tradeSize + 32) 8)

/-- The report of a staged trade. -/
def StageTrade.report (t : StageTrade) : Report where
  type := meTrade
  side := 0
  sequenceNumber := t.seq
  orderId := 0
  priceTicks := t.price
  quantity := t.qty
  makerOrderId := t.maker
  takerOrderId := t.taker

/-- The total of the quantities, in 64 bits. -/
def filledOf (trades : List StageTrade) : UInt64 :=
  trades.foldl (fun filled t => filled + t.qty.toUInt64) 0

/-- `emit_staged_trades`: the reports and the total filled. -/
def emitStagedTrades (stage : List UInt8) (n : Int) :
    List Report × UInt64 :=
  let trades := (List.range n.toNat).map (stageTrade stage)
  (trades.map StageTrade.report, filledOf trades)

/-- `engine_on_new_order`. -/
def engineOnNewOrder
    (core : Core) (helper : Helper core) (o : NewOrder) :
    Option (Helper core × List Report) :=
  (onNew core helper o.orderId.toInt64 o.sequenceNumber.toInt64 o.priceTicks
      o.quantity.toInt32 (Int32.ofNat o.side.toNat)
      (Int32.ofNat o.ioc.toNat)).map fun (helper, n) =>
    let (trades, filled) := emitStagedTrades helper.tradeBuf n
    let residual :=
      if o.ioc ≠ 0 ∧ filled < o.quantity.toUInt64 then
        [ackReport meCancelAck o.sequenceNumber o.orderId o.side o.priceTicks
          (o.quantity.toUInt64 - filled).toUInt32]
      else []
    (helper,
      ackReport meOrderAck o.sequenceNumber o.orderId o.side o.priceTicks
        o.quantity :: trades ++ residual)

/-- `engine_on_cancel`. -/
def engineOnCancel
    (core : Core) (helper : Helper core) (c : Cancel) :
    Option (Helper core × List Report) :=
  (onCancel core helper c.orderId.toInt64).map fun (helper, s) =>
    if s ≠ 0 then
      (helper,
        [ackReport meCancelAck c.sequenceNumber c.orderId
          (UInt8.ofNat (s - 1).toNat) (stageTrade helper.tradeBuf 0).price 0])
    else
      (helper, [ackReport meCancelReject c.sequenceNumber c.orderId 0 0 0])

/-- `engine_on_modify`. -/
def engineOnModify
    (core : Core) (helper : Helper core) (m : Modify) :
    Option (Helper core × List Report) :=
  (onModify core helper m.orderId.toInt64 m.sequenceNumber.toInt64
      m.newPriceTicks m.newQuantity.toInt32
      (Int32.ofNat m.side.toNat)).map fun (helper, n) =>
    if n < 0 then
      (helper, [ackReport meModifyReject m.sequenceNumber m.orderId 0 0 0])
    else
      let (trades, _) := emitStagedTrades helper.tradeBuf n
      (helper,
        trades ++ [ackReport meModifyAck m.sequenceNumber m.orderId m.side
          m.newPriceTicks m.newQuantity])

/-- One message through its handler. -/
def perMessage
    (core : Core) (helper : Helper core) :
    Msg → Option (Helper core × List Report)
  | .newOrder o => engineOnNewOrder core helper o
  | .cancel c => engineOnCancel core helper c
  | .modify m => engineOnModify core helper m

/-! ## `onBatch` -/

/-- `OUT_CAP`. -/
def outCap : Nat := 65536

/-- The fields of the Java object that `onBatch` changes. -/
structure BatchState (core : Core) where
  book : core.State
  cmd : OrderCommand
  outB : List UInt8
  wc : Nat

/-- The puts of one report record at an offset. -/
def reportWrites
    (type side : Nat) (seq oid price : Int64) (qty : Int32)
    (maker taker : Int64) (o : Nat) : List (Nat × List UInt8) :=
  [(o, [UInt8.ofNat type]),
    (o + 1, [UInt8.ofNat side]),
    (o + 8, longBytes seq),
    (o + 16, longBytes oid),
    (o + 24, longBytes price),
    (o + 32, intBytes qty),
    (o + 40, longBytes maker),
    (o + 48, longBytes taker)]

/-- `rep`. -/
def rep
    {core : Core} (st : BatchState core) (type side : Nat)
    (seq oid price : Int64) (qty : Int32) (maker taker : Int64) :
    Option (BatchState core) :=
  (putAll st.outB
    (reportWrites type side seq oid price qty maker taker
      (st.wc * 64))).map fun outB =>
    { st with outB := outB, wc := st.wc + 1 }

/-- `repTrades`: the state and the total filled. -/
def repTrades {core : Core} (taker seq : Int64) :
    BatchState core → Int64 → List MatcherTradeEvent →
      Option (BatchState core × Int64)
  | st, filled, [] => some (st, filled)
  | st, filled, evt :: events =>
      if evt.eventType ≠ .trade then repTrades taker seq st filled events
      else
        (rep st 1 0 seq 0 evt.price evt.size.toInt32 evt.matchedOrderId
          taker).bind fun st =>
          repTrades taker seq st (filled + evt.size) events

/-- `getLong`. -/
def getLong (bytes : List UInt8) (offset : Nat) : Option Int64 :=
  (get bytes offset 8).map fun value => (UInt64.ofNat value).toInt64

/-- `getInt`. -/
def getInt (bytes : List UInt8) (offset : Nat) : Option Int32 :=
  (get bytes offset 4).map fun value => (UInt32.ofNat value).toInt32

/-- `get(…) & 0xff`. -/
def getByte (bytes : List UInt8) (offset : Nat) : Option Nat :=
  get bytes offset 1

/-- The arm of `onBatch` for a new order. -/
def batchNew
    (core : Core) (st : BatchState core) (oid seq price : Int64)
    (qty : Int32) (side ioc : Nat) : Option (BatchState core) := do
  let st ← rep st 0 side seq oid price qty 0 0
  let (book, cmd) := core.newOrder st.book
    (placeCommand st.cmd oid price qty (Int32.ofNat side)
      (if ioc = 1 then .ioc else .gtc))
  let (st, filled) ←
    repTrades oid seq { st with book := book, cmd := cmd } 0 cmd.matcherEvent
  if ioc = 1 ∧ filled < qty.toInt64 then
    rep st 2 side seq oid price (qty.toInt64 - filled).toInt32 0 0
  else return st

/-- The arm of `onBatch` for a cancel. -/
def batchCancel
    (core : Core) (st : BatchState core) (oid seq : Int64) :
    Option (BatchState core) :=
  let (book, cmd, code) := core.cancelOrder st.book (cancelCommand st.cmd oid)
  let st := { st with book := book, cmd := cmd }
  if code ≠ .success then rep st 4 0 seq oid 0 0 0 0
  else
    match cmd.matcherEvent with
    | [] => none
    | evt :: _ =>
        rep st 2 (if cmd.action = .bid then 0 else 1) seq oid evt.price 0 0 0

/-- The arm of `onBatch` for a modify. -/
def batchModify
    (core : Core) (st : BatchState core) (oid seq nprice : Int64)
    (nqty : Int32) (side : Nat) : Option (BatchState core) :=
  let (book, cmd, code) := core.cancelOrder st.book (cancelCommand st.cmd oid)
  let st := { st with book := book, cmd := cmd }
  if code ≠ .success then rep st 5 0 seq oid 0 0 0 0
  else do
    let (book, cmd) := core.newOrder st.book
      (placeCommand st.cmd oid nprice nqty (Int32.ofNat side) .gtc)
    let (st, _) ←
      repTrades oid seq { st with book := book, cmd := cmd } 0
        cmd.matcherEvent
    rep st 3 side seq oid nprice nqty 0 0

/-- The body of the loop of `onBatch`, behind the reserve check. -/
def batchMessage
    (core : Core) (inB : List UInt8) (st : BatchState core) (i : Nat) :
    Option (BatchState core) := do
  let b := i * 40
  let type ← getByte inB b
  let oid ← getLong inB (b + 8)
  let seq ← getLong inB (b + 16)
  if type = 0 then do
    let price ← getLong inB (b + 24)
    let qty ← getInt inB (b + 32)
    let side ← getByte inB (b + 36)
    let ioc ← getByte inB (b + 37)
    batchNew core st oid seq price qty side ioc
  else if type = 1 then batchCancel core st oid seq
  else do
    let nprice ← getLong inB (b + 24)
    let nqty ← getInt inB (b + 32)
    let side ← getByte inB (b + 36)
    batchModify core st oid seq nprice nqty side

/-- The loop of `onBatch` over what remains: the state and where it stopped. -/
def batchLoop (core : Core) (inB : List UInt8) :
    Nat → Nat → BatchState core → Option (BatchState core × Nat)
  | 0, i, st => some (st, i)
  | remaining + 1, i, st =>
      let cap := st.outB.length / 64
      if cap - st.wc < 2048 then some (st, i)
      else
        (batchMessage core inB st i).bind fun st =>
          batchLoop core inB remaining (i + 1) st

/-- `onBatch`: the object and `(messagesConsumed << 32) | reportsWritten`. -/
def onBatch
    (core : Core) (helper : Helper core) (inB : List UInt8)
    (start n : Nat) : Option (Helper core × UInt64) :=
  (batchLoop core inB (n - start) start
      { book := helper.book, cmd := helper.cmd, outB := helper.outB,
        wc := 0 }).map fun (st, i) =>
    ({ helper with book := st.book, cmd := st.cmd, outB := st.outB },
      (UInt64.ofNat i <<< 32) ||| (UInt64.ofNat st.wc &&& 0xffffffff))

/-! ## `engine_on_batch` -/

/-- The 40 bytes of a `me_msg_t`. -/
def msgBytes : Msg → List UInt8
  | .newOrder o =>
      0 :: (List.replicate 7 0 ++ encode 8 o.orderId.toNat ++
        encode 8 o.sequenceNumber.toNat ++
        encode 8 o.priceTicks.toUInt64.toNat ++ encode 4 o.quantity.toNat ++
        [o.side, o.ioc, 0, 0])
  | .cancel c =>
      1 :: (List.replicate 7 0 ++ encode 8 c.orderId.toNat ++
        encode 8 c.sequenceNumber.toNat ++ List.replicate 16 0)
  | .modify m =>
      2 :: (List.replicate 7 0 ++ encode 8 m.orderId.toNat ++
        encode 8 m.sequenceNumber.toNat ++
        encode 8 m.newPriceTicks.toUInt64.toNat ++
        encode 4 m.newQuantity.toNat ++ [m.side, 0, 0, 0])

/-- `g_outbuf[k]`. -/
def outReport (outbuf : List UInt8) (k : Nat) : Report where
  type := UInt8.ofNat (field outbuf (k * 64) 1)
  side := UInt8.ofNat (field outbuf (k * 64 + 1) 1)
  sequenceNumber := UInt64.ofNat (field outbuf (k * 64 + 8) 8)
  orderId := UInt64.ofNat (field outbuf (k * 64 + 16) 8)
  priceTicks := (UInt64.ofNat (field outbuf (k * 64 + 24) 8)).toInt64
  quantity := UInt32.ofNat (field outbuf (k * 64 + 32) 4)
  makerOrderId := UInt64.ofNat (field outbuf (k * 64 + 40) 8)
  takerOrderId := UInt64.ofNat (field outbuf (k * 64 + 48) 8)

/-- What the resume loop did: the pushed reports and each call's range. -/
structure BatchRun (core : Core) where
  helper : Helper core
  reports : List Report
  /-- Each call of `onBatch`: where it started and where it stopped. -/
  calls : List (Nat × Nat)
  /-- The loop was left because a call made no progress. -/
  stuck : Bool

/-- The resume loop. -/
def resumeLoop
    (core : Core) (inB : List UInt8) (n start : Nat) (helper : Helper core) :
    Option (BatchRun core) :=
  if _ : start < n then
    match onBatch core helper inB start n with
    | none => none
    | some (helper, packed) =>
        let consumed := (packed >>> 32).toUInt32.toNat
        let written := (packed &&& 0xffffffff).toUInt32.toNat
        let reports := (List.range written).map (outReport helper.outB)
        if _ : consumed ≤ start then
          some
            { helper := helper, reports := reports,
              calls := [(start, consumed)], stuck := true }
        else
          (resumeLoop core inB n consumed helper).map fun rest =>
            { rest with
              reports := reports ++ rest.reports
              calls := (start, consumed) :: rest.calls }
  else
    some { helper := helper, reports := [], calls := [], stuck := false }
termination_by n - start
decreasing_by
  rename_i inside progress
  exact Nat.sub_lt_sub_left inside (Nat.not_le.mp progress)

/-- `engine_on_batch`. -/
def engineOnBatch
    (core : Core) (helper : Helper core) (msgs : List Msg) :
    Option (BatchRun core) :=
  resumeLoop core (msgs.flatMap msgBytes) msgs.length 0 helper

end MatchingBench.Baselines.ExchangeCore
