import MatchingBench.Baselines.ExchangeCore
import MatchingBench.Lib.Runs

/-!
# The staging buffer of the exchange-core adapter

What the order book answers to a message decides the reports of both paths.
The per-message handlers stage the trades in a buffer of 1024 records; the
batch path writes whole reports into a buffer of 65536 records and is resumed
where fewer than 2048 of them are left.
-/

set_option autoImplicit false

namespace MatchingBench.Baselines.ExchangeCoreStage

open MatchingBench.Api
open MatchingBench.Lib.LittleEndian
open MatchingBench.Lib.ByteBuffer
open MatchingBench.Lib.Runs
open MatchingBench.Baselines.ExchangeCore

/-! ## What the order book answers -/

/-- The book and the command object. -/
abbrev EngineState (core : Core) : Type :=
  core.State × OrderCommand

/-- The trades of an event chain. -/
def tradesOf (events : List MatcherTradeEvent) : List MatcherTradeEvent :=
  events.filter fun evt => evt.eventType = .trade

theorem tradesOf_cons_trade
    {evt : MatcherTradeEvent} (trade : evt.eventType = .trade)
    (events : List MatcherTradeEvent) :
    tradesOf (evt :: events) = evt :: tradesOf events :=
  List.filter_cons_of_pos (decide_eq_true trade)

theorem tradesOf_cons_other
    {evt : MatcherTradeEvent} (other : evt.eventType ≠ .trade)
    (events : List MatcherTradeEvent) :
    tradesOf (evt :: events) = tradesOf events :=
  List.filter_cons_of_neg (by simpa using other)

/-- The cancel of an order, alone or at the front of a modify. -/
def removed
    (core : Core) (s : EngineState core) (orderId : UInt64) :
    EngineState core × CommandResultCode :=
  let (book, cmd, code) := core.cancelOrder s.1
    (cancelCommand s.2 orderId.toInt64)
  ((book, cmd), code)

/-- The submission of a new order. -/
def placedNew
    (core : Core) (s : EngineState core) (o : NewOrder) : EngineState core :=
  core.newOrder s.1
    (placeCommand s.2 o.orderId.toInt64 o.priceTicks o.quantity.toInt32
      (Int32.ofNat o.side.toNat) (orderTypeOf (Int32.ofNat o.ioc.toNat)))

/-- The submission at the end of a modify. -/
def placedModify
    (core : Core) (s : EngineState core) (m : Modify) : EngineState core :=
  core.newOrder s.1
    (placeCommand s.2 m.orderId.toInt64 m.newPriceTicks
      m.newQuantity.toInt32 (Int32.ofNat m.side.toNat) .gtc)

/-- The state behind a message. -/
def next (core : Core) (s : EngineState core) : Msg → EngineState core
  | .newOrder o => placedNew core s o
  | .cancel c => (removed core s c.orderId).1
  | .modify m =>
      if (removed core s m.orderId).2 ≠ .success then
        (removed core s m.orderId).1
      else placedModify core (removed core s m.orderId).1 m

/-- The trades a message makes in a state. -/
def fills
    (core : Core) (s : EngineState core) : Msg → List MatcherTradeEvent
  | .newOrder o => tradesOf (placedNew core s o).2.matcherEvent
  | .cancel _ => []
  | .modify m =>
      if (removed core s m.orderId).2 ≠ .success then []
      else
        tradesOf (placedModify core (removed core s m.orderId).1
          m).2.matcherEvent

/-- The report of a trade. -/
def eventReport (seq taker : UInt64) (evt : MatcherTradeEvent) : Report where
  type := meTrade
  side := 0
  sequenceNumber := seq
  orderId := 0
  priceTicks := evt.price
  quantity := evt.size.toInt32.toUInt32
  makerOrderId := evt.matchedOrderId.toUInt64
  takerOrderId := taker

/-- What C++ adds up: the staged quantities. -/
def stagedFilled (trades : List MatcherTradeEvent) : UInt64 :=
  trades.foldl
    (fun filled evt => filled + evt.size.toInt32.toUInt32.toUInt64) 0

/-- What Java adds up: the sizes. -/
def batchFilled (trades : List MatcherTradeEvent) : Int64 :=
  trades.foldl (fun filled evt => filled + evt.size) 0

/-- The residual of an order, as the per-message handler cancels it. -/
def stagedResidual
    (o : NewOrder) (trades : List MatcherTradeEvent) : List Report :=
  if o.ioc ≠ 0 ∧ stagedFilled trades < o.quantity.toUInt64 then
    [ackReport meCancelAck o.sequenceNumber o.orderId o.side o.priceTicks
      (o.quantity.toUInt64 - stagedFilled trades).toUInt32]
  else []

/-- The residual of an order, as `onBatch` cancels it. -/
def batchResidual
    (o : NewOrder) (trades : List MatcherTradeEvent) : List Report :=
  if o.ioc = 1 ∧ batchFilled trades < o.quantity.toInt32.toInt64 then
    [ackReport meCancelAck o.sequenceNumber o.orderId o.side o.priceTicks
      (o.quantity.toInt32.toInt64 - batchFilled trades).toInt32.toUInt32]
  else []

/-- The price and the side of a removed order. -/
def removedSide (cmd : OrderCommand) : UInt8 :=
  if cmd.action = .bid then 0 else 1

/-- The price a cancelled order is acknowledged with. -/
def removedPrice (cmd : OrderCommand) : Int64 :=
  (cmd.matcherEvent.head?.map MatcherTradeEvent.price).getD 0

/-- The reports of a message, the residual of a new order left open. -/
def reportsWith
    (residual : NewOrder → List MatcherTradeEvent → List Report)
    (core : Core) (s : EngineState core) : Msg → List Report
  | .newOrder o =>
      ackReport meOrderAck o.sequenceNumber o.orderId o.side o.priceTicks
          o.quantity ::
        (fills core s (.newOrder o)).map
            (eventReport o.sequenceNumber o.orderId) ++
          residual o (fills core s (.newOrder o))
  | .cancel c =>
      if (removed core s c.orderId).2 ≠ .success then
        [ackReport meCancelReject c.sequenceNumber c.orderId 0 0 0]
      else
        [ackReport meCancelAck c.sequenceNumber c.orderId
          (removedSide (removed core s c.orderId).1.2)
          (removedPrice (removed core s c.orderId).1.2) 0]
  | .modify m =>
      if (removed core s m.orderId).2 ≠ .success then
        [ackReport meModifyReject m.sequenceNumber m.orderId 0 0 0]
      else
        (fills core s (.modify m)).map
            (eventReport m.sequenceNumber m.orderId) ++
          [ackReport meModifyAck m.sequenceNumber m.orderId m.side
            m.newPriceTicks m.newQuantity]

/-- The book as a machine that emits the reports of the messages. -/
def answers
    (residual : NewOrder → List MatcherTradeEvent → List Report)
    (core : Core) (s : EngineState core) (msg : Msg) :
    EngineState core × List Report :=
  (next core s msg, reportsWith residual core s msg)

/-! ## The staging buffer -/

@[simp]
theorem length_longBytes (value : Int64) : (longBytes value).length = 8 :=
  length_encode 8 _

@[simp]
theorem length_intBytes (value : Int32) : (intBytes value).length = 4 :=
  length_encode 4 _

theorem ofNat_longBytes (value : Int64) :
    UInt64.ofNat (decode (longBytes value)) = value.toUInt64 :=
  decode_uint64 value.toUInt64

theorem ofNat_intBytes (value : Int32) :
    UInt32.ofNat (decode (intBytes value)) = value.toUInt32 :=
  decode_uint32 value.toUInt32

/-- The staged record of a trade. -/
def stageOf (takerId seq : Int64) (evt : MatcherTradeEvent) : StageTrade where
  seq := seq.toUInt64
  price := evt.price
  qty := evt.size.toInt32.toUInt32
  maker := evt.matchedOrderId.toUInt64
  taker := takerId.toUInt64

/-- Five writes fill one record and leave those in front of it. -/
theorem putAll_stage
    {buffer : List UInt8} {n : Nat} (fits : (n + 1) * tradeSize ≤ buffer.length)
    (takerId seq : Int64) (evt : MatcherTradeEvent) :
    ∃ after,
      putAll buffer (stageWrites takerId seq evt (n * tradeSize)) =
          some after ∧
        after.length = buffer.length ∧
        stageTrade after n = stageOf takerId seq evt ∧
        ∀ k < n, stageTrade after k = stageTrade buffer k := by
  rw [Nat.add_mul, Nat.one_mul] at fits
  obtain ⟨after, wrote, size, read, kept⟩ :=
    @putAll_of_fits buffer (stageWrites takerId seq evt (n * tradeSize))
      (by
        simp only [tradeSize] at fits
        simp [stageWrites, tradeSize]
        omega)
      (by simp [stageWrites, Clear])
  refine ⟨after, wrote, size, ?_, ?_⟩
  · simp only [stageWrites, List.forall_mem_cons, length_longBytes,
      length_intBytes] at read
    obtain ⟨seqRead, priceRead, sizeRead, makerRead, takerRead, -⟩ := read
    simp only [stageTrade, stageOf, seqRead, priceRead, sizeRead, makerRead,
      takerRead, ofNat_longBytes, ofNat_intBytes, Int64.toInt64_toUInt64]
  · intro k before
    have clear (offset width : Nat) (inside : offset + width ≤ tradeSize) :
        field after (k * tradeSize + offset) width =
          field buffer (k * tradeSize + offset) width := by
      apply kept
      simp [stageWrites, Clear, tradeSize] at *
      omega
    simp only [stageTrade]
    rw [clear 8 8 (by decide), clear 16 4 (by decide), clear 24 8 (by decide),
      clear 32 8 (by decide), ← Nat.add_zero (k * tradeSize),
      clear 0 8 (by decide)]

/-- A record past the end of the buffer fails. -/
theorem putAll_stage_overrun
    {buffer : List UInt8} {n : Nat}
    (overrun : buffer.length < (n + 1) * tradeSize)
    (takerId seq : Int64) (evt : MatcherTradeEvent) :
    putAll buffer (stageWrites takerId seq evt (n * tradeSize)) = none := by
  apply putAll_of_overrun
    (show (n * tradeSize + 32, longBytes takerId) ∈ _ by simp [stageWrites])
  rw [length_longBytes]
  rw [Nat.add_mul, Nat.one_mul, tradeSize] at overrun
  simp only [tradeSize]
  omega

/-- The records of the trades follow those already written. -/
theorem writeTrades_fits
    (takerId seq : Int64) {events : List MatcherTradeEvent}
    {buffer : List UInt8} {n : Nat}
    (fits : (n + (tradesOf events).length) * tradeSize ≤ buffer.length) :
    ∃ after,
      writeTrades takerId seq buffer n events =
          some (after, n + (tradesOf events).length) ∧
        after.length = buffer.length ∧
        (List.range (n + (tradesOf events).length)).map (stageTrade after) =
          (List.range n).map (stageTrade buffer) ++
            (tradesOf events).map (stageOf takerId seq) := by
  induction events generalizing buffer n with
  | nil =>
      refine ⟨buffer, rfl, rfl, ?_⟩
      rw [tradesOf, List.filter_nil, List.map_nil, List.append_nil]
      rfl
  | cons evt events induction =>
      by_cases trade : evt.eventType = .trade
      · have more := tradesOf_cons_trade trade events
        have count :
            n + (tradesOf (evt :: events)).length =
              n + 1 + (tradesOf events).length := by
          rw [more, List.length_cons]
          omega
        rw [count] at fits ⊢
        have first : (n + 1) * tradeSize ≤ buffer.length :=
          le_trans (Nat.mul_le_mul_right tradeSize (Nat.le_add_right _ _)) fits
        obtain ⟨middle, wrote, middleSize, record, kept⟩ :=
          putAll_stage first takerId seq evt
        rw [← middleSize] at fits
        obtain ⟨after, rest, afterSize, records⟩ := induction fits
        refine ⟨after, ?_, afterSize.trans middleSize, ?_⟩
        · rw [writeTrades, if_neg (not_not.mpr trade), wrote,
            Option.bind_some, rest]
        · have front :
              (List.range n).map (stageTrade middle) =
                (List.range n).map (stageTrade buffer) := by
            apply List.map_congr_left
            intro k member
            exact kept k (List.mem_range.mp member)
          rw [records, List.range_succ, List.map_append, front,
            List.map_singleton, record, List.append_assoc,
            List.singleton_append, more, List.map_cons]
      · have same := tradesOf_cons_other trade events
        rw [same] at fits ⊢
        obtain ⟨after, rest, facts⟩ := induction fits
        refine ⟨after, ?_, facts⟩
        rw [writeTrades, if_pos trade, rest]

/-- More trades than the buffer has room for raise. -/
theorem writeTrades_overrun
    (takerId seq : Int64) {events : List MatcherTradeEvent}
    {buffer : List UInt8} {n : Nat}
    (here : n * tradeSize ≤ buffer.length)
    (overrun :
      buffer.length < (n + (tradesOf events).length) * tradeSize) :
    writeTrades takerId seq buffer n events = none := by
  induction events generalizing buffer n with
  | nil => exact absurd overrun (not_lt.mpr here)
  | cons evt events induction =>
      by_cases trade : evt.eventType = .trade
      · have count :
            n + (tradesOf (evt :: events)).length =
              n + 1 + (tradesOf events).length := by
          rw [tradesOf_cons_trade trade, List.length_cons]
          omega
        rw [count] at overrun
        rw [writeTrades, if_neg (not_not.mpr trade)]
        by_cases fits : (n + 1) * tradeSize ≤ buffer.length
        · obtain ⟨middle, wrote, middleSize, -⟩ :=
            putAll_stage fits takerId seq evt
          rw [wrote, Option.bind_some]
          rw [← middleSize] at fits overrun
          exact induction fits overrun
        · rw [putAll_stage_overrun (not_le.mp fits), Option.bind_none]
      · have same := tradesOf_cons_other trade events
        rw [same] at overrun
        rw [writeTrades, if_pos trade]
        exact induction here overrun

/-! ## One message through its handler -/

/-- What the adapter relies on: a successful cancel comes with its event. -/
def Reduces (core : Core) : Prop :=
  ∀ book cmd, (core.cancelOrder book cmd).2.2 = .success →
    (core.cancelOrder book cmd).2.1.matcherEvent ≠ []

/-- The total size of trades. -/
def total (trades : List MatcherTradeEvent) : Nat :=
  (trades.map fun evt => evt.size.toInt.toNat).sum

/-- The trades of an order have sizes, and take no more than the order's. -/
def Conserves (core : Core) : Prop :=
  ∀ book cmd, 0 ≤ cmd.size.toInt →
    (∀ evt ∈ tradesOf (core.newOrder book cmd).2.matcherEvent,
      0 ≤ evt.size.toInt) ∧
      total (tradesOf (core.newOrder book cmd).2.matcherEvent) ≤
        cmd.size.toInt.toNat

/-- The object with the answers of the book and a new staging buffer. -/
def answered
    {core : Core} (helper : Helper core) (s : EngineState core)
    (tradeBuf : List UInt8) : Helper core :=
  { helper with book := s.1, cmd := s.2, tradeBuf := tradeBuf }

/-- The book and the command of the object. -/
def engineOf {core : Core} (helper : Helper core) : EngineState core :=
  (helper.book, helper.cmd)

/-- The staging buffer has its size. -/
def Staged {core : Core} (helper : Helper core) : Prop :=
  helper.tradeBuf.length = stageCap * tradeSize

/-- What is read from the stage after the trades of an order were written. -/
theorem emitStagedTrades_stage
    {takerId seq : UInt64} {trades : List MatcherTradeEvent}
    {after : List UInt8}
    (records :
      (List.range trades.length).map (stageTrade after) =
        trades.map (stageOf takerId.toInt64 seq.toInt64)) :
    emitStagedTrades after trades.length =
      (trades.map (eventReport seq takerId), stagedFilled trades) := by
  have report (evt : MatcherTradeEvent) :
      (stageOf takerId.toInt64 seq.toInt64 evt).report =
        eventReport seq takerId evt := by
    simp only [stageOf, StageTrade.report, eventReport,
      UInt64.toUInt64_toInt64]
  rw [emitStagedTrades, Int.toNat_natCast, records, List.map_map]
  apply Prod.ext
  · apply List.map_congr_left
    intro evt _
    exact report evt
  · exact List.foldl_map

section Submission

variable {core : Core} {helper : Helper core} (staged : Staged helper)
  (orderId seq : UInt64) (price : Int64) (qty side ioc : Int32)
  {s : EngineState core}
  (answer :
    core.newOrder helper.book
        (placeCommand helper.cmd orderId.toInt64 price qty side
          (orderTypeOf ioc)) = s)
include staged answer

/-- Trades that fit are staged. -/
theorem onNew_of_fits
    (few : (tradesOf s.2.matcherEvent).length ≤ stageCap) :
    ∃ after,
      onNew core helper orderId.toInt64 seq.toInt64 price qty side ioc =
          some (answered helper s after,
            ((tradesOf s.2.matcherEvent).length : Int)) ∧
        after.length = helper.tradeBuf.length ∧
        emitStagedTrades after (tradesOf s.2.matcherEvent).length =
          ((tradesOf s.2.matcherEvent).map (eventReport seq orderId),
            stagedFilled (tradesOf s.2.matcherEvent)) := by
  have fits :
      (0 + (tradesOf s.2.matcherEvent).length) * tradeSize ≤
        helper.tradeBuf.length := by
    rw [staged, Nat.zero_add]
    exact Nat.mul_le_mul_right tradeSize few
  obtain ⟨after, wrote, size, records⟩ :=
    writeTrades_fits orderId.toInt64 seq.toInt64 fits
  rw [Nat.zero_add] at wrote records
  refine ⟨after, ?_, size, emitStagedTrades_stage records⟩
  rw [onNew, answer]
  dsimp only
  rw [wrote]
  rfl

/-- Trades that do not fit raise. -/
theorem onNew_of_overrun
    (many : stageCap < (tradesOf s.2.matcherEvent).length) :
    onNew core helper orderId.toInt64 seq.toInt64 price qty side ioc =
      none := by
  have overrun :
      helper.tradeBuf.length <
        (0 + (tradesOf s.2.matcherEvent).length) * tradeSize := by
    rw [staged, Nat.zero_add]
    exact Nat.mul_lt_mul_of_pos_right many (by decide)
  rw [onNew, answer]
  dsimp only
  rw [writeTrades_overrun orderId.toInt64 seq.toInt64 (by simp) overrun]
  rfl

end Submission

/-- A put of a price into the first record of the stage. -/
theorem put_price
    {buffer : List UInt8} (size : buffer.length = stageCap * tradeSize)
    (price : Int64) :
    ∃ after,
      put buffer (0 * tradeSize + 8) (longBytes price) = some after ∧
        after.length = buffer.length ∧
        (stageTrade after 0).price = price := by
  have fits : 0 * tradeSize + 8 + (longBytes price).length ≤ buffer.length := by
    rw [size, length_longBytes]
    decide
  refine ⟨_, if_pos fits, length_overwrite fits, ?_⟩
  have read := field_overwrite fits
  rw [length_longBytes] at read
  rw [stageTrade]
  dsimp only
  rw [read, ofNat_longBytes, Int64.toInt64_toUInt64]

/-- A modify whose order does not rest is refused. -/
theorem onModify_of_absent
    {core : Core} {helper : Helper core} {m : Modify}
    (absent : (removed core (engineOf helper) m.orderId).2 ≠ .success) :
    onModify core helper m.orderId.toInt64 m.sequenceNumber.toInt64
        m.newPriceTicks m.newQuantity.toInt32 (Int32.ofNat m.side.toNat) =
      some (answered helper (removed core (engineOf helper) m.orderId).1
        helper.tradeBuf, -1) :=
  if_pos absent

/-- A modify whose order was removed submits the new order. -/
theorem onModify_of_removed
    {core : Core} {helper : Helper core} {m : Modify}
    (rests : (removed core (engineOf helper) m.orderId).2 = .success) :
    onModify core helper m.orderId.toInt64 m.sequenceNumber.toInt64
        m.newPriceTicks m.newQuantity.toInt32 (Int32.ofNat m.side.toNat) =
      onNew core
        (answered helper (removed core (engineOf helper) m.orderId).1
          helper.tradeBuf)
        m.orderId.toInt64 m.sequenceNumber.toInt64 m.newPriceTicks
        m.newQuantity.toInt32 (Int32.ofNat m.side.toNat) 0 :=
  if_neg (not_not.mpr rests)

/-- A cancel whose order does not rest is refused. -/
theorem onCancel_of_absent
    {core : Core} {helper : Helper core} {orderId : UInt64}
    (absent : (removed core (engineOf helper) orderId).2 ≠ .success) :
    onCancel core helper orderId.toInt64 =
      some (answered helper (removed core (engineOf helper) orderId).1
        helper.tradeBuf, 0) :=
  if_pos absent

/-- A cancel whose order was removed stages its price. -/
theorem onCancel_of_removed
    {core : Core} {helper : Helper core} (staged : Staged helper)
    (reduces : Reduces core) {orderId : UInt64}
    (rests : (removed core (engineOf helper) orderId).2 = .success) :
    ∃ after,
      onCancel core helper orderId.toInt64 =
          some (answered helper (removed core (engineOf helper) orderId).1
            after,
            if (removed core (engineOf helper) orderId).1.2.action = .bid
              then 1 else 2) ∧
        after.length = helper.tradeBuf.length ∧
        (stageTrade after 0).price =
          removedPrice (removed core (engineOf helper) orderId).1.2 := by
  have chain :=
    reduces helper.book (cancelCommand helper.cmd orderId.toInt64) rests
  obtain ⟨evt, events, reduce⟩ := List.exists_cons_of_ne_nil chain
  obtain ⟨after, wrote, size, price⟩ := put_price staged evt.price
  refine ⟨after, ?_, size, ?_⟩
  · rw [onCancel]
    apply (if_neg (not_not.mpr rests)).trans
    rw [reduce]
    dsimp only
    rw [wrote]
    rfl
  · have removedEvents :
        (removed core (engineOf helper) orderId).1.2.matcherEvent =
          evt :: events :=
      reduce
    rw [price, removedPrice, removedEvents]
    rfl

section Handlers

variable {core : Core} {helper : Helper core} (staged : Staged helper)
include staged

/-- A message whose trades fit is answered with the book's answers. -/
theorem perMessage_of_fits
    (reduces : Reduces core) {msg : Msg}
    (few : (fills core (engineOf helper) msg).length ≤ stageCap) :
    ∃ after,
      perMessage core helper msg =
          some (answered helper (next core (engineOf helper) msg) after,
            reportsWith stagedResidual core (engineOf helper) msg) ∧
        after.length = helper.tradeBuf.length := by
  cases msg with
  | newOrder o =>
      obtain ⟨after, done, size, emitted⟩ :=
        onNew_of_fits staged o.orderId o.sequenceNumber o.priceTicks
          o.quantity.toInt32 (Int32.ofNat o.side.toNat)
          (Int32.ofNat o.ioc.toNat) rfl few
      refine ⟨after, ?_, size⟩
      rw [perMessage, engineOnNewOrder, done, Option.map_some]
      simp only [answered] at emitted ⊢
      simp only [emitted]
      rfl
  | cancel c =>
      rw [perMessage, engineOnCancel, next, reportsWith]
      by_cases rests : (removed core (engineOf helper) c.orderId).2 = .success
      · obtain ⟨after, done, size, price⟩ :=
          onCancel_of_removed staged reduces rests
        refine ⟨after, ?_, size⟩
        rw [done, if_neg (not_not.mpr rests), Option.map_some, removedSide,
          ← price]
        by_cases bid :
            (removed core (engineOf helper) c.orderId).1.2.action = .bid
        · rw [if_pos bid, if_pos bid]
          rfl
        · rw [if_neg bid, if_neg bid]
          rfl
      · rw [onCancel_of_absent rests, if_pos rests]
        exact ⟨helper.tradeBuf, rfl, rfl⟩
  | modify m =>
      rw [perMessage, engineOnModify, next, reportsWith]
      by_cases rests : (removed core (engineOf helper) m.orderId).2 = .success
      · rw [fills, if_neg (not_not.mpr rests)] at few
        obtain ⟨after, done, size, emitted⟩ :=
          @onNew_of_fits core
            (answered helper (removed core (engineOf helper) m.orderId).1
              helper.tradeBuf) staged
            m.orderId m.sequenceNumber m.newPriceTicks m.newQuantity.toInt32
            (Int32.ofNat m.side.toNat) 0 _ rfl few
        refine ⟨after, ?_, size⟩
        rw [onModify_of_removed rests, done, if_neg (not_not.mpr rests),
          if_neg (not_not.mpr rests), fills, if_neg (not_not.mpr rests),
          Option.map_some]
        dsimp only
        rw [if_neg (Int.not_lt.mpr (Int.natCast_nonneg _))]
        simp only [answered] at emitted ⊢
        simp only [emitted]
        rfl
      · rw [onModify_of_absent rests, if_pos rests, if_pos rests]
        exact ⟨helper.tradeBuf, rfl, rfl⟩

/-- A message whose trades do not fit raises. -/
theorem perMessage_of_overrun
    {msg : Msg}
    (many : stageCap < (fills core (engineOf helper) msg).length) :
    perMessage core helper msg = none := by
  cases msg with
  | newOrder o =>
      rw [perMessage, engineOnNewOrder,
        onNew_of_overrun staged o.orderId o.sequenceNumber o.priceTicks
          o.quantity.toInt32 (Int32.ofNat o.side.toNat)
          (Int32.ofNat o.ioc.toNat) rfl many]
      rfl
  | cancel c => exact absurd many (Nat.not_lt_zero stageCap)
  | modify m =>
      rw [perMessage, engineOnModify]
      rw [fills] at many
      split at many
      · exact absurd many (Nat.not_lt_zero stageCap)
      · rename_i rests
        rw [onModify_of_removed (not_not.mp rests),
          @onNew_of_overrun core
            (answered helper (removed core (engineOf helper) m.orderId).1
              helper.tradeBuf) staged
            m.orderId m.sequenceNumber m.newPriceTicks m.newQuantity.toInt32
            (Int32.ofNat m.side.toNat) 0 _ rfl many]
        rfl

end Handlers

/-! ## A run through the handlers -/

/-- The trades of a message fit into the stage. -/
def FitsStage (core : Core) (s : EngineState core) (msg : Msg) : Prop :=
  (fills core s msg).length ≤ stageCap

section Runs

variable {core : Core} {helper : Helper core} (staged : Staged helper)
include staged

/-- Messages whose trades all fit get the book's answers in order. -/
theorem run_perMessage
    (reduces : Reduces core) {msgs : List Msg}
    (fit :
      Admitted (answers stagedResidual core) (FitsStage core)
        (engineOf helper) msgs) :
    ∃ last,
      run (perMessage core) helper msgs =
          some (last,
            output (answers stagedResidual core) (engineOf helper) msgs) ∧
        Staged last ∧
        engineOf last =
          final (answers stagedResidual core) (engineOf helper) msgs := by
  have forward :
      ∀ msg (_ : List Msg) (h : Helper core) s,
        Staged h ∧ engineOf h = s → FitsStage core s msg →
          ∃ after out,
            perMessage core h msg = some (after, out) ∧
              (Staged after ∧
                engineOf after = (answers stagedResidual core s msg).1) ∧
              out = (answers stagedResidual core s msg).2 := by
    rintro msg - h s ⟨here, rfl⟩ few
    obtain ⟨after, done, size⟩ := perMessage_of_fits here reduces few
    exact ⟨_, _, done, ⟨size.trans here, rfl⟩, rfl⟩
  obtain ⟨last, out, ran, ⟨ends, reached⟩, rfl⟩ :=
    @simulation _ _ _ _ _ _ _
      (fun _ (h : Helper core) s => Staged h ∧ engineOf h = s) Eq
      rfl (fun _ _ _ _ left right => congrArg₂ _ left right)
      forward [] msgs _ _ ⟨staged, rfl⟩ fit
  exact ⟨last, ran, ends, reached⟩

/-- A run that is not aborted had room for the trades of every message. -/
theorem fit_of_run
    (reduces : Reduces core) {msgs : List Msg}
    (ran : (run (perMessage core) helper msgs).isSome) :
    Admitted (answers stagedResidual core) (FitsStage core)
      (engineOf helper) msgs := by
  induction msgs generalizing helper with
  | nil => trivial
  | cons msg msgs induction =>
      rw [run] at ran
      by_cases few : FitsStage core (engineOf helper) msg
      · obtain ⟨after, done, size⟩ := perMessage_of_fits staged reduces few
        rw [done, Option.bind_some, Option.isSome_map] at ran
        have later :
            Staged (answered helper (next core (engineOf helper) msg) after) :=
          size.trans staged
        exact ⟨few, induction later ran⟩
      · rw [perMessage_of_overrun staged (not_le.mp few)] at ran
        exact absurd ran Bool.false_ne_true

end Runs

end MatchingBench.Baselines.ExchangeCoreStage
