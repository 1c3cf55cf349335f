import MatchingBench.Baselines.ExchangeCoreStage

/-!
# The batch path of the exchange-core adapter

One call of `onBatch` writes the book's answers to a stretch of messages into
its buffer, and stops where fewer than 2048 records are left.  The resume loop
joins the stretches.  A message with more answers than the buffer has records
aborts.
-/

set_option autoImplicit false

namespace MatchingBench.Baselines.ExchangeCoreBatch

open MatchingBench.Api
open MatchingBench.Lib.LittleEndian
open MatchingBench.Lib.ByteBuffer
open MatchingBench.Lib.Runs
open MatchingBench.Baselines.ExchangeCore
open MatchingBench.Baselines.ExchangeCoreStage

/-! ## Records in the output buffer -/

/-- The report that one call of `rep` writes. -/
def recordOf
    (type side : Nat) (seq oid price : Int64) (qty : Int32)
    (maker taker : Int64) : Report where
  type := UInt8.ofNat type
  side := UInt8.ofNat side
  sequenceNumber := seq.toUInt64
  orderId := oid.toUInt64
  priceTicks := price
  quantity := qty.toUInt32
  makerOrderId := maker.toUInt64
  takerOrderId := taker.toUInt64

/-- The reports in the buffer. -/
def written {core : Core} (st : BatchState core) : List Report :=
  (List.range st.wc).map (outReport st.outB)

/-- The buffer has room for more records. -/
def Room {core : Core} (st : BatchState core) (count : Nat) : Prop :=
  (st.wc + count) * 64 ≤ st.outB.length

/-- One state behind another: the book's state and the reports in between. -/
structure Wrote
    {core : Core} (before after : BatchState core) (s : EngineState core)
    (reports : List Report) : Prop where
  engine : (after.book, after.cmd) = s
  count : after.wc = before.wc + reports.length
  size : after.outB.length = before.outB.length
  records : written after = written before ++ reports

section Records

variable {core : Core} {before middle after : BatchState core}
  {s t : EngineState core} {first second : List Report}

theorem Room.mono
    {count more : Nat} (room : Room before more) (le : count ≤ more) :
    Room before count :=
  le_trans (Nat.mul_le_mul_right 64 (Nat.add_le_add_left le _)) room

/-- The answers of the book change no record. -/
theorem Wrote.answered (st : BatchState core) (s : EngineState core) :
    Wrote st { st with book := s.1, cmd := s.2 } s [] where
  engine := rfl
  count := rfl
  size := rfl
  records := (List.append_nil _).symm

theorem Wrote.trans
    (left : Wrote before middle s first)
    (right : Wrote middle after t second) :
    Wrote before after t (first ++ second) where
  engine := right.engine
  count := by
    rw [right.count, left.count, List.length_append, Nat.add_assoc]
  size := right.size.trans left.size
  records := by
    rw [right.records, left.records, List.append_assoc]

/-- The room left behind written records. -/
theorem Wrote.room
    (wrote : Wrote before after s first) {records count : Nat}
    (length : first.length = records)
    (room : Room before (records + count)) : Room after count := by
  rw [Room, wrote.count, wrote.size, length, Nat.add_assoc]
  exact room

end Records

/-- Eight writes fill one record and leave those in front of it. -/
theorem rep_of_room
    {core : Core} {st : BatchState core} (room : Room st 1)
    (type side : Nat) (seq oid price : Int64) (qty : Int32)
    (maker taker : Int64) :
    ∃ after,
      rep st type side seq oid price qty maker taker = some after ∧
        Wrote st after (st.book, st.cmd)
          [recordOf type side seq oid price qty maker taker] := by
  rw [Room, Nat.add_mul, Nat.one_mul] at room
  obtain ⟨outB, wrote, size, read, kept⟩ :=
    @putAll_of_fits st.outB
      (reportWrites type side seq oid price qty maker taker (st.wc * 64))
      (by
        simp [reportWrites]
        omega)
      (by simp [reportWrites, Clear])
  refine ⟨{ st with outB := outB, wc := st.wc + 1 }, ?_, rfl, rfl, size, ?_⟩
  · rw [rep, wrote, Option.map_some]
  · have record :
        outReport outB st.wc =
          recordOf type side seq oid price qty maker taker := by
      simp only [reportWrites, List.forall_mem_cons, length_longBytes,
        length_intBytes, List.length_singleton] at read
      obtain ⟨typeRead, sideRead, seqRead, oidRead, priceRead, qtyRead,
        makerRead, takerRead, -⟩ := read
      simp only [outReport, recordOf, typeRead, sideRead, seqRead, oidRead,
        priceRead, qtyRead, makerRead, takerRead, decode_uint8,
        ofNat_longBytes, ofNat_intBytes, Int64.toInt64_toUInt64]
    have front :
        (List.range st.wc).map (outReport outB) =
          (List.range st.wc).map (outReport st.outB) := by
      apply List.map_congr_left
      intro k member
      have before := List.mem_range.mp member
      have clear (offset width : Nat) (inside : offset + width ≤ 64) :
          field outB (k * 64 + offset) width =
            field st.outB (k * 64 + offset) width := by
        apply kept
        simp [reportWrites, Clear]
        omega
      simp only [outReport]
      rw [clear 1 1 (by decide), clear 8 8 (by decide),
        clear 16 8 (by decide), clear 24 8 (by decide),
        clear 32 4 (by decide), clear 40 8 (by decide),
        clear 48 8 (by decide), ← Nat.add_zero (k * 64),
        clear 0 1 (by decide)]
    rw [written, List.range_succ, List.map_append, front, List.map_singleton,
      record]
    rfl

/-- The records of the trades follow those already written. -/
theorem repTrades_of_room
    {core : Core} (taker seq : UInt64) {events : List MatcherTradeEvent}
    {st : BatchState core} (room : Room st (tradesOf events).length)
    (filled : Int64) :
    ∃ after,
      repTrades taker.toInt64 seq.toInt64 st filled events =
          some (after,
            (tradesOf events).foldl (fun filled evt => filled + evt.size)
              filled) ∧
        Wrote st after (st.book, st.cmd)
          ((tradesOf events).map (eventReport seq taker)) := by
  induction events generalizing st filled with
  | nil => exact ⟨st, rfl, Wrote.answered st (st.book, st.cmd)⟩
  | cons evt events induction =>
      by_cases trade : evt.eventType = .trade
      · rw [tradesOf_cons_trade trade] at room ⊢
        obtain ⟨middle, done, wrote⟩ :=
          rep_of_room (room.mono (Nat.le_add_left 1 _)) 1 0 seq.toInt64 0
            evt.price evt.size.toInt32 evt.matchedOrderId taker.toInt64
        have record :
            recordOf 1 0 seq.toInt64 0 evt.price evt.size.toInt32
                evt.matchedOrderId taker.toInt64 =
              eventReport seq taker evt := by
          simp only [recordOf, eventReport, UInt64.toUInt64_toInt64]
          rfl
        rw [record] at wrote
        have left : Room middle (tradesOf events).length := by
          apply wrote.room List.length_singleton
          rw [Nat.add_comm]
          exact room
        obtain ⟨after, rest, more⟩ := induction left (filled + evt.size)
        refine ⟨after, ?_, ?_⟩
        · rw [repTrades, if_neg (not_not.mpr trade), done, Option.bind_some,
            rest, List.foldl_cons]
        · rw [wrote.engine] at more
          exact wrote.trans more
      · rw [tradesOf_cons_other trade] at room ⊢
        rw [repTrades, if_pos trade]
        exact induction room filled

/-! ## One message -/

/-- The book and the command in the middle of a batch. -/
def engineIn {core : Core} (st : BatchState core) : EngineState core :=
  (st.book, st.cmd)

/-- The answer of the batch path to a message. -/
def batchArm (core : Core) (st : BatchState core) :
    Msg → Option (BatchState core)
  | .newOrder o =>
      batchNew core st o.orderId.toInt64 o.sequenceNumber.toInt64
        o.priceTicks o.quantity.toInt32 o.side.toNat o.ioc.toNat
  | .cancel c =>
      batchCancel core st c.orderId.toInt64 c.sequenceNumber.toInt64
  | .modify m =>
      batchModify core st m.orderId.toInt64 m.sequenceNumber.toInt64
        m.newPriceTicks m.newQuantity.toInt32 m.side.toNat

theorem ofNat_toNat_eq_one (flag : UInt8) :
    Int32.ofNat flag.toNat = 1 ↔ flag.toNat = 1 := by
  have small := flag.toNat_lt
  constructor
  · intro equal
    have value := congrArg Int32.toInt equal
    rw [Int32.toInt_ofNat_of_lt (by omega)] at value
    simpa using value
  · intro equal
    rw [equal]
    rfl

/-- Both paths choose the same order type. -/
theorem orderTypeOf_ofNat (flag : UInt8) :
    orderTypeOf (Int32.ofNat flag.toNat) =
      if flag.toNat = 1 then .ioc else .gtc :=
  if_congr (ofNat_toNat_eq_one flag) rfl rfl

/-- A record without a maker and a taker is an ack. -/
theorem recordOf_ack
    (type : Nat) (side : UInt8) (seq oid : UInt64) (price : Int64)
    (qty : Int32) :
    recordOf type side.toNat seq.toInt64 oid.toInt64 price qty 0 0 =
      ackReport (UInt8.ofNat type) seq oid side price qty.toUInt32 := by
  simp only [recordOf, ackReport, UInt64.toUInt64_toInt64, UInt8.ofNat_toNat]
  rfl

section Arms

variable {core : Core} {before st : BatchState core} {s : EngineState core}
  {reports : List Report} (sofar : Wrote before st s reports)
include sofar

/-- One more record, an ack. -/
theorem rep_ack
    (room : Room st 1) (type : Nat) (side : UInt8) (seq oid : UInt64)
    (price : Int64) (qty : Int32) :
    ∃ after,
      rep st type side.toNat seq.toInt64 oid.toInt64 price qty 0 0 =
          some after ∧
        Wrote before after s
          (reports ++
            [ackReport (UInt8.ofNat type) seq oid side price
              qty.toUInt32]) := by
  obtain ⟨after, done, wrote⟩ :=
    rep_of_room room type side.toNat seq.toInt64 oid.toInt64 price qty 0 0
  rw [recordOf_ack, sofar.engine] at wrote
  exact ⟨after, done, sofar.trans wrote⟩

/-- The book's answer to a submission and the records of its trades. -/
theorem repTrades_submitted
    (t : EngineState core)
    (room : Room st (tradesOf t.2.matcherEvent).length)
    (taker seq : UInt64) :
    ∃ after,
      repTrades taker.toInt64 seq.toInt64 { st with book := t.1, cmd := t.2 }
            0 t.2.matcherEvent =
          some (after, batchFilled (tradesOf t.2.matcherEvent)) ∧
        Wrote before after t
          (reports ++
            (tradesOf t.2.matcherEvent).map (eventReport seq taker)) := by
  have answered := Wrote.answered st t
  obtain ⟨after, done, wrote⟩ :=
    repTrades_of_room taker seq
      (answered.room List.length_nil (by rwa [Nat.zero_add])) 0
  exact ⟨after, done, sofar.trans (answered.trans wrote)⟩

end Arms

theorem toNat_removedSide (cmd : OrderCommand) :
    (removedSide cmd).toNat = if cmd.action = .bid then 0 else 1 := by
  rw [removedSide]
  split <;> rfl

/-- A modify whose order was removed records the new order's trades. -/
theorem batchModify_of_removed
    {core : Core} {st : BatchState core} {m : Modify}
    {s t : EngineState core}
    (removal : removed core (engineIn st) m.orderId = (s, .success))
    (placement : placedModify core s m = t) :
    batchArm core st (.modify m) =
      (repTrades m.orderId.toInt64 m.sequenceNumber.toInt64
        { st with book := t.1, cmd := t.2 } 0 t.2.matcherEvent).bind
        fun traded =>
          rep traded.1 3 m.side.toNat m.sequenceNumber.toInt64
            m.orderId.toInt64 m.newPriceTicks m.newQuantity.toInt32 0 0 := by
  have answer :
      core.cancelOrder st.book (cancelCommand st.cmd m.orderId.toInt64) =
        (s.1, s.2, .success) := by
    have book := congrArg (fun r => r.1.1) removal
    have cmd := congrArg (fun r => r.1.2) removal
    have code := congrArg Prod.snd removal
    exact Prod.ext book (Prod.ext cmd code)
  rw [batchArm, batchModify, answer]
  dsimp only
  rw [if_neg (not_not.mpr rfl), ← placement, placedModify]
  rfl

/-- Enough records for a message: an ack, its trades and a residual. -/
def needed (core : Core) (s : EngineState core) (msg : Msg) : Nat :=
  1 + ((fills core s msg).length + 1)

section Messages

variable {core : Core} {st : BatchState core}

/-- A new order: an ack, its trades and the residual of an IOC order. -/
theorem batchNew_of_room
    {o : NewOrder}
    (room : Room st (needed core (engineIn st) (.newOrder o))) :
    ∃ after,
      batchArm core st (.newOrder o) = some after ∧
        Wrote st after (next core (engineIn st) (.newOrder o))
          (reportsWith batchResidual core (engineIn st) (.newOrder o)) := by
  have start : Wrote st st (engineIn st) [] := Wrote.answered st (engineIn st)
  have single : Room st 1 := room.mono (Nat.le_add_right 1 _)
  obtain ⟨acked, ackDone, ack⟩ :=
    rep_ack start single 0 o.side o.sequenceNumber o.orderId o.priceTicks
      o.quantity.toInt32
  obtain ⟨sameBook, sameCmd⟩ := Prod.mk.inj ack.engine
  have answer :
      core.newOrder acked.book
          (placeCommand acked.cmd o.orderId.toInt64 o.priceTicks
            o.quantity.toInt32 (Int32.ofNat o.side.toNat)
            (if o.ioc.toNat = 1 then .ioc else .gtc)) =
        placedNew core (engineIn st) o := by
    rw [sameBook, sameCmd, placedNew, orderTypeOf_ofNat]
    rfl
  have left := ack.room rfl room
  obtain ⟨traded, tradesDone, trades⟩ :=
    repTrades_submitted ack (placedNew core (engineIn st) o)
      (left.mono (Nat.le_add_right _ 1)) o.orderId o.sequenceNumber
  rw [batchArm, batchNew, ackDone, Option.bind_eq_bind, Option.bind_some,
    answer]
  dsimp only
  rw [Option.bind_eq_bind, tradesDone, Option.bind_some]
  dsimp only
  by_cases unfilled :
      o.ioc.toNat = 1 ∧
        batchFilled (tradesOf (placedNew core (engineIn st)
          o).2.matcherEvent) < o.quantity.toInt32.toInt64
  · have enough :
        Room st (1 + (fills core (engineIn st) (.newOrder o)).length + 1) :=
      Nat.add_assoc 1 _ 1 ▸ room
    have last : Room traded 1 := by
      apply trades.room _ enough
      rw [List.length_append, List.length_map]
      rfl
    obtain ⟨after, done, residual⟩ :=
      rep_ack trades last 2 o.side o.sequenceNumber o.orderId
        o.priceTicks
        (o.quantity.toInt32.toInt64 -
          batchFilled (tradesOf (placedNew core (engineIn st)
            o).2.matcherEvent)).toInt32
    rw [if_pos unfilled]
    refine ⟨after, done, ?_⟩
    have residual_eq :
        batchResidual o (fills core (engineIn st) (.newOrder o)) =
          [ackReport meCancelAck o.sequenceNumber o.orderId o.side
            o.priceTicks
            (o.quantity.toInt32.toInt64 -
              batchFilled (fills core (engineIn st)
                (.newOrder o))).toInt32.toUInt32] :=
      if_pos ⟨UInt8.toNat_inj.mp unfilled.1, unfilled.2⟩
    rw [reportsWith, residual_eq]
    rw [UInt32.toUInt32_toInt32] at residual
    exact residual
  · rw [if_neg unfilled]
    refine ⟨traded, rfl, ?_⟩
    have residual_eq :
        batchResidual o (fills core (engineIn st) (.newOrder o)) = [] := by
      apply if_neg
      rintro ⟨flagged, less⟩
      exact unfilled ⟨UInt8.toNat_inj.mpr flagged, less⟩
    rw [reportsWith, residual_eq, List.append_nil]
    rw [UInt32.toUInt32_toInt32] at trades
    exact trades

/-- A cancel: an ack of what was removed, or a reject. -/
theorem batchCancel_of_room
    (reduces : Reduces core) {c : Cancel}
    (room : Room st (needed core (engineIn st) (.cancel c))) :
    ∃ after,
      batchArm core st (.cancel c) = some after ∧
        Wrote st after (next core (engineIn st) (.cancel c))
          (reportsWith batchResidual core (engineIn st) (.cancel c)) := by
  have single : Room st 1 := room.mono (Nat.le_add_right 1 _)
  rw [batchArm, batchCancel]
  by_cases rests : (removed core (engineIn st) c.orderId).2 = .success
  · have chain :=
      reduces st.book (cancelCommand st.cmd c.orderId.toInt64) rests
    obtain ⟨evt, events, reduce⟩ := List.exists_cons_of_ne_nil chain
    have gone := Wrote.answered st (removed core (engineIn st) c.orderId).1
    have price :
        removedPrice (removed core (engineIn st) c.orderId).1.2 =
          evt.price := by
      have same :
          (removed core (engineIn st) c.orderId).1.2.matcherEvent =
            evt :: events :=
        reduce
      rw [removedPrice, same]
      rfl
    obtain ⟨after, done, ack⟩ :=
      rep_ack gone single 2
        (removedSide (removed core (engineIn st) c.orderId).1.2)
        c.sequenceNumber c.orderId evt.price 0
    refine ⟨after, ?_, ?_⟩
    · apply (if_neg (not_not.mpr rests)).trans
      rw [reduce]
      rw [toNat_removedSide] at done
      exact done
    · rw [reportsWith, if_neg (not_not.mpr rests), price]
      exact ack
  · have gone := Wrote.answered st (removed core (engineIn st) c.orderId).1
    obtain ⟨after, done, reject⟩ :=
      rep_ack gone single 4 0 c.sequenceNumber c.orderId 0 0
    refine ⟨after, (if_pos rests).trans done, ?_⟩
    rw [reportsWith, if_pos rests]
    exact reject

/-- A modify: the trades of the new order and an ack, or a reject. -/
theorem batchModify_of_room
    {m : Modify}
    (room : Room st (needed core (engineIn st) (.modify m))) :
    ∃ after,
      batchArm core st (.modify m) = some after ∧
        Wrote st after (next core (engineIn st) (.modify m))
          (reportsWith batchResidual core (engineIn st) (.modify m)) := by
  have start : Wrote st st (engineIn st) [] := Wrote.answered st (engineIn st)
  have single : Room st 1 := room.mono (Nat.le_add_right 1 _)
  by_cases rests : (removed core (engineIn st) m.orderId).2 = .success
  · have size :
        (fills core (engineIn st) (.modify m)).length =
          (tradesOf (placedModify core (removed core (engineIn st)
            m.orderId).1 m).2.matcherEvent).length := by
      rw [fills, if_neg (not_not.mpr rests)]
    have enough := room.mono (Nat.le_add_left _ 1)
    rw [size] at enough
    obtain ⟨traded, tradesDone, trades⟩ :=
      repTrades_submitted start
        (placedModify core (removed core (engineIn st) m.orderId).1 m)
        (enough.mono (Nat.le_add_right _ 1)) m.orderId m.sequenceNumber
    obtain ⟨after, done, ack⟩ :=
      rep_ack trades (trades.room (by simp) enough) 3 m.side
        m.sequenceNumber m.orderId m.newPriceTicks m.newQuantity.toInt32
    refine ⟨after, ?_, ?_⟩
    · rw [batchModify_of_removed (Prod.ext rfl rests) rfl, tradesDone,
        Option.bind_some, done]
    · rw [reportsWith, next, fills, if_neg (not_not.mpr rests),
        if_neg (not_not.mpr rests), if_neg (not_not.mpr rests)]
      rw [UInt32.toUInt32_toInt32] at ack
      exact ack
  · have gone := Wrote.answered st (removed core (engineIn st) m.orderId).1
    obtain ⟨after, done, reject⟩ :=
      rep_ack gone single 5 0 m.sequenceNumber m.orderId 0 0
    refine ⟨after, (if_pos rests).trans done, ?_⟩
    rw [reportsWith, next, if_pos rests, if_pos rests]
    exact reject

/-- With room for its reports a message is answered with the book's answers. -/
theorem batchArm_of_room
    (reduces : Reduces core) {msg : Msg}
    (room : Room st (needed core (engineIn st) msg)) :
    ∃ after,
      batchArm core st msg = some after ∧
        Wrote st after (next core (engineIn st) msg)
          (reportsWith batchResidual core (engineIn st) msg) := by
  cases msg with
  | newOrder o => exact batchNew_of_room room
  | cancel c => exact batchCancel_of_room reduces room
  | modify m => exact batchModify_of_room room

end Messages

/-! ## The input buffer -/

theorem length_msgBytes (msg : Msg) : (msgBytes msg).length = 40 := by
  cases msg <;> simp [msgBytes]

theorem length_batchBytes (msgs : List Msg) :
    (msgs.flatMap msgBytes).length = msgs.length * 40 := by
  rw [List.length_flatMap]
  simp only [length_msgBytes, List.map_const', List.sum_replicate_nat]

/-- A bounded read inside the record of a message. -/
theorem get_batchBytes
    {msgs : List Msg} {i : Nat} {msg : Msg} (here : msgs[i]? = some msg)
    {offset width : Nat} (inside : offset + width ≤ 40) :
    get (msgs.flatMap msgBytes) (i * 40 + offset) width =
      some (field
        (msgBytes msg ++ (msgs.drop (i + 1)).flatMap msgBytes)
        offset width) := by
  obtain ⟨small, found⟩ := List.getElem?_eq_some_iff.mp here
  have split :
      msgs.flatMap msgBytes =
        (msgs.take i).flatMap msgBytes ++
          (msgBytes msg ++ (msgs.drop (i + 1)).flatMap msgBytes) := by
    conv_lhs => rw [← List.take_append_drop i msgs]
    rw [List.flatMap_append, List.drop_eq_getElem_cons small, found,
      List.flatMap_cons]
  have front : ((msgs.take i).flatMap msgBytes).length = i * 40 := by
    rw [length_batchBytes, List.length_take,
      Nat.min_eq_left (Nat.le_of_lt small)]
  apply (if_pos _).trans
  · rw [split, field_skip (by omega), front, Nat.add_sub_cancel_left]
  · rw [length_batchBytes]
    omega

section Reads

variable {bytes : List UInt8} {offset : Nat}

theorem getLong_of_unsigned
    {value : UInt64}
    (read : get bytes offset 8 = some (decode (encode 8 value.toNat))) :
    getLong bytes offset = some value.toInt64 := by
  rw [getLong, read, Option.map_some, decode_uint64]

theorem getLong_of_signed
    {value : Int64}
    (read : get bytes offset 8 =
      some (decode (encode 8 value.toUInt64.toNat))) :
    getLong bytes offset = some value := by
  rw [getLong_of_unsigned read, Int64.toInt64_toUInt64]

theorem getInt_of_unsigned
    {value : UInt32}
    (read : get bytes offset 4 = some (decode (encode 4 value.toNat))) :
    getInt bytes offset = some value.toInt32 := by
  rw [getInt, read, Option.map_some, decode_uint32]

theorem getByte_of_byte
    {value : UInt8} (read : get bytes offset 1 = some (decode [value])) :
    getByte bytes offset = some value.toNat := by
  rw [getByte, read]
  simp [decode]

end Reads

/-- What is read from the record of a message is the message. -/
theorem batchMessage_eq
    (core : Core) (st : BatchState core) {msgs : List Msg} {i : Nat}
    {msg : Msg} (here : msgs[i]? = some msg) :
    batchMessage core (msgs.flatMap msgBytes) st i =
      batchArm core st msg := by
  have type := @get_batchBytes msgs i msg here 0 1 (by decide)
  have oid := @get_batchBytes msgs i msg here 8 8 (by decide)
  have seq := @get_batchBytes msgs i msg here 16 8 (by decide)
  have price := @get_batchBytes msgs i msg here 24 8 (by decide)
  have qty := @get_batchBytes msgs i msg here 32 4 (by decide)
  have side := @get_batchBytes msgs i msg here 36 1 (by decide)
  have ioc := @get_batchBytes msgs i msg here 37 1 (by decide)
  generalize (msgs.drop (i + 1)).flatMap msgBytes = rest at *
  cases msg with
  | newOrder o =>
      have bytes :
          msgBytes (.newOrder o) ++ rest =
            [0] ++ (List.replicate 7 0 ++ (encode 8 o.orderId.toNat ++
              (encode 8 o.sequenceNumber.toNat ++
                (encode 8 o.priceTicks.toUInt64.toNat ++
                  (encode 4 o.quantity.toNat ++ ([o.side] ++ ([o.ioc] ++
                    ([0, 0] ++ rest)))))))) := by
        simp [msgBytes]
      rw [bytes] at type oid seq price qty side ioc
      simp (disch := simp) only [field_head, field_skip, length_encode,
        List.length_singleton, List.length_replicate, Nat.sub_self,
        Nat.reduceSub] at type oid seq price qty side ioc
      have kind : getByte (msgs.flatMap msgBytes) (i * 40) = some 0 :=
        getByte_of_byte type
      rw [batchMessage]
      simp only [Option.bind_eq_bind, kind,
        getLong_of_unsigned oid, getLong_of_unsigned seq,
        getLong_of_signed price, getInt_of_unsigned qty,
        getByte_of_byte side, getByte_of_byte ioc, Option.bind_some]
      rfl
  | cancel c =>
      have bytes :
          msgBytes (.cancel c) ++ rest =
            [1] ++ (List.replicate 7 0 ++ (encode 8 c.orderId.toNat ++
              (encode 8 c.sequenceNumber.toNat ++
                (List.replicate 16 0 ++ rest)))) := by
        simp [msgBytes]
      rw [bytes] at type oid seq
      simp (disch := simp) only [field_head, field_skip, length_encode,
        List.length_singleton, List.length_replicate, Nat.sub_self,
        Nat.reduceSub] at type oid seq
      have kind : getByte (msgs.flatMap msgBytes) (i * 40) = some 1 :=
        getByte_of_byte type
      rw [batchMessage]
      simp only [Option.bind_eq_bind, kind,
        getLong_of_unsigned oid, getLong_of_unsigned seq, Option.bind_some]
      rfl
  | modify m =>
      have bytes :
          msgBytes (.modify m) ++ rest =
            [2] ++ (List.replicate 7 0 ++ (encode 8 m.orderId.toNat ++
              (encode 8 m.sequenceNumber.toNat ++
                (encode 8 m.newPriceTicks.toUInt64.toNat ++
                  (encode 4 m.newQuantity.toNat ++ ([m.side] ++
                    ([0, 0, 0] ++ rest))))))) := by
        simp [msgBytes]
      rw [bytes] at type oid seq price qty side
      simp (disch := simp) only [field_head, field_skip, length_encode,
        List.length_singleton, List.length_replicate, Nat.sub_self,
        Nat.reduceSub] at type oid seq price qty side
      have kind : getByte (msgs.flatMap msgBytes) (i * 40) = some 2 :=
        getByte_of_byte type
      rw [batchMessage]
      simp only [Option.bind_eq_bind, kind,
        getLong_of_unsigned oid, getLong_of_unsigned seq,
        getLong_of_signed price, getInt_of_unsigned qty,
        getByte_of_byte side, Option.bind_some]
      rfl

/-! ## One call -/

/-- The output buffer has its size. -/
def Whole (outB : List UInt8) : Prop :=
  outB.length = outCap * 64

/-- The trades of a message leave room for its other reports. -/
theorem room_of_reserve
    {core : Core} {st : BatchState core} (whole : Whole st.outB)
    (reserve : ¬ st.outB.length / 64 - st.wc < 2048) {msg : Msg}
    (few : FitsStage core (engineIn st) msg) :
    Room st (needed core (engineIn st) msg) := by
  rw [Whole, outCap] at whole
  rw [FitsStage, stageCap] at few
  rw [Room, needed]
  omega

/-- A message makes no more reports than are kept free for it. -/
theorem length_reportsWith_le
    (core : Core) (s : EngineState core) (msg : Msg) :
    (reportsWith batchResidual core s msg).length ≤ needed core s msg := by
  have single (o : NewOrder) (trades : List MatcherTradeEvent) :
      (batchResidual o trades).length ≤ 1 := by
    rw [batchResidual]
    split <;> simp
  cases msg with
  | newOrder o =>
      have residual := single o (fills core s (.newOrder o))
      rw [reportsWith, needed, List.length_append, List.length_cons,
        List.length_map]
      omega
  | cancel c =>
      rw [reportsWith, needed]
      split <;> exact Nat.le_add_right 1 _
  | modify m =>
      rw [reportsWith, needed]
      split
      · exact Nat.le_add_right 1 _
      · rw [List.length_append, List.length_map, List.length_singleton]
        omega

/--
One call answers the first messages of what is left, at least one when it
starts with an empty buffer.
-/
theorem batchLoop_eq
    {core : Core} (reduces : Reduces core) {front todo : List Msg}
    {st : BatchState core} (whole : Whole st.outB) (inside : st.wc ≤ outCap)
    (fit :
      Admitted (answers batchResidual core) (FitsStage core) (engineIn st)
        todo) :
    ∃ handled left after,
      todo = handled ++ left ∧
        batchLoop core ((front ++ todo).flatMap msgBytes) todo.length
            front.length st =
          some (after, front.length + handled.length) ∧
        Wrote st after
          (final (answers batchResidual core) (engineIn st) handled)
          (output (answers batchResidual core) (engineIn st) handled) ∧
        after.wc ≤ outCap ∧
        (st.wc = 0 → handled = [] → left = []) := by
  induction todo generalizing front st with
  | nil =>
      refine ⟨[], [], st, rfl, rfl, ?_, inside, fun _ _ => rfl⟩
      exact Wrote.answered st (engineIn st)
  | cons msg todo induction =>
      rw [List.length_cons, batchLoop]
      by_cases full : st.outB.length / 64 - st.wc < 2048
      · rw [if_pos full]
        refine ⟨[], msg :: todo, st, rfl, rfl, ?_, inside, ?_⟩
        · exact Wrote.answered st (engineIn st)
        · intro empty _
          rw [Whole, outCap] at whole
          omega
      · rw [if_neg full]
        have room := room_of_reserve whole full fit.1
        have here : (front ++ msg :: todo)[front.length]? = some msg := by
          simp
        obtain ⟨middle, done, wrote⟩ := batchArm_of_room reduces room
        rw [batchMessage_eq core st here, done, Option.bind_some]
        have middleInside : middle.wc ≤ outCap := by
          have few := length_reportsWith_le core (engineIn st) msg
          rw [Room, whole] at room
          rw [wrote.count]
          omega
        have middleFit :
            Admitted (answers batchResidual core) (FitsStage core)
              (engineIn middle) todo := by
          rw [show engineIn middle = _ from wrote.engine]
          exact fit.2
        obtain ⟨handled, left, after, split, rest, more, afterInside, -⟩ :=
          @induction (front ++ [msg]) middle (wrote.size.trans whole)
            middleInside middleFit
        rw [show engineIn middle = _ from wrote.engine] at more
        refine ⟨msg :: handled, left, after, ?_, ?_, wrote.trans more,
          afterInside, ?_⟩
        · rw [split, List.cons_append]
        · rw [List.append_assoc, List.singleton_append, List.length_append,
            List.length_singleton] at rest
          rw [rest, List.length_cons]
          congr 2
          omega
        · intro _ none
          exact absurd none (List.cons_ne_nil msg handled)

/-! ## The packed result -/

section Packed

variable {consumed written : Nat} (consumedFits : consumed < 2 ^ 32)
  (writtenFits : written < 2 ^ 32)
include consumedFits writtenFits

theorem toNat_packed :
    ((UInt64.ofNat consumed <<< 32) |||
        (UInt64.ofNat written &&& 0xffffffff)).toNat =
      consumed * 2 ^ 32 + written := by
  have high : (UInt64.ofNat consumed <<< 32).toNat = consumed <<< 32 := by
    rw [UInt64.toNat_shiftLeft,
      UInt64.toNat_ofNat_of_lt' (consumedFits.trans (by decide))]
    apply Nat.mod_eq_of_lt
    change consumed <<< 32 < 2 ^ 64
    rw [Nat.shiftLeft_eq]
    omega
  have low : (UInt64.ofNat written &&& 0xffffffff).toNat = written := by
    rw [UInt64.toNat_and,
      UInt64.toNat_ofNat_of_lt' (writtenFits.trans (by decide))]
    exact (Nat.and_two_pow_sub_one_eq_mod written 32).trans
      (Nat.mod_eq_of_lt writtenFits)
  rw [UInt64.toNat_or, high, low, ← Nat.shiftLeft_add_eq_or_of_lt writtenFits,
    Nat.shiftLeft_eq]

theorem consumed_of_packed :
    (((UInt64.ofNat consumed <<< 32) |||
        (UInt64.ofNat written &&& 0xffffffff)) >>> 32).toUInt32.toNat =
      consumed := by
  rw [UInt64.toNat_toUInt32, UInt64.toNat_shiftRight,
    toNat_packed consumedFits writtenFits]
  change (consumed * 2 ^ 32 + written) >>> 32 % 2 ^ 32 = consumed
  rw [Nat.shiftRight_eq_div_pow]
  omega

theorem written_of_packed :
    (((UInt64.ofNat consumed <<< 32) |||
        (UInt64.ofNat written &&& 0xffffffff)) &&&
          0xffffffff).toUInt32.toNat =
      written := by
  rw [UInt64.toNat_toUInt32, UInt64.toNat_and,
    toNat_packed consumedFits writtenFits]
  change ((consumed * 2 ^ 32 + written) &&& (2 ^ 32 - 1)) % 2 ^ 32 = written
  rw [Nat.and_two_pow_sub_one_eq_mod]
  omega

end Packed

/-! ## The resume loop -/

/-- The calls cover a stretch of messages without gap or overlap. -/
def Covers : Nat → Nat → List (Nat × Nat) → Prop
  | start, stop, [] => start = stop
  | start, stop, call :: calls =>
      call.1 = start ∧ start < call.2 ∧ Covers call.2 stop calls

/-- One call of `on_batch` that answers some of the messages that are left. -/
structure Called
    (core : Core) (helper next : Helper core) (handled : List Msg)
    (written : Nat) : Prop where
  progress : 0 < handled.length
  few : written < 2 ^ 32
  engine : engineOf next =
    final (answers batchResidual core) (engineOf helper) handled
  size : next.outB.length = helper.outB.length
  stage : next.tradeBuf = helper.tradeBuf
  records : (List.range written).map (outReport next.outB) =
    output (answers batchResidual core) (engineOf helper) handled

theorem onBatch_called
    {core : Core} (reduces : Reduces core) {front todo : List Msg}
    {helper : Helper core} (whole : Whole helper.outB) (some_ : todo ≠ [])
    (fit :
      Admitted (answers batchResidual core) (FitsStage core)
        (engineOf helper) todo) :
    ∃ handled left next written,
      todo = handled ++ left ∧
        onBatch core helper ((front ++ todo).flatMap msgBytes) front.length
            (front ++ todo).length =
          some (next,
            (UInt64.ofNat (front.length + handled.length) <<< 32) |||
              (UInt64.ofNat written &&& 0xffffffff)) ∧
        Called core helper next handled written := by
  obtain ⟨handled, left, after, split, looped, wrote, inside, progress⟩ :=
    @batchLoop_eq core reduces front todo
      { book := helper.book, cmd := helper.cmd, outB := helper.outB, wc := 0 }
      whole (Nat.zero_le _) fit
  refine ⟨handled, left,
    { helper with book := after.book, cmd := after.cmd, outB := after.outB },
    after.wc, split, ?_, ?_⟩
  · have remaining :
        (front ++ todo).length - front.length = todo.length := by
      rw [List.length_append, Nat.add_sub_cancel_left]
    rw [onBatch, remaining, looped]
    rfl
  · constructor
    · apply List.length_pos_iff.mpr
      intro empty
      rw [empty, progress rfl empty] at split
      exact some_ split
    · exact lt_of_le_of_lt inside (by decide)
    · exact wrote.engine
    · exact wrote.size
    · rfl
    · exact wrote.records

/-- The resume loop answers every message that is left. -/
theorem resumeLoop_eq
    {core : Core} (reduces : Reduces core) {front todo : List Msg}
    {helper : Helper core} (whole : Whole helper.outB)
    (short : (front ++ todo).length < 2 ^ 32)
    (fit :
      Admitted (answers batchResidual core) (FitsStage core)
        (engineOf helper) todo) :
    ∃ batch,
      resumeLoop core ((front ++ todo).flatMap msgBytes)
          (front ++ todo).length front.length helper = some batch ∧
        batch.stuck = false ∧
        Covers front.length (front ++ todo).length batch.calls ∧
        batch.reports =
          output (answers batchResidual core) (engineOf helper) todo ∧
        engineOf batch.helper =
          final (answers batchResidual core) (engineOf helper) todo ∧
        Whole batch.helper.outB ∧
        batch.helper.tradeBuf = helper.tradeBuf := by
  induction size : todo.length using Nat.strong_induction_on
    generalizing front todo helper with
  | _ count induction =>
  rw [resumeLoop]
  cases todo with
  | nil =>
      rw [dif_neg (by simp)]
      refine ⟨_, rfl, rfl, ?_, rfl, rfl, whole, rfl⟩
      rw [Covers, List.append_nil]
  | cons msg todo =>
      obtain ⟨handled, left, next, written, split, called, after⟩ :=
        @onBatch_called core reduces front (msg :: todo) helper whole
          (List.cons_ne_nil msg todo) fit
      have progress := after.progress
      rw [split] at called short size fit ⊢
      rw [List.length_append] at size short
      rw [List.length_append] at short
      have consumedFits : front.length + handled.length < 2 ^ 32 := by
        omega
      rw [admitted_append] at fit
      obtain ⟨rest, resumed, moving, covers, reports, ends, wholeRest, stage⟩ :=
        @induction left.length (by omega) (front ++ handled) left next
          (after.size.trans whole)
          (by
            rw [List.length_append, List.length_append]
            omega)
          (after.engine ▸ fit.2) rfl
      have joined :
          (front ++ handled).length = front.length + handled.length :=
        List.length_append
      rw [List.append_assoc, joined] at resumed covers
      rw [dif_pos (by
        rw [List.length_append, List.length_append]
        omega)]
      rw [called]
      dsimp only
      rw [consumed_of_packed consumedFits after.few,
        written_of_packed consumedFits after.few, dif_neg (by omega),
        resumed, Option.map_some]
      refine ⟨_, rfl, moving, ⟨rfl, by omega, covers⟩, ?_, ?_, wholeRest,
        stage.trans after.stage⟩
      · rw [output_append, ← after.engine, ← reports, ← after.records]
      · rw [final_append, ← after.engine]
        exact ends

/-! ## Overruns -/

section Overruns

variable {core : Core} {st after : BatchState core} (whole : Whole st.outB)
include whole

/-- A record is only written where there is room for it. -/
theorem room_of_rep
    {type side : Nat} {seq oid price : Int64} {qty : Int32}
    {maker taker : Int64}
    (wrote : rep st type side seq oid price qty maker taker = some after) :
    Room st 1 := by
  by_contra full
  have overrun : st.outB.length < st.wc * 64 + [UInt8.ofNat type].length := by
    rw [Room, whole, Nat.mul_le_mul_right_iff (by decide)] at full
    rw [whole, List.length_singleton]
    omega
  have none_ := @putAll_of_overrun st.outB
    (reportWrites type side seq oid price qty maker taker (st.wc * 64))
    (st.wc * 64, [UInt8.ofNat type]) List.mem_cons_self overrun
  rw [rep, none_] at wrote
  cases wrote

/-- All trades of an answer have been written within the buffer. -/
theorem room_of_repTrades
    {taker seq : UInt64} {events : List MatcherTradeEvent}
    {filled total : Int64} (inside : st.wc ≤ outCap)
    (wrote : repTrades taker.toInt64 seq.toInt64 st filled events =
      some (after, total)) :
    st.wc + (tradesOf events).length ≤ outCap := by
  induction events generalizing st filled with
  | nil => exact inside
  | cons evt events induction =>
      rw [repTrades] at wrote
      by_cases trade : evt.eventType = .trade
      · rw [if_neg (not_not.mpr trade)] at wrote
        obtain ⟨middle, one, rest⟩ := Option.bind_eq_some_iff.mp wrote
        have room := room_of_rep whole one
        obtain ⟨next, done, record⟩ := rep_of_room room 1 0 seq.toInt64 0
          evt.price evt.size.toInt32 evt.matchedOrderId taker.toInt64
        rw [one, Option.some_inj] at done
        subst done
        have counted : middle.wc = st.wc + 1 := record.count
        rw [Room, whole, Nat.mul_le_mul_right_iff (by decide)] at room
        have later := induction (record.size.trans whole) (by omega) rest
        rw [tradesOf_cons_trade trade, List.length_cons]
        omega
      · rw [if_pos trade] at wrote
        rw [tradesOf_cons_other trade]
        exact induction whole inside wrote

/-- A new order with more reports than there are records left aborts. -/
theorem batchNew_of_overrun
    {o : NewOrder}
    (many : outCap <
      st.wc + 1 + (fills core (engineIn st) (.newOrder o)).length) :
    batchArm core st (.newOrder o) = none := by
  rw [Option.eq_none_iff_forall_ne_some]
  intro after answered
  rw [batchArm, batchNew, Option.bind_eq_bind] at answered
  obtain ⟨acked, ack, answered⟩ := Option.bind_eq_some_iff.mp answered
  have room := room_of_rep whole ack
  obtain ⟨next, done, record⟩ := rep_of_room room 0 o.side.toNat
    o.sequenceNumber.toInt64 o.orderId.toInt64 o.priceTicks
    o.quantity.toInt32 0 0
  rw [ack, Option.some_inj] at done
  subst done
  obtain ⟨sameBook, sameCmd⟩ := Prod.mk.inj record.engine
  have counted : acked.wc = st.wc + 1 := record.count
  have answer :
      core.newOrder acked.book
          (placeCommand acked.cmd o.orderId.toInt64 o.priceTicks
            o.quantity.toInt32 (Int32.ofNat o.side.toNat)
            (if o.ioc.toNat = 1 then .ioc else .gtc)) =
        placedNew core (engineIn st) o := by
    rw [sameBook, sameCmd, placedNew, orderTypeOf_ofNat]
    rfl
  rw [answer] at answered
  dsimp only at answered
  rw [Option.bind_eq_bind] at answered
  obtain ⟨⟨traded, total⟩, trades, -⟩ := Option.bind_eq_some_iff.mp answered
  rw [Room, whole, Nat.mul_le_mul_right_iff (by decide)] at room
  have inside : acked.wc ≤ outCap := by omega
  have few := @room_of_repTrades core
    { acked with
      book := (placedNew core (engineIn st) o).1
      cmd := (placedNew core (engineIn st) o).2 } traded
    (record.size.trans whole) o.orderId o.sequenceNumber _ 0 total inside
    trades
  rw [fills] at many
  dsimp only at few
  omega

end Overruns

/-- A batch of one new order that makes 65536 trades or more aborts. -/
theorem engineOnBatch_of_overrun
    {core : Core} {helper : Helper core} (whole : Whole helper.outB)
    {o : NewOrder}
    (many : outCap ≤ (fills core (engineOf helper) (.newOrder o)).length) :
    engineOnBatch core helper [.newOrder o] = none := by
  let st : BatchState core :=
    { book := helper.book, cmd := helper.cmd, outB := helper.outB, wc := 0 }
  have overrun : batchArm core st (.newOrder o) = none :=
    @batchNew_of_overrun core st whole o (by
      have same : engineIn st = engineOf helper := rfl
      rw [same]
      omega)
  have message := batchMessage_eq core st
    (show [Msg.newOrder o][0]? = some (.newOrder o) from rfl)
  have reserve : ¬helper.outB.length / 64 - 0 < 2048 := by
    rw [whole, outCap]
    decide
  have aborted : onBatch core helper ([Msg.newOrder o].flatMap msgBytes) 0 1 =
      none := by
    rw [onBatch, batchLoop, if_neg reserve]
    change Option.map _ (Option.bind (batchMessage core _ st 0) _) = _
    rw [message, overrun]
    rfl
  have some_ : 0 < [Msg.newOrder o].length := Nat.zero_lt_one
  rw [engineOnBatch, resumeLoop, dif_pos some_, List.length_singleton, aborted]

end MatchingBench.Baselines.ExchangeCoreBatch
