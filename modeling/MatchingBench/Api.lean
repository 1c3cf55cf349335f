/-!
# The engine ABI

The records of `api/matching_engine_api.h`: the three workload messages, the
tagged message handed to `engine_on_batch`, and the report an engine pushes.
Padding fields carry no information and are left out.
-/

set_option autoImplicit false

namespace MatchingBench.Api

/-! ## Workload messages -/

/-- `new_order_t`. -/
structure NewOrder where
  orderId : UInt64
  sequenceNumber : UInt64
  /-- Signed integer ticks. -/
  priceTicks : Int64
  quantity : UInt32
  /-- 0 = buy, 1 = sell. -/
  side : UInt8
  /-- 1 if immediate-or-cancel. -/
  ioc : UInt8
deriving DecidableEq, Repr, Inhabited

/-- `cancel_t`. -/
structure Cancel where
  orderId : UInt64
  sequenceNumber : UInt64
deriving DecidableEq, Repr, Inhabited

/-- `modify_t`. -/
structure Modify where
  orderId : UInt64
  sequenceNumber : UInt64
  newPriceTicks : Int64
  newQuantity : UInt32
  /-- The order's side. -/
  side : UInt8
deriving DecidableEq, Repr, Inhabited

/-- `me_msg_t`: a message with its arm, the tags being 0, 1 and 2. -/
inductive Msg where
  | newOrder (order : NewOrder)
  | cancel (request : Cancel)
  | modify (request : Modify)
deriving DecidableEq, Repr

/-- The tag in the `type` field. -/
def Msg.type : Msg → UInt8
  | .newOrder _ => 0
  | .cancel _ => 1
  | .modify _ => 2

/-- The order a message names. -/
def Msg.orderId : Msg → UInt64
  | .newOrder order => order.orderId
  | .cancel request => request.orderId
  | .modify request => request.orderId

/-- The message's own sequence number. -/
def Msg.sequenceNumber : Msg → UInt64
  | .newOrder order => order.sequenceNumber
  | .cancel request => request.sequenceNumber
  | .modify request => request.sequenceNumber

/-! ## Reports -/

/-- `ME_ORDER_ACK`. -/
def meOrderAck : UInt8 := 0

/-- `ME_TRADE`. -/
def meTrade : UInt8 := 1

/-- `ME_CANCEL_ACK`. -/
def meCancelAck : UInt8 := 2

/-- `ME_MODIFY_ACK`. -/
def meModifyAck : UInt8 := 3

/-- `ME_CANCEL_REJECT`: cancel of an order that is not resting. -/
def meCancelReject : UInt8 := 4

/-- `ME_MODIFY_REJECT`: modify of an order that is not resting. -/
def meModifyReject : UInt8 := 5

/-- `me_report_t`. -/
structure Report where
  /-- A `me_report_type_t` value. -/
  type : UInt8
  /-- Originating order side, where meaningful. -/
  side : UInt8
  sequenceNumber : UInt64
  orderId : UInt64
  /-- For a trade, the maker's resting price. -/
  priceTicks : Int64
  quantity : UInt32
  /-- Set by trades only. -/
  makerOrderId : UInt64
  /-- Set by trades only. -/
  takerOrderId : UInt64
deriving DecidableEq, Repr, Inhabited

/-- A non-trade report, as every adapter's `emit_ack` fills it. -/
def ackReport
    (type : UInt8) (seq orderId : UInt64)
    (side : UInt8) (price : Int64) (qty : UInt32) : Report where
  type := type
  side := side
  sequenceNumber := seq
  orderId := orderId
  priceTicks := price
  quantity := qty
  makerOrderId := 0
  takerOrderId := 0

/-- `INT64_MIN`, the best bid of a book without bids. -/
def int64Min : Int64 := Int64.minValue

/-- `INT64_MAX`, the best ask of a book without asks. -/
def int64Max : Int64 := Int64.maxValue

end MatchingBench.Api
