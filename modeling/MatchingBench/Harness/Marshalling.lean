import MatchingBench.Api

/-!
# Marshalling of workload messages

The decoded workload of `harness.h` and the three places that turn a workload
message into an ABI struct: the prepared array of `harness.cpp`, and `feed`
and `prebuild_msg` of `audit.cpp`.
-/

set_option autoImplicit false

namespace MatchingBench.Harness.Marshalling

open MatchingBench.Api

/-! ## The workload -/

/-- `WORKLOAD_MAX`. -/
def workloadMax : Nat := 100 * 1000 * 1000

/-- `WorkloadMsg`: one decoded record. -/
structure WorkloadMsg where
  /-- 0 = NEW, 1 = CANCEL, 2 = MODIFY. -/
  type : UInt8
  side : UInt8
  ioc : UInt8
  qty : UInt32
  seq : UInt64
  orderId : UInt64
  priceTicks : Int64
deriving DecidableEq, Repr, Inhabited

/--
A workload that passed the checks of `load_workload`: a record count in the
accepted range and record types at most 2.
-/
structure Workload where
  msgs : List WorkloadMsg
  nonempty : 0 < msgs.length
  capped : msgs.length ≤ workloadMax
  typed : ∀ m ∈ msgs, m.type ≤ 2

/-! ## The prepared array -/

/-- The arm of the message union that was written last. -/
inductive Arm where
  | no (order : NewOrder)
  | c (request : Cancel)
  | md (request : Modify)
deriving DecidableEq, Repr

/-- `PreparedMsg`, laid out as `me_msg_t`. -/
structure PreparedMsg where
  type : UInt8
  arm : Arm
deriving DecidableEq, Repr

/-- Reading `p.no`; the other arms are never live when this is read. -/
def PreparedMsg.no (p : PreparedMsg) : NewOrder :=
  match p.arm with
  | .no order => order
  | _ => default

/-- Reading `p.c`. -/
def PreparedMsg.c (p : PreparedMsg) : Cancel :=
  match p.arm with
  | .c request => request
  | _ => default

/-- Reading `p.md`. -/
def PreparedMsg.md (p : PreparedMsg) : Modify :=
  match p.arm with
  | .md request => request
  | _ => default

/-- One iteration of the loop that fills the prepared array. -/
def prepare (m : WorkloadMsg) : PreparedMsg where
  type := m.type
  arm :=
    if m.type = 0 then
      .no
        { orderId := m.orderId
          sequenceNumber := m.seq
          priceTicks := m.priceTicks
          quantity := m.qty
          side := m.side
          ioc := m.ioc }
    else if m.type = 1 then
      .c
        { orderId := m.orderId
          sequenceNumber := m.seq }
    else
      .md
        { orderId := m.orderId
          sequenceNumber := m.seq
          newPriceTicks := m.priceTicks
          newQuantity := m.qty
          side := m.side }

/-- The handler and argument the `dispatch` lambda calls. -/
def dispatchMsg (p : PreparedMsg) : Msg :=
  if p.type = 0 then .newOrder p.no
  else if p.type = 1 then .cancel p.c
  else .modify p.md

/-- The arguments of the harness's `eng.prebuild` call. -/
def prebuildArgs (p : PreparedMsg) : UInt8 × Arm :=
  (p.type,
    if p.type = 0 then .no p.no
    else if p.type = 1 then .c p.c
    else .md p.md)

/-! ## The audit replay's marshalling -/

/-- The handler and argument `feed` calls. -/
def feedMsg (m : WorkloadMsg) : Msg :=
  if m.type = 0 then
    .newOrder
      { orderId := m.orderId
        sequenceNumber := m.seq
        priceTicks := m.priceTicks
        quantity := m.qty
        side := m.side
        ioc := m.ioc }
  else if m.type = 1 then
    .cancel
      { orderId := m.orderId
        sequenceNumber := m.seq }
  else
    .modify
      { orderId := m.orderId
        sequenceNumber := m.seq
        newPriceTicks := m.priceTicks
        newQuantity := m.qty
        side := m.side }

/-- The arguments of the `e.prebuild` call in `prebuild_msg`. -/
def prebuildMsgArgs (m : WorkloadMsg) : UInt8 × Arm :=
  if m.type = 0 then
    (0, .no
      { orderId := m.orderId
        sequenceNumber := m.seq
        priceTicks := m.priceTicks
        quantity := m.qty
        side := m.side
        ioc := m.ioc })
  else if m.type = 1 then
    (1, .c
      { orderId := m.orderId
        sequenceNumber := m.seq })
  else
    (2, .md
      { orderId := m.orderId
        sequenceNumber := m.seq
        newPriceTicks := m.priceTicks
        newQuantity := m.qty
        side := m.side })

/-- A record type that is neither NEW nor CANCEL is MODIFY. -/
theorem type_eq_two
    {type : UInt8} (typed : type ≤ 2) (notNew : type ≠ 0)
    (notCancel : type ≠ 1) : type = 2 := by
  rw [UInt8.le_iff_toNat_le] at typed
  simp only [ne_eq, ← UInt8.toNat_inj, UInt8.reduceToNat] at *
  omega

/-- The engine and the replayed baseline receive the same message. -/
theorem dispatchMsg_prepare (m : WorkloadMsg) :
    dispatchMsg (prepare m) = feedMsg m := by
  unfold dispatchMsg feedMsg prepare
  by_cases isNew : m.type = 0
  · simp [isNew, PreparedMsg.no]
  · by_cases isCancel : m.type = 1
    · simp [isCancel, PreparedMsg.c]
    · simp [isNew, isCancel, PreparedMsg.md]

/-- The engine and the baseline are prebuilt with the same message. -/
theorem prebuildArgs_prepare
    {m : WorkloadMsg} (typed : m.type ≤ 2) :
    prebuildArgs (prepare m) = prebuildMsgArgs m := by
  unfold prebuildArgs prebuildMsgArgs prepare
  by_cases isNew : m.type = 0
  · simp [isNew, PreparedMsg.no]
  · by_cases isCancel : m.type = 1
    · simp [isCancel, PreparedMsg.c]
    · have isModify := type_eq_two typed isNew isCancel
      simp [isModify, PreparedMsg.md]

end MatchingBench.Harness.Marshalling
