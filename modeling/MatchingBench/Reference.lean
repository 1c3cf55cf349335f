import MatchingBench.Correctness
import MatchingBench.Lib.OrderBook
import MatchingBench.Lib.Runs

/-!
# The reference matcher

What `matching_engine_api.h` and the methodology ask of an engine, stated over
price-time order books: this module is the abstract behaviour the engines are
compared with, not a translation of one of them.  It leaves the order of the
prices open; the reference compares them as signed integers, while an engine
that casts them may match by another order.
-/

set_option autoImplicit false

namespace MatchingBench.Reference

open MatchingBench.Api
open MatchingBench.Correctness
open MatchingBench.Lib.PriceTime
open MatchingBench.Lib.OrderBook
open MatchingBench.Lib.Runs

/-! ## Sides on the wire -/

/-- 0 = buy, 1 = sell. -/
def sideOf (side : UInt8) : Side :=
  if side = 0 then .buy else .sell

/-- The wire value of a side. -/
def sideByte : Side → UInt8
  | .buy => 0
  | .sell => 1

@[simp]
theorem sideOf_sideByte (side : Side) : sideOf (sideByte side) = side := by
  cases side <;> rfl

theorem sideByte_sideOf {side : UInt8} (valid : side = 0 ∨ side = 1) :
    sideByte (sideOf side) = side := by
  rcases valid with rfl | rfl <;> rfl

/-! ## Messages -/

section Matcher

variable [LinearOrder Int64] {allowed : Int64 → Prop}

/-- The live book: client order ids, prices in ticks. -/
abbrev LiveBook := Book UInt64 Int64

/-- One Trade per fill, at the maker's price. -/
def tradeReport
    (seq takerOrderId : UInt64) (fill : Fill UInt64 Int64) : Report where
  type := meTrade
  side := 0
  sequenceNumber := seq
  orderId := 0
  priceTicks := fill.maker.price
  quantity := UInt32.ofNat fill.qty
  makerOrderId := fill.maker.id
  takerOrderId := takerOrderId

/-- The resting form of a new order. -/
def submittedOrder (order : NewOrder) : Resting UInt64 Int64 where
  id := order.orderId
  price := order.priceTicks
  qty := order.quantity.toNat

/-- The order a modify re-inserts. -/
def modifiedOrder (request : Modify) : Resting UInt64 Int64 where
  id := request.orderId
  price := request.newPriceTicks
  qty := request.newQuantity.toNat

/--
A new order: an OrderAck, a Trade per fill, and for an IOC order with an
unfilled remainder a CancelAck.  The contract excludes an identifier that is
still resting; such a message is ignored.
-/
def newOrder (book : LiveBook) (order : NewOrder) :
    LiveBook × List Report :=
  if fresh : book.lookup order.orderId = none then
    let submitted :=
      book.submit (sideOf order.side) (submittedOrder order) (order.ioc = 0)
        fresh
    (submitted.book,
      ackReport meOrderAck order.sequenceNumber order.orderId order.side
          order.priceTicks order.quantity ::
        submitted.fills.map
          (tradeReport order.sequenceNumber order.orderId) ++
        if order.ioc ≠ 0 ∧ submitted.left ≠ 0 then
          [ackReport meCancelAck order.sequenceNumber order.orderId
            order.side order.priceTicks (UInt32.ofNat submitted.left)]
        else
          [])
  else
    (book, [])

/-- A cancel: withdraw the order, or reject. -/
def cancel (book : LiveBook) (request : Cancel) : LiveBook × List Report :=
  match book.lookup request.orderId with
  | some (side, order) =>
      (book.withdraw request.orderId,
        [ackReport meCancelAck request.sequenceNumber request.orderId
          (sideByte side) order.price (UInt32.ofNat order.qty)])
  | none =>
      (book,
        [ackReport meCancelReject request.sequenceNumber request.orderId
          0 0 0])

/--
A modify: withdraw the order and submit it anew on its own side at the new
price and quantity, or reject.
-/
def modify (book : LiveBook) (request : Modify) : LiveBook × List Report :=
  match book.lookup request.orderId with
  | some (side, _) =>
      let submitted :=
        (book.withdraw request.orderId).submit side (modifiedOrder request)
          true (book.lookup_withdraw_self request.orderId)
      (submitted.book,
        submitted.fills.map
            (tradeReport request.sequenceNumber request.orderId) ++
          [ackReport meModifyAck request.sequenceNumber request.orderId
            (sideByte side) request.newPriceTicks request.newQuantity])
  | none =>
      (book,
        [ackReport meModifyReject request.sequenceNumber request.orderId
          0 0 0])

/-- Process one message. -/
def step (book : LiveBook) : Msg → LiveBook × List Report
  | .newOrder order => newOrder book order
  | .cancel request => cancel book request
  | .modify request => modify book request

/-! ## Queries -/

/-- Best bid, or `INT64_MIN`. -/
def bestBid (book : LiveBook) : Int64 :=
  (book.best .buy).getD int64Min

/-- Best ask, or `INT64_MAX`. -/
def bestAsk (book : LiveBook) : Int64 :=
  (book.best .sell).getD int64Max

/-- The quantity resting at a price. -/
def depthAt (book : LiveBook) (price : Int64) (side : UInt8) : UInt64 :=
  UInt64.ofNat (book.depth (sideOf side) price)

/-! ## Legal messages -/

/--
The contract of a message: the identifier of a new order is not resting, sides
are 0 or 1, quantities are at least 1, prices are allowed, and a modify carries
its resting order's side.
-/
def Legal (allowed : Int64 → Prop) (book : LiveBook) : Msg → Prop
  | .newOrder order =>
      book.lookup order.orderId = none ∧
        (order.side = 0 ∨ order.side = 1) ∧
        1 ≤ order.quantity.toNat ∧ allowed order.priceTicks
  | .cancel _ => True
  | .modify request =>
      (request.side = 0 ∨ request.side = 1) ∧
        1 ≤ request.newQuantity.toNat ∧
        allowed request.newPriceTicks ∧
        ∀ side order, book.lookup request.orderId = some (side, order) →
          request.side = sideByte side

section Decide

variable [DecidablePred allowed]

instance (book : LiveBook) (m : Msg) : Decidable (Legal allowed book m) :=
  match m with
  | .newOrder _ => inferInstanceAs (Decidable (_ ∧ _ ∧ _ ∧ _))
  | .cancel _ => inferInstanceAs (Decidable True)
  | .modify request =>
      match found : book.lookup request.orderId with
      | none =>
          decidable_of_iff
            ((request.side = 0 ∨ request.side = 1) ∧
              1 ≤ request.newQuantity.toNat ∧
              allowed request.newPriceTicks)
            (by simp [Legal, found])
      | some (side, _) =>
          decidable_of_iff
            ((request.side = 0 ∨ request.side = 1) ∧
              1 ≤ request.newQuantity.toNat ∧
              allowed request.newPriceTicks ∧
              request.side = sideByte side)
            (by simp [Legal, found])

instance decidableAdmitted (book : LiveBook) (msgs : List Msg) :
    Decidable (Admitted step (Legal allowed) book msgs) :=
  match msgs with
  | [] => inferInstanceAs (Decidable True)
  | m :: rest =>
      have := decidableAdmitted (step book m).1 rest
      inferInstanceAs (Decidable (_ ∧ _))

end Decide

/-- Every message is legal when it arrives, from an empty book. -/
def LegalRun (allowed : Int64 → Prop) (msgs : List Msg) : Prop :=
  Admitted step (Legal allowed) Book.empty msgs

instance [DecidablePred allowed] (msgs : List Msg) :
    Decidable (LegalRun allowed msgs) :=
  decidableAdmitted Book.empty msgs

theorem LegalRun.of_prefix
    {front msgs : List Msg} (legal : LegalRun allowed msgs)
    (reached : front <+: msgs) : LegalRun allowed front := by
  obtain ⟨back, rfl⟩ := reached
  exact (admitted_append.mp legal).1

theorem LegalRun.mono
    {weaker : Int64 → Prop} {msgs : List Msg} (legal : LegalRun allowed msgs)
    (implied : ∀ price, allowed price → weaker price) :
    LegalRun weaker msgs := by
  refine Admitted.mono legal fun book m permitted => ?_
  cases m with
  | newOrder order =>
      obtain ⟨fresh, sided, some_, price⟩ := permitted
      exact ⟨fresh, sided, some_, implied _ price⟩
  | cancel request => trivial
  | modify request =>
      obtain ⟨sided, some_, price, own⟩ := permitted
      exact ⟨sided, some_, implied _ price, own⟩

/-- The prices of the new orders of a legal run are allowed. -/
theorem LegalRun.newOrder_allowed
    {msgs : List Msg} (legal : LegalRun allowed msgs) {order : NewOrder}
    (member : .newOrder order ∈ msgs) : allowed order.priceTicks := by
  obtain ⟨_, _, _, _, permitted⟩ := Admitted.of_mem legal member
  exact permitted

/-- The book after a run from empty. -/
def bookAfter (msgs : List Msg) : LiveBook :=
  final step Book.empty msgs

/-- The reports of a run from empty. -/
def reportsOf (msgs : List Msg) : List Report :=
  output step Book.empty msgs

end Matcher

/-! ## Agreement of report lists -/

/-- The same canonical text, from as many reports. -/
def SameReports (left right : List Report) : Prop :=
  SameCanonical (left.map collect) (right.map collect) ∧
    left.length = right.length

theorem SameReports.refl (reports : List Report) :
    SameReports reports reports :=
  ⟨SameCanonical.refl _, rfl⟩

theorem SameReports.append
    (a b c d : List Report)
    (first : SameReports a b) (second : SameReports c d) :
    SameReports (a ++ c) (b ++ d) := by
  constructor
  · rw [List.map_append, List.map_append]
    exact first.1.append second.1
  · rw [List.length_append, List.length_append, first.2, second.2]

theorem SameReports.symm
    {left right : List Report} (same : SameReports left right) :
    SameReports right left :=
  ⟨same.1.symm, same.2.symm⟩

theorem SameReports.trans
    {left middle right : List Report}
    (first : SameReports left middle) (second : SameReports middle right) :
    SameReports left right :=
  ⟨first.1.trans second.1, first.2.trans second.2⟩

/-- Two reports of one class that print the same line. -/
structure Prints (a b : Report) : Prop where
  seq : a.sequenceNumber = b.sequenceNumber
  type : a.type = b.type
  printed : (collect a).printed = (collect b).printed

theorem SameReports.singleton {a b : Report} (prints : Prints a b) :
    SameReports [a] [b] := by
  refine ⟨fun s t _ => ?_, rfl⟩
  have keys :
      ((collect a).seq = s ∧ (collect a).type = t) ↔
        ((collect b).seq = s ∧ (collect b).type = t) := by
    rw [show (collect a).seq = (collect b).seq from prints.seq,
      show (collect a).type = (collect b).type from prints.type]
  by_cases here : (collect b).seq = s ∧ (collect b).type = t
  · simp [reportClass, keys, here, prints.printed]
  · simp [reportClass, keys, here]

/-- Lists that print the same line by line. -/
theorem SameReports.of_prints
    {left right : List Report} (prints : List.Forall₂ Prints left right) :
    SameReports left right := by
  induction prints with
  | nil => exact SameReports.refl []
  | cons head _ induction =>
      exact SameReports.append [_] [_] _ _ (SameReports.singleton head)
        induction

/-- Reports of different types may be swapped. -/
theorem SameReports.swap
    {front back : List Report}
    (apart : ∀ a ∈ front, ∀ b ∈ back, a.type ≠ b.type) :
    SameReports (front ++ back) (back ++ front) := by
  refine ⟨fun seq type _ => ?_, by simp [Nat.add_comm]⟩
  have nothing (reports : List Report)
      (other : ∀ r ∈ reports, r.type ≠ type) :
      reportClass seq type (reports.map collect) = [] := by
    rw [reportClass, List.filter_eq_nil_iff]
    intro r member
    obtain ⟨report, inside, rfl⟩ := List.mem_map.mp member
    simp [collect, other report inside]
  have split (left right : List Report) :
      reportClass seq type ((left ++ right).map collect) =
        reportClass seq type (left.map collect) ++
          reportClass seq type (right.map collect) := by
    rw [List.map_append, reportClass, List.filter_append]
    rfl
  rw [split, split]
  by_cases inFront : ∃ a ∈ front, a.type = type
  · obtain ⟨a, member, same⟩ := inFront
    rw [nothing back fun b inside equal =>
      apart a member b inside (same.trans equal.symm)]
    simp
  · rw [nothing front fun a inside equal => inFront ⟨a, inside, equal⟩]
    simp

/-- It makes no difference whether an acknowledgement precedes the trades. -/
theorem SameReports.ack_first
    {ack : Report} (other : ack.type ≠ meTrade) (seq takerOrderId : UInt64)
    (fills : List (Fill UInt64 Int64)) :
    SameReports (ack :: fills.map (tradeReport seq takerOrderId))
      (fills.map (tradeReport seq takerOrderId) ++ [ack]) := by
  refine @SameReports.swap [ack] _ ?_
  intro a first b later
  obtain ⟨fill, _, rfl⟩ := List.mem_map.mp later
  rw [List.mem_singleton.mp first]
  exact other

/-! ## Signed prices -/

/-- Prices are compared as signed integers. -/
instance signedOrder : LinearOrder Int64 where
  le_refl _ := Int64.le_refl _
  le_trans _ _ _ := Int64.le_trans
  le_antisymm _ _ := Int64.le_antisymm
  le_total := Int64.le_total
  lt_iff_le_not_ge _ _ := by
    rw [Int64.not_le, and_iff_right_of_imp Int64.le_of_lt]
  toDecidableLE := inferInstance
  toDecidableEq := inferInstance
  toDecidableLT := inferInstance

/-- A price that is not negative survives the cast to unsigned. -/
theorem toNat_toUInt64
    {price : Int64} (nonneg : 0 ≤ price.toInt) :
    (price.toUInt64.toNat : Int) = price.toInt := by
  have sign : (0 : Int64) ≤ price := Int64.le_iff_toInt_le.mpr nonneg
  rw [Int64.toNat_toUInt64_of_le sign, ← Int64.toNat_toInt,
    Int.toNat_of_nonneg nonneg]

/-- The prices every engine's own representation can hold. -/
def NonNegative (price : Int64) : Prop :=
  0 ≤ price.toInt

instance : DecidablePred NonNegative :=
  fun price => inferInstanceAs (Decidable (0 ≤ price.toInt))

end MatchingBench.Reference
