import MatchingBench.Adapters
import MatchingBench.Oracles.CppOrderbook

/-!
# The cpp-orderbook adapter refines the reference matcher

The engine matches under the client's identifiers, so the shadow only has to
echo: the slot of a resting order holds its side and its price.
-/

set_option autoImplicit false

namespace MatchingBench.Oracles.CppOrderbookRefinement

open MatchingBench.Api
open MatchingBench.Adapters
open MatchingBench.Lib.PriceTime
open MatchingBench.Lib.OrderBook
open MatchingBench.Lib.Correspondence
open MatchingBench.Lib.Ladders
open MatchingBench.Lib.Levels
open MatchingBench.Lib.Tables
open MatchingBench.Reference
open MatchingBench.Oracles.BookDump
open MatchingBench.Oracles.CppOrderbook

/-! ## Conversions -/

/-- Ticks that fit are scaled without wrapping. -/
theorem toNat_ofInt
    {i : UInt64} (fits : i.toNat < 10 ^ 11) :
    (Decimal.ofInt i).toNat = scale * i.toNat := by
  have product : i.toNat * 10 ^ 8 < 2 ^ 64 := by omega
  rw [Decimal.ofInt, UInt64.toNat_mul, scale, UInt64.toNat_ofNat_of_lt'
    (by decide), Nat.mod_eq_of_lt product, Nat.mul_comm]

/-- Scaled ticks are recovered. -/
theorem toInt_scaled
    {ticks : Nat} (fits : scale * ticks < 2 ^ 64) :
    Decimal.toInt (UInt64.ofNat (scale * ticks)) = UInt64.ofNat ticks := by
  have small : ticks < 2 ^ 64 :=
    Nat.lt_of_le_of_lt (Nat.le_mul_of_pos_left _ (by decide)) fits
  apply UInt64.toNat_inj.mp
  rw [Decimal.toInt, UInt64.toNat_div, UInt64.toNat_ofNat_of_lt' fits,
    UInt64.toNat_ofNat_of_lt' small,
    UInt64.toNat_ofNat_of_lt' (show scale < 2 ^ 64 by decide)]
  exact Nat.mul_div_cancel_left _ (by decide)

theorem toDecQty_toNat (q : UInt32) :
    (toDecQty q).toNat = scale * q.toNat := by
  have few := q.toNat_lt
  rw [toDecQty, toNat_ofInt (by rw [UInt32.toNat_toUInt64]; omega),
    UInt32.toNat_toUInt64]

theorem fromDecQty_scaled
    {qty : Nat} (fits : qty < 2 ^ 32) :
    fromDecQty (UInt64.ofNat (scale * qty)) = UInt32.ofNat qty := by
  have product : scale * qty < 2 ^ 64 := by
    rw [scale]
    omega
  have small : ¬UInt64.ofNat qty > UInt64.ofNat (2 ^ 32 - 1) := by
    rw [gt_iff_lt, UInt64.lt_iff_toNat_lt,
      UInt64.toNat_ofNat_of_lt' (by decide),
      UInt64.toNat_ofNat_of_lt' (show qty < 2 ^ 64 by omega)]
    omega
  rw [fromDecQty, toInt_scaled product, if_neg small]
  simp

theorem toDecPrice_ticks
    {price : Int64} (permitted : TickPrice price) :
    ScaledTicks TickPrice scale price (toDecPrice price).toNat := by
  have ⟨low, high⟩ := permitted
  have positive : ¬price ≤ 0 := by
    rw [Int64.le_iff_toInt_le]
    simp only [Int64.toInt_zero]
    omega
  have unsigned := toNat_toUInt64 (show 0 ≤ price.toInt by omega)
  refine ⟨permitted, ?_⟩
  rw [toDecPrice, if_neg positive, toNat_ofInt (by omega), Int.natCast_mul,
    unsigned]

theorem fromDecPrice_ticks
    {price : Int64} {native : Nat}
    (ticks : ScaledTicks TickPrice scale price native) :
    fromDecPrice (UInt64.ofNat native) = price := by
  have ⟨⟨low, high⟩, scaled⟩ := ticks
  have whole : native = scale * price.toInt.toNat := by
    rw [scale] at scaled ⊢
    omega
  have product : scale * price.toInt.toNat < 2 ^ 64 := by
    rw [scale]
    omega
  rw [fromDecPrice, whole, toInt_scaled product]
  exact @ofNat_of_ticks TickPrice price price.toInt.toNat
    ⟨ticks.1, by omega⟩

/-! ## The shadow -/

/-- The slot of an identifier echoes this side and price. -/
def Echoed
    (shadow : List Shadow) (id : UInt64) (side : Side) (price : Int64) :
    Prop :=
  ∃ e, shadow[id.toNat]? = some e ∧ e.side = sideByte side ∧ e.price = price

/-- Every slot but one keeps the side and price it echoes. -/
def EchoesExcept (id : UInt64) (before after : List Shadow) : Prop :=
  ∀ other side price, other ≠ id → Echoed before other side price →
    Echoed after other side price

/-- Every slot keeps the side and price it echoes. -/
def Echoes (before after : List Shadow) : Prop :=
  ∀ id side price, Echoed before id side price → Echoed after id side price

theorem Echoes.trans
    {before middle after : List Shadow} (first : Echoes before middle)
    (second : Echoes middle after) : Echoes before after :=
  fun id side price echoed =>
    second id side price (first id side price echoed)

/-- A slot that exists is there without growing. -/
theorem shadowSlot_of_lt
    {shadow : List Shadow} {oid : UInt64}
    (inside : oid.toNat < shadow.length) :
    shadowSlot shadow oid = some shadow := by
  rw [shadowSlot, if_neg (Nat.not_le.mpr inside)]

/-- A change that keeps side and price keeps what the shadow echoes. -/
theorem echoes_update
    (shadow : List Shadow) (oid : UInt64) {change : Shadow → Shadow}
    (side : ∀ e, (change e).side = e.side)
    (price : ∀ e, (change e).price = e.price) :
    Echoes shadow (update shadow oid.toNat change) := by
  rintro id s p ⟨e, stored, sided, priced⟩
  by_cases own : id.toNat = oid.toNat
  · refine ⟨change e, ?_, (side e).trans sided, (price e).trans priced⟩
    rw [getElem?_update, if_pos own, stored]
    rfl
  · refine ⟨e, ?_, sided, priced⟩
    rw [getElem?_update, if_neg own, stored]

/-- An identifier that is not too large has or gets a slot. -/
theorem writeSlot_echoes
    {shadow : List Shadow} {oid : UInt64}
    (small : oid.toNat < shadow.length ∨ oid.toNat < maxSize)
    (slot : Shadow) :
    ∃ next, writeSlot shadow oid (fun _ => slot) = some next ∧
      next[oid.toNat]? = some slot ∧ EchoesExcept oid shadow next := by
  have grown :
      ∃ grown, shadowSlot shadow oid = some grown ∧
        oid.toNat < grown.length ∧
        ∀ (i : Nat) (e : Shadow),
          shadow[i]? = some e → grown[i]? = some e := by
    by_cases inside : oid.toNat < shadow.length
    · exact ⟨shadow, shadowSlot_of_lt inside, inside, fun _ _ => id⟩
    · have few := small.resolve_left inside
      have most : maxSize = 2 ^ 59 - 1 := by decide
      have size : (oid + 1).toNat = oid.toNat + 1 := by
        rw [UInt64.toNat_add, UInt64.toNat_one, Nat.mod_eq_of_lt (by omega)]
      have longer : shadow.length ≤ (oid + 1).toNat := by omega
      refine ⟨resize shadow (oid + 1).toNat emptyShadow, ?_, ?_, ?_⟩
      · unfold shadowSlot
        rw [if_pos (Nat.le_of_not_lt inside)]
        dsimp only
        rw [if_neg (by omega)]
      · rw [length_resize]
        omega
      · intro i e stored
        have below := (List.getElem?_eq_some_iff.mp stored).1
        rw [getElem?_resize longer, if_pos below, stored]
  rcases grown with ⟨grown, found, inside, kept⟩
  refine ⟨update grown oid.toNat fun _ => slot, ?_, ?_, ?_⟩
  · rw [writeSlot, found]
    rfl
  · rw [getElem?_update, if_pos rfl, List.getElem?_eq_getElem inside]
    rfl
  · rintro other side price different ⟨e, stored, sided, priced⟩
    refine ⟨e, ?_, sided, priced⟩
    rw [getElem?_update,
      if_neg fun equal => different (UInt64.toNat_inj.mp equal)]
    exact kept _ e stored

/-! ## Fills -/

/-- A trade, with the maker as the order the report is about. -/
def makerTrade
    (seq takerOrderId : UInt64) (fill : Fill UInt64 Int64) : Report :=
  { tradeReport seq takerOrderId fill with orderId := fill.maker.id }

/-- The canonical text leaves that order out. -/
theorem prints_makerTrades
    (seq takerOrderId : UInt64) (fills : List (Fill UInt64 Int64)) :
    List.Forall₂ Prints (fills.map (makerTrade seq takerOrderId))
      (fills.map (tradeReport seq takerOrderId)) := by
  induction fills with
  | nil => exact List.Forall₂.nil
  | cons fill fills induction =>
      exact List.Forall₂.cons ⟨rfl, rfl, rfl⟩ induction

/-- The trades of alike fills, one notification each. -/
theorem foldlM_trades
    (seq taker : UInt64) {fills : List (Fill UInt64 Int64)}
    {others : List (Fill UInt64 Nat)}
    (alike : List.Forall₂ (AlikeFill Eq (ScaledTicks TickPrice scale) scale)
      fills others)
    (call : Call)
    (few : ∀ fill ∈ fills, fill.qty < 2 ^ 32)
    (slots : ∀ fill ∈ fills, fill.maker.id.toNat < call.shadow.length) :
    ∃ shadow,
      (others.map (tradeOf taker)).foldlM (onExecutionReport seq) call =
          some
            { call with
              shadow := shadow
              takerFill := call.takerFill +
                UInt64.ofNat (fills.map Fill.qty).sum
              reports := call.reports ++ fills.map (makerTrade seq taker) } ∧
        Echoes call.shadow shadow := by
  induction alike generalizing call with
  | nil =>
      refine ⟨call.shadow, ?_, fun _ _ _ => id⟩
      simp
  | @cons fill other fills others head _ induction =>
      have quantity :
          fromDecQty (UInt64.ofNat other.qty) = UInt32.ofNat fill.qty := by
        rw [head.qty]
        exact fromDecQty_scaled (few fill List.mem_cons_self)
      have price :
          fromDecPrice (UInt64.ofNat other.maker.price) =
            fill.maker.price :=
        fromDecPrice_ticks head.maker.price
      have named : other.maker.id = fill.maker.id := head.maker.id.symm
      have whole :
          (UInt32.ofNat fill.qty).toUInt64 = UInt64.ofNat fill.qty := by
        apply UInt64.toNat_inj.mp
        have small := few fill List.mem_cons_self
        rw [UInt32.toNat_toUInt64, UInt32.toNat_ofNat_of_lt' small,
          UInt64.toNat_ofNat_of_lt' (show fill.qty < 2 ^ 64 by omega)]
      have first :
          onExecutionReport seq call (tradeOf taker other) =
            some
              { call with
                shadow := update call.shadow fill.maker.id.toNat
                  (reduceShadow (UInt32.ofNat fill.qty))
                takerFill := call.takerFill + UInt64.ofNat fill.qty
                reports := call.reports ++ [makerTrade seq taker fill] } := by
        simp only [onExecutionReport, tradeOf, quantity, price, named, whole,
          writeSlot, shadowSlot_of_lt (slots fill List.mem_cons_self),
          Option.map_some]
        rfl
      rcases induction
        { call with
          shadow := update call.shadow fill.maker.id.toNat
            (reduceShadow (UInt32.ofNat fill.qty))
          takerFill := call.takerFill + UInt64.ofNat fill.qty
          reports := call.reports ++ [makerTrade seq taker fill] }
        (fun later member => few later (List.mem_cons_of_mem _ member))
        (fun later member => by
          rw [length_update]
          exact slots later (List.mem_cons_of_mem _ member)) with
        ⟨shadow, rest, echoes⟩
      refine ⟨shadow, ?_, ?_⟩
      · rw [List.map_cons, List.foldlM_cons, first, Option.bind_eq_bind,
          Option.bind_some, rest]
        simp [UInt64.ofNat_add, UInt64.add_assoc]
      · have reduced := @echoes_update call.shadow fill.maker.id
          (reduceShadow (UInt32.ofNat fill.qty)) (fun _ => rfl) fun _ => rfl
        exact reduced.trans echoes

/-! ## The simulation -/

/-- The adapter's state stands for a reference book. -/
structure Simulates
    {core : Core} (ladders : core.State → Sides UInt64 Nat)
    (rest : List Msg) (st : State core) (book : LiveBook) : Prop where
  stands : StandsFor Eq (ScaledTicks TickPrice scale) scale
    (ladders st.book) book
  echoed : book.All (Echoed st.shadow)
  small : GtcIds maxSize rest

section Refinement

variable {core : Core} {ladders : core.State → Sides UInt64 Nat}
  {rest : List Msg} {st : State core} {book : LiveBook}

/-- The quantity of a taker that was not filled. -/
theorem residualOf_eq
    {filled left : Nat} {qty : UInt32} (whole : filled + left = qty.toNat) :
    residualOf (UInt64.ofNat filled) qty = UInt32.ofNat left := by
  have few := qty.toNat_lt
  have known : (UInt64.ofNat filled).toNat = filled :=
    UInt64.toNat_ofNat_of_lt' (show filled < 2 ^ 64 by omega)
  unfold residualOf
  apply UInt32.toNat_inj.mp
  rw [UInt32.toNat_ofNat_of_lt' (show left < 2 ^ 32 by omega)]
  split
  · rename_i short
    rw [UInt64.lt_iff_toNat_lt, known, UInt32.toNat_toUInt64] at short
    rw [UInt64.toNat_toUInt32, UInt64.toNat_sub_of_le, known,
      UInt32.toNat_toUInt64]
    · omega
    · rw [UInt64.le_iff_toNat_le, known, UInt32.toNat_toUInt64]
      omega
  · rename_i all
    rw [UInt64.lt_iff_toNat_lt, known, UInt32.toNat_toUInt64] at all
    rw [UInt32.toNat_zero]
    omega

/-- What adding an order leaves behind, in the engine and in the call. -/
structure Added
    {core : Core} (ladders : core.State → Sides UInt64 Nat) (st : State core)
    (seq id : UInt64) (qty : UInt32) (submitted : Submission UInt64 Int64)
    (next : core.State) (call : Call) : Prop where
  stands : StandsFor Eq (ScaledTicks TickPrice scale) scale (ladders next)
    submitted.book
  echoes : Echoes st.shadow call.shadow
  reports : SameReports call.reports
    (submitted.fills.map (tradeReport seq id))
  residual : residualOf call.takerFill qty = UInt32.ofNat submitted.left

/-- The fills of an order take slots of the shadow, and few units each. -/
theorem fills_bounded
    {shadow : List Shadow} (echoed : book.All (Echoed shadow))
    {order : Resting UInt64 Int64} {qty : UInt32}
    (whole : order.qty = qty.toNat) (side : Side)
    {fresh : book.lookup order.id = none} :
    ∀ fill ∈ (book.submit side order false fresh).fills,
      fill.qty < 2 ^ 32 ∧ fill.maker.id.toNat < shadow.length := by
  intro fill member
  have ⟨maker, _, _, most, _⟩ :=
    mem_sweep_fills (book.positive side.opposite) member
  have few := qty.toNat_lt
  have found := Book.lookup_eq_some_iff.mpr ⟨maker, rfl⟩
  rcases echoed _ _ _ found with ⟨e, stored, _⟩
  exact ⟨by omega, (List.getElem?_eq_some_iff.mp stored).1⟩

/-- Adding an order to an engine that stands for a book. -/
theorem addOrder_eq
    (correct : core.Correct ladders)
    (stands : StandsFor Eq (ScaledTicks TickPrice scale) scale
      (ladders st.book) book)
    (echoed : book.All (Echoed st.shadow))
    {order : Resting UInt64 Int64} (fresh : book.lookup order.id = none)
    {qty : UInt32} (whole : order.qty = qty.toNat)
    (positive : 1 ≤ qty.toNat) (permitted : TickPrice order.price)
    (seq : UInt64) (side : Side) {flag : Flag} {rests : Bool}
    (may : decide (flag = Flag.none) = rests) :
    ∃ next call,
      addOrder st seq order.id side qty order.price flag =
          some (next, call) ∧
        Added ladders st seq order.id qty (book.submit side order rests fresh)
          next call := by
  have compatible := @scaledTicks_compatible TickPrice scale (by decide)
  have scaled : 0 < scale := by decide
  have ticks := toDecPrice_ticks permitted
  have quantity : (toDecQty qty).toNat = scale * order.qty := by
    rw [toDecQty_toNat, whole]
  have paired :
      Alike Eq (ScaledTicks TickPrice scale) scale order
        (restingOrder order.id (toDecQty qty) (toDecPrice order.price)) :=
    ⟨rfl, ticks, quantity⟩
  have ⟨low, _⟩ := permitted
  have somePrice : 0 < toDecPrice order.price := by
    rw [UInt64.lt_iff_toNat_lt, UInt64.toNat_zero]
    have := ticks.2
    rw [scale] at this
    omega
  have someQty : 0 < toDecQty qty := by
    rw [UInt64.lt_iff_toNat_lt, UInt64.toNat_zero, toDecQty_toNat]
    exact Nat.mul_pos scaled positive
  have ⟨after, events⟩ :=
    correct.addOrder st.book order.id side (toDecQty qty)
      (toDecPrice order.price) flag (stands.not_rests fresh) someQty somePrice
  have ⟨fills, _, _⟩ := @StandsFor.cross _ _ _ _ _ _ _ _ _ _ _ _ stands
    compatible scaled side order fresh (toDecPrice order.price).toNat ticks
  rw [← quantity] at fills
  have bounds := @fills_bounded book st.shadow echoed order qty whole side fresh
  rcases foldlM_trades seq order.id fills (startCall st.shadow)
    (fun fill member => (bounds fill member).1)
    (fun fill member => (bounds fill member).2) with
    ⟨shadow, notified, echoes⟩
  have ran :
      addOrder st seq order.id side qty order.price flag =
        some
          ((core.addOrder st.book order.id side (toDecQty qty)
            (toDecPrice order.price) flag).1,
            { startCall shadow with
              takerFill := UInt64.ofNat
                ((book.submit side order false fresh).fills.map Fill.qty).sum
              reports := (book.submit side order false fresh).fills.map
                (makerTrade seq order.id) }) := by
    unfold addOrder
    dsimp only
    rw [events, List.foldlM_cons]
    change Option.map _ (List.foldlM (onExecutionReport seq)
      (startCall st.shadow) _) = _
    rw [notified, startCall, List.nil_append, UInt64.zero_add]
    rfl
  refine ⟨_, _, ran, ?_⟩
  constructor
  · rw [after, may]
    exact stands.submitted compatible scaled paired
  · exact echoes
  · exact SameReports.of_prints (prints_makerTrades seq order.id _)
  · exact residualOf_eq
      ((book.submit_conserves side order rests fresh).trans whole)

/-- Cancelling a resting order reports its quantity and withdraws it. -/
theorem cancelOrder_found
    (correct : core.Correct ladders)
    (stands : StandsFor Eq (ScaledTicks TickPrice scale) scale
      (ladders st.book) book)
    {id : UInt64} {side : Side} {o : Resting UInt64 Int64}
    (found : book.lookup id = some (side, o)) (seq : UInt64) :
    ∃ next qty,
      cancelOrder st seq id =
          some
            (next,
              { startCall st.shadow with
                cancelOK := true
                cancelQty := qty }) ∧
        StandsFor Eq (ScaledTicks TickPrice scale) scale (ladders next)
          (book.withdraw id) := by
  rcases stands.exists_named found with ⟨r, member, rfl, _, _⟩
  have ⟨after, events⟩ := correct.cancelOrder st.book side r member
  refine ⟨(core.cancelOrder st.book r.id).1,
    (fromDecQty (UInt64.ofNat r.qty)).toUInt64, ?_, ?_⟩
  · unfold cancelOrder
    dsimp only
    rw [events]
    rfl
  · rw [after]
    exact stands.withdrawn_named r.id

/-- Cancelling an unknown order reports a reject and changes nothing. -/
theorem cancelOrder_unknown
    (correct : core.Correct ladders)
    (stands : StandsFor Eq (ScaledTicks TickPrice scale) scale
      (ladders st.book) book)
    {id : UInt64} (absent : book.lookup id = none) (seq : UInt64) :
    ∃ next,
      cancelOrder st seq id = some (next, startCall st.shadow) ∧
        ladders next = ladders st.book := by
  have ⟨after, events⟩ :=
    correct.cancelUnknown st.book id (stands.not_rests absent)
  refine ⟨(core.cancelOrder st.book id).1, ?_, after⟩
  unfold cancelOrder
  dsimp only
  rw [events]
  rfl

theorem ofNat_pos_iff
    {left : Nat} (few : left < 2 ^ 32) : UInt32.ofNat left > 0 ↔ left ≠ 0 := by
  rw [gt_iff_lt, UInt32.lt_iff_toNat_lt, UInt32.toNat_ofNat_of_lt' few,
    UInt32.toNat_zero]
  exact Nat.pos_iff_ne_zero

/-- A slot written for a submitted order echoes it. -/
theorem echoed_placed
    {before after : List Shadow} (echoed : book.All (Echoed before))
    {order : Resting UInt64 Int64} {fresh : book.lookup order.id = none}
    {side : Side} {rests : Bool} {residual : UInt32}
    (others : EchoesExcept order.id before after)
    (here : after[order.id.toNat]? =
      some (placed order.price (sideByte side) residual)) :
    (book.submit side order rests fresh).book.All (Echoed after) := by
  have kept : book.All (Echoed after) := by
    refine echoed.mono fun id s o found shown => ?_
    refine others id s o.price ?_ shown
    rintro rfl
    rw [fresh] at found
    cases found
  exact kept.submit fun _ => ⟨_, here, rfl, rfl⟩

/-! ## Messages -/

theorem newOrder_simulates
    (correct : core.Correct ladders) {o : NewOrder}
    (simulates : Simulates ladders (.newOrder o :: rest) st book)
    (legal : Legal TickPrice book (.newOrder o)) :
    ∃ next out, onNewOrder st o = some (next, out) ∧
      Simulates ladders rest next (Reference.newOrder book o).1 ∧
      SameReports out (Reference.newOrder book o).2 := by
  obtain ⟨fresh, valid, positive, permitted⟩ := legal
  have flagged :
      decide ((if o.ioc ≠ 0 then Flag.ioC else Flag.none) = Flag.none) =
        decide (o.ioc = 0) := by
    by_cases limit : o.ioc = 0 <;> simp [limit]
  rcases @addOrder_eq core ladders st book correct simulates.stands
    simulates.echoed (submittedOrder o) fresh o.quantity rfl positive
    permitted o.sequenceNumber (sideOf o.side) _ _ flagged with
    ⟨next, call, ran, after⟩
  have added :
      addOrder st o.sequenceNumber o.orderId
          (if o.side = 0 then Side.buy else Side.sell) o.quantity
          o.priceTicks (if o.ioc ≠ 0 then Flag.ioC else Flag.none) =
        some (next, call) :=
    ran
  have few : (book.submit (sideOf o.side) (submittedOrder o)
      (decide (o.ioc = 0)) fresh).left < 2 ^ 32 :=
    Nat.lt_of_le_of_lt (book.submit_left_le _ _ _ fresh) o.quantity.toNat_lt
  have echoed : book.All (Echoed call.shadow) :=
    simulates.echoed.mono fun id side r _ shown =>
      after.echoes id side r.price shown
  have acked := SameReports.append [_] [_] _ _
    (SameReports.refl [ackReport meOrderAck o.sequenceNumber o.orderId o.side
      o.priceTicks o.quantity]) after.reports
  unfold Reference.newOrder onNewOrder
  dsimp only
  rw [dif_pos fresh, added, Option.bind_some]
  dsimp only
  rw [after.residual]
  by_cases limit : o.ioc = 0
  · have small := simulates.small o List.mem_cons_self limit
    rcases writeSlot_echoes (Or.inr small)
      (placed o.priceTicks (sideByte (sideOf o.side)) (UInt32.ofNat
        (book.submit (sideOf o.side) (submittedOrder o)
          (decide (o.ioc = 0)) fresh).left)) with
      ⟨written, wrote, here, others⟩
    rw [sideByte_sideOf valid] at wrote
    rw [if_neg (not_not_intro limit), wrote]
    refine ⟨_, _, rfl, ⟨after.stands, ?_, simulates.small.tail⟩, ?_⟩
    · exact @echoed_placed _ _ _ echoed (submittedOrder o) fresh _ _ _
        others here
    · rw [if_neg fun dropped => dropped.1 limit, List.append_nil]
      exact acked
  · rw [if_pos limit]
    refine ⟨_, _, rfl, ⟨after.stands, ?_, simulates.small.tail⟩, ?_⟩
    · exact echoed.submit fun rests => absurd (of_decide_eq_true rests) limit
    · have something :
          UInt32.ofNat (book.submit (sideOf o.side) (submittedOrder o)
              (decide (o.ioc = 0)) fresh).left > 0 ↔
            o.ioc ≠ 0 ∧ (book.submit (sideOf o.side) (submittedOrder o)
              (decide (o.ioc = 0)) fresh).left ≠ 0 := by
        rw [and_iff_right limit]
        exact ofNat_pos_iff few
      simp only [something]
      exact SameReports.append _ _ _ _ acked (SameReports.refl _)

theorem cancel_simulates
    (correct : core.Correct ladders) {c : Cancel}
    (simulates : Simulates ladders (.cancel c :: rest) st book) :
    ∃ next out, onCancel st c = some (next, out) ∧
      Simulates ladders rest next (Reference.cancel book c).1 ∧
      SameReports out (Reference.cancel book c).2 := by
  unfold onCancel Reference.cancel
  cases found : book.lookup c.orderId with
  | none =>
      rcases cancelOrder_unknown correct simulates.stands found
        c.sequenceNumber with ⟨next, ran, same⟩
      rw [ran]
      refine ⟨_, _, rfl, ⟨?_, simulates.echoed, simulates.small.tail⟩,
        SameReports.refl _⟩
      dsimp only
      rw [same]
      exact simulates.stands
  | some entry =>
      rcases entry with ⟨side, o⟩
      rcases cancelOrder_found correct simulates.stands found
        c.sequenceNumber with ⟨next, qty, ran, stands⟩
      rcases simulates.echoed _ _ _ found with ⟨e, stored, sided, priced⟩
      have inside := (List.getElem?_eq_some_iff.mp stored).1
      have echoes := @echoes_update st.shadow c.orderId
        (fun e => { e with alive := false }) (fun _ => rfl) fun _ => rfl
      rw [ran, Option.bind_some]
      dsimp only [startCall]
      rw [if_pos rfl, shadowSlot_of_lt inside, Option.bind_some, stored]
      refine ⟨_, _, rfl, ⟨stands, ?_, simulates.small.tail⟩,
        SameReports.singleton ⟨rfl, rfl, ?_⟩⟩
      · exact (simulates.echoed.withdraw c.orderId).mono
          fun id side r _ shown => echoes id side r.price shown
      · rw [sided, priced]
        rfl

theorem modify_simulates
    (correct : core.Correct ladders) {m : Modify}
    (simulates : Simulates ladders (.modify m :: rest) st book)
    (legal : Legal TickPrice book (.modify m)) :
    ∃ next out, onModify st m = some (next, out) ∧
      Simulates ladders rest next (Reference.modify book m).1 ∧
      SameReports out (Reference.modify book m).2 := by
  unfold onModify Reference.modify
  cases found : book.lookup m.orderId with
  | none =>
      rcases cancelOrder_unknown correct simulates.stands found
        m.sequenceNumber with ⟨next, ran, same⟩
      rw [ran]
      refine ⟨_, _, rfl, ⟨?_, simulates.echoed, simulates.small.tail⟩,
        SameReports.refl _⟩
      dsimp only
      rw [same]
      exact simulates.stands
  | some entry =>
      rcases entry with ⟨side, o⟩
      obtain ⟨_, positive, permitted, _⟩ := legal
      rcases cancelOrder_found correct simulates.stands found
        m.sequenceNumber with ⟨middle, qty, ran, cancelled⟩
      rcases simulates.echoed _ _ _ found with ⟨e, stored, sided, priced⟩
      have inside := (List.getElem?_eq_some_iff.mp stored).1
      have fresh := book.lookup_withdraw_self m.orderId
      have sideT :
          (if e.side = 0 then Side.buy else Side.sell) = side := by
        rw [sided]
        cases side <;> rfl
      rcases @addOrder_eq core ladders
        { book := middle, shadow := st.shadow } (book.withdraw m.orderId)
        correct cancelled (simulates.echoed.withdraw m.orderId)
        (modifiedOrder m) fresh m.newQuantity rfl positive permitted
        m.sequenceNumber side Flag.none true (decide_eq_true rfl) with
        ⟨next, call, placing, after⟩
      have added :
          addOrder ({ book := middle, shadow := st.shadow } : State core)
              m.sequenceNumber m.orderId side m.newQuantity m.newPriceTicks
              Flag.none =
            some (next, call) :=
        placing
      have echoed : (book.withdraw m.orderId).All (Echoed call.shadow) :=
        (simulates.echoed.withdraw m.orderId).mono
          fun id side r _ shown => after.echoes id side r.price shown
      rcases after.echoes m.orderId side o.price ⟨e, stored, sided, priced⟩
        with ⟨e', stored', _⟩
      have inside' := (List.getElem?_eq_some_iff.mp stored').1
      rcases writeSlot_echoes (Or.inl inside')
        (placed m.newPriceTicks (sideByte side) (UInt32.ofNat
          ((book.withdraw m.orderId).submit side (modifiedOrder m) true
            fresh).left)) with
        ⟨written, wrote, here, others⟩
      rw [ran, Option.bind_some]
      dsimp only [startCall]
      rw [if_pos rfl, shadowSlot_of_lt inside, Option.bind_some, stored,
        Option.bind_some, sideT, added, Option.bind_some, after.residual,
        sided, wrote]
      refine ⟨_, _, rfl, ⟨after.stands, ?_, simulates.small.tail⟩, ?_⟩
      · exact @echoed_placed _ _ _ echoed (modifiedOrder m) fresh _ _ _
          others here
      · have acked := SameReports.append [_] [_] _ _
          (SameReports.refl [ackReport meModifyAck m.sequenceNumber m.orderId
            (sideByte side) m.newPriceTicks m.newQuantity]) after.reports
        exact acked.trans
          (SameReports.ack_first (show meModifyAck ≠ meTrade by decide)
            m.sequenceNumber m.orderId _)

/-- Every legal message keeps the simulation. -/
theorem step_forward (correct : core.Correct ladders) :
    Forward TickPrice (@CppOrderbook.step core) (Simulates ladders) := by
  intro m rest st book simulates legal
  cases m with
  | newOrder o => exact newOrder_simulates correct simulates legal
  | cancel c => exact cancel_simulates correct simulates
  | modify m => exact modify_simulates correct simulates legal

/-- A fresh adapter stands for the empty book. -/
theorem simulates_init
    (correct : core.Correct ladders) {msgs : List Msg}
    (small : GtcIds maxSize msgs) :
    Simulates ladders msgs (engineInit core) Book.empty := by
  refine ⟨?_, Book.all_empty, small⟩
  dsimp only [engineInit]
  rw [correct.ladders_init]
  exact standsFor_empty _ _ _

/-! ## Queries -/

/-- A level in whole ticks. -/
def tickLevel (entry : Int64 × Nat) : Nat × Nat :=
  (entry.1.toInt.toNat, entry.2)

/-- The engine's levels are those of the book, scaled. -/
theorem levels_scaled
    {left : List (Int64 × Nat)} {right : List (Nat × Nat)}
    (alike : List.Forall₂ (AlikeLevel (ScaledTicks TickPrice scale) scale)
      left right) :
    right = (left.map tickLevel).map scaledLevel ∧
      (left.map tickLevel).map wireLevel =
        left.map fun entry => (entry.1, UInt64.ofNat entry.2) := by
  induction alike with
  | nil => exact ⟨rfl, rfl⟩
  | @cons entry other left right head _ induction =>
      have ⟨⟨low, _⟩, ticks⟩ := head.price
      have price : other.1 = scale * entry.1.toInt.toNat := by
        rw [scale] at ticks ⊢
        omega
      have back : Int64.ofNat entry.1.toInt.toNat = entry.1 :=
        @ofNat_of_ticks TickPrice _ _ ⟨head.price.1, by omega⟩
      have first : other = scaledLevel (tickLevel entry) :=
        Prod.ext price head.qty
      constructor
      · rw [List.map_cons, List.map_cons, ← first, ← induction.1]
      · rw [List.map_cons, List.map_cons, List.map_cons, induction.2,
          wireLevel, tickLevel, back]

/-- Parsing the dump of a bounded book recovers every level. -/
theorem parseLevels_eq
    (correct : core.Correct ladders)
    (simulates : Simulates ladders rest st book) (bounded : Bounded book)
    (side : UInt8) :
    parseLevels side (core.toString st.book) =
        wireLevels book (sideOf side) ∧
      parseLine side (firstLine (core.toString st.book)) =
        (wireLevels book (sideOf side)).head? := by
  have compatible := @scaledTicks_compatible TickPrice scale (by decide)
  have each (s : Side) := levels_scaled
    (alike_levels compatible (simulates.stands s))
  have small : ∀ s, ∀ level ∈ (levels (book.ladder s)).map tickLevel,
      scale * level.2 < 2 ^ 64 := by
    intro s level member
    rcases List.mem_map.mp member with ⟨entry, inside, rfl⟩
    have few := bounded.total s entry inside
    rw [scale, tickLevel]
    omega
  have printed := correct.toString st.book _ _ (each .buy).1 (each .sell).1
    fun level member => by
      rcases List.mem_append.mp member with bid | ask
      · exact small .buy level bid
      · exact small .sell level ask
  have chosen :
      ((if side = 0 then (levels (book.ladder .buy)).map tickLevel
        else (levels (book.ladder .sell)).map tickLevel).map wireLevel) =
        wireLevels book (sideOf side) := by
    unfold wireLevels sideOf
    split
    · exact (each .buy).2
    · exact (each .sell).2
  rw [printed, parseLevels_dump, parseLine_firstLine, ← List.head?_map, chosen]
  exact ⟨rfl, rfl⟩

theorem queryBestBid_eq
    (correct : core.Correct ladders)
    (simulates : Simulates ladders rest st book) (bounded : Bounded book) :
    engineQueryBestBid st = bestBid book := by
  have ⟨_, first⟩ := parseLevels_eq correct simulates bounded 0
  have best := best_of_levels book .buy int64Min
  rw [bestBid, ← best]
  rw [parseLine, if_pos rfl] at first
  unfold engineQueryBestBid
  rw [first, show sideOf 0 = Side.buy from rfl]
  cases wireLevels book .buy <;> rfl

theorem queryBestAsk_eq
    (correct : core.Correct ladders)
    (simulates : Simulates ladders rest st book) (bounded : Bounded book) :
    engineQueryBestAsk st = bestAsk book := by
  have ⟨_, first⟩ := parseLevels_eq correct simulates bounded 1
  have best := best_of_levels book .sell int64Max
  rw [bestAsk, ← best]
  rw [parseLine, if_neg (by decide)] at first
  unfold engineQueryBestAsk
  rw [first, show sideOf 1 = Side.sell from rfl]
  cases wireLevels book .sell <;> rfl

theorem queryDepthAt_eq
    (correct : core.Correct ladders)
    (simulates : Simulates ladders rest st book) (bounded : Bounded book)
    (price : Int64) (side : UInt8) :
    engineQueryDepthAt st price side = depthAt book price side := by
  have ⟨all, _⟩ := parseLevels_eq correct simulates bounded side
  rw [← depth_of_foldl, ← all, parseLevels, List.foldl_filterMap]
  unfold engineQueryDepthAt
  congr 1
  funext total line
  cases parseLine side line <;> rfl

end Refinement

end MatchingBench.Oracles.CppOrderbookRefinement
