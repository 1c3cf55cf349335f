import MatchingBench.Reference
import MatchingBench.Lib.Correspondence
import MatchingBench.Pgellert.Adapter
import MatchingBench.Pgellert.FifoBookSpec

/-!
# The pgellert adapter refines the reference matcher

The simulation has two parts: the ladders that the FIFO book's buckets
represent correspond to those of the reference book, and the shadow shows
exactly the resting orders.  Each message keeps both and pushes the reference
reports, up to their order within a message and unprinted fields.
-/

set_option autoImplicit false

namespace MatchingBench.Pgellert.Refinement

open MatchingBench.Api
open MatchingBench.Correctness
open MatchingBench.Lib.Maps
open MatchingBench.Lib.PriceTime
open MatchingBench.Lib.OrderBook
open MatchingBench.Lib.Correspondence
open MatchingBench.Lib.Runs
open MatchingBench.Reference
open MatchingBench.Pgellert.FifoBook
open MatchingBench.Pgellert.FifoBookSpec
open MatchingBench.Pgellert.Adapter

/-! ## Names and ticks -/

/-- The book's name of a client order. -/
def Names (id : UInt64) (orderId : OrderId) : Prop :=
  orderId = key id

/-- The book's price of an allowed tick. -/
def Ticks
    (allowed : Int64 → Prop) (price : Int64) (bookPrice : Nat) : Prop :=
  allowed price ∧ bookPrice = asU64 price

@[simp]
theorem asI64_asU64 (price : Int64) : asI64 (asU64 price) = price := by
  simp [asI64, asU64]

/-- The cast keeps the signed order of prices that are not negative. -/
theorem signed_ticks : OrderCompatible (Ticks NonNegative) := by
  rintro a _ b _ ⟨aNonneg, rfl⟩ ⟨bNonneg, rfl⟩
  rw [Int64.le_iff_toInt_le, ← toNat_toUInt64 aNonneg,
    ← toNat_toUInt64 bNonneg, Int.ofNat_le]
  exact Iff.rfl

theorem key_injective : Function.Injective key :=
  fun _ _ same => (Prod.mk.inj same).2

/-- The book's form of an order. -/
def bookOrder (o : Resting UInt64 Int64) : LadderOrder where
  id := key o.id
  price := asU64 o.price
  qty := o.qty

section Matcher

variable [LinearOrder Int64] {allowed : Int64 → Prop}

/-- Orders of the reference book and of the FIFO book. -/
abbrev AlikeOrder (allowed : Int64 → Prop) := Alike Names (Ticks allowed) 1

omit [LinearOrder Int64] in
theorem alike_bookOrder
    {o : Resting UInt64 Int64} (permitted : allowed o.price) :
    AlikeOrder allowed o (bookOrder o) :=
  ⟨rfl, ⟨permitted, rfl⟩, (Nat.one_mul _).symm⟩

omit [LinearOrder Int64] in
theorem eq_bookOrder
    {o : Resting UInt64 Int64} {r : LadderOrder}
    (alike : AlikeOrder allowed o r) :
    r = bookOrder o := by
  obtain ⟨id, price, qty⟩ := r
  obtain ⟨sameId, samePrice, sameQty⟩ := alike
  rw [Nat.one_mul] at sameQty
  have ticks : price = asU64 o.price := samePrice.2
  have named : id = key o.id := sameId
  have scaled : qty = o.qty := sameQty
  rw [ticks, named, scaled]
  rfl

omit [LinearOrder Int64] in
theorem ladder_eq_map
    {orders : List (Resting UInt64 Int64)} {others : List LadderOrder}
    (alike : AlikeLadders Names (Ticks allowed) 1 orders others) :
    others = orders.map bookOrder := by
  induction alike with
  | nil => rfl
  | cons head _ induction =>
      rw [List.map_cons, eq_bookOrder head, induction]

/-! ## The simulation -/

/-- The FIFO book represents the ladders of the reference book. -/
def LaddersAgree
    (allowed : Int64 → Prop) (fifo : FIFOBook) (book : LiveBook) : Prop :=
  ∃ ladder : Side → List LadderOrder,
    (∀ side, AlikeLadders Names (Ticks allowed) 1 (book.ladder side)
        (ladder side)) ∧
      Represents fifo (ladder .buy) (ladder .sell)

/-- The shadow record of a resting order. -/
def shadowOf (entry : Side × Resting UInt64 Int64) : OrderShadow where
  price := entry.2.price
  qty := UInt32.ofNat entry.2.qty
  side := sideByte entry.1
  alive := true

/-- The shadow shows exactly the orders of a view. -/
structure ShadowAgrees
    (view : View UInt64 Int64) (shadow : HashMap UInt64 OrderShadow) :
    Prop where
  shows : ∀ id, liveIn shadow id = (view id).map shadowOf
  bounded : ∀ id side o, view id = some (side, o) → o.qty < 2 ^ 32

/-- The adapter's state stands for a reference book. -/
structure Simulates
    (allowed : Int64 → Prop) (st : State) (book : LiveBook) : Prop where
  ladders : LaddersAgree allowed st.book book
  shadow : ShadowAgrees book.lookup st.shadow

theorem simulates_init : Simulates allowed State.init Book.empty where
  ladders := ⟨fun _ => [], fun _ => List.Forall₂.nil, represents_new⟩
  shadow :=
    { shows := fun id => by simp [liveIn, State.init, Book.lookup,
        Book.empty]
      bounded := fun id side o found => by
        simp [Book.lookup, Book.empty] at found }

/-! ## The shadow -/

omit [LinearOrder Int64] in
theorem liveIn_set
    (shadow : HashMap UInt64 OrderShadow) (id : UInt64) (sh : OrderShadow) :
    liveIn (shadow.set id sh) =
      Function.update (liveIn shadow) id
        (if sh.alive then some sh else none) := by
  funext other
  unfold liveIn
  rw [HashMap.get_set]
  by_cases same : other = id
  · subst same
    rw [Function.update_self, Function.update_self, Option.filter_some]
  · rw [Function.update_of_ne same, Function.update_of_ne same]

omit [LinearOrder Int64] in
/-- Changing the record of an order that is alive. -/
theorem liveIn_modify
    {shadow : HashMap UInt64 OrderShadow} {id : UInt64} {sh : OrderShadow}
    (alive : liveIn shadow id = some sh)
    (change : OrderShadow → OrderShadow) :
    liveIn (shadow.modify id change) =
      Function.update (liveIn shadow) id
        (if (change sh).alive then some (change sh) else none) := by
  have stored : shadow.get id = some sh :=
    (Option.filter_eq_some_iff.mp alive).1
  funext other
  unfold liveIn
  rw [HashMap.get_modify]
  by_cases same : other = id
  · subst same
    rw [Function.update_self, Function.update_self, stored,
      Option.map_some, Option.filter_some]
  · rw [Function.update_of_ne same, Function.update_of_ne same]

omit [LinearOrder Int64] in
theorem ShadowAgrees.update
    {view : View UInt64 Int64} {shadow next : HashMap UInt64 OrderShadow}
    (agrees : ShadowAgrees view shadow) {id : UInt64}
    {entry : Option (Side × Resting UInt64 Int64)}
    (live : liveIn next =
      Function.update (liveIn shadow) id (entry.map shadowOf))
    (bounded : ∀ side o, entry = some (side, o) → o.qty < 2 ^ 32) :
    ShadowAgrees (Function.update view id entry) next where
  shows other := by
    rw [live]
    by_cases same : other = id
    · subst same
      rw [Function.update_self, Function.update_self]
    · rw [Function.update_of_ne same, Function.update_of_ne same]
      exact agrees.shows other
  bounded other side o found := by
    by_cases same : other = id
    · subst same
      rw [Function.update_self] at found
      exact bounded side o found
    · rw [Function.update_of_ne same] at found
      exact agrees.bounded other side o found

omit [LinearOrder Int64] in
/-- A maker's shadow follows its fill. -/
theorem ShadowAgrees.fill
    {view : View UInt64 Int64} {shadow : HashMap UInt64 OrderShadow}
    {side : Side} {fill : Fill UInt64 Int64}
    (agrees : ShadowAgrees view shadow)
    (found : view fill.maker.id = some (side, fill.maker))
    (within : fill.qty ≤ fill.maker.qty) :
    ShadowAgrees (reduce side view fill)
      (shadow.modify fill.maker.id fun sh => sh.fill fill.qty) := by
  have alive := agrees.shows fill.maker.id
  rw [found, Option.map_some] at alive
  have small := agrees.bounded _ _ _ found
  refine agrees.update ?_ ?_
  · rw [liveIn_modify alive]
    congr 1
    have qty : (shadowOf (side, fill.maker)).qty.toNat = fill.maker.qty := by
      simp only [shadowOf]
      exact UInt32.toNat_ofNat_of_lt small
    unfold OrderShadow.fill
    rw [qty]
    by_cases part : fill.qty < fill.maker.qty
    · simp [part, shadowOf, Fill.remaining, UInt32.ofNat_sub within]
    · simp [part]
  · intro s o equal
    split at equal
    · cases equal
      simp only [Fill.remaining]
      omega
    · cases equal

/-! ## The loop over the trades -/

/-- A trade of the FIFO book and the fill it stands for. -/
structure AlikeTrade
    (allowed : Int64 → Prop) (takerId : UInt64) (fill : Fill UInt64 Int64)
    (trade : Lib.Crossing.Trade OrderId Nat) : Prop where
  fill : AlikeFill Names (Ticks allowed) 1 fill trade.fill
  taker : trade.ours.id = key takerId

omit [LinearOrder Int64] in
theorem makerOf_tradeOfSide
    {side : Side} {aggSide : UInt8} (sided : bookSide aggSide = side)
    {takerId : UInt64} {fill : Fill UInt64 Int64}
    {trade : Lib.Crossing.Trade OrderId Nat}
    (alike : AlikeTrade allowed takerId fill trade) :
    makerOf aggSide (tradeOfSide side trade) =
      (fill.maker.price, fill.maker.id, takerId) := by
  have maker := eq_bookOrder alike.fill.maker
  have theirs : trade.theirs = bookOrder fill.maker := maker
  have taker := alike.taker
  unfold makerOf bookSide at *
  split at sided
  · rename_i buys
    subst sided
    rw [if_pos buys]
    simp [tradeOfSide, tradeOf, FifoBookSpec.orderOf, packId, theirs, taker,
      bookOrder, key]
  · rename_i sells
    subst sided
    rw [if_neg sells]
    simp [tradeOfSide, tradeOf, FifoBookSpec.orderOf, packId, theirs, taker,
      bookOrder, key, Lib.Crossing.Trade.swap]

/-- The makers' shadows after the given fills. -/
def fillShadows
    (shadow : HashMap UInt64 OrderShadow) (fills : List (Fill UInt64 Int64)) :
    HashMap UInt64 OrderShadow :=
  fills.foldl
    (fun shadow fill =>
      shadow.modify fill.maker.id fun sh => sh.fill fill.qty)
    shadow

omit [LinearOrder Int64] in
/-- What the loop over the trades accumulates. -/
theorem foldl_onTrade
    {side : Side} {aggSide : UInt8} (sided : bookSide aggSide = side)
    (seq : UInt64) {takerId : UInt64} {fills : List (Fill UInt64 Int64)}
    {trades : List (Lib.Crossing.Trade OrderId Nat)}
    (alike : List.Forall₂ (AlikeTrade allowed takerId) fills trades)
    (m : Matching) :
    (trades.map (tradeOfSide side)).foldl (Matching.onTrade seq aggSide) m =
      { shadow := fillShadows m.shadow fills
        aggFilled := m.aggFilled + (fills.map Fill.qty).sum
        reports := m.reports ++ fills.map (tradeReport seq takerId) } := by
  induction alike generalizing m with
  | nil => simp [fillShadows]
  | @cons fill trade fills trades head _ induction =>
      have quantity : (tradeOfSide side trade).quantity = fill.qty := by
        rw [tradeOfSide_quantity]
        exact head.fill.qty.trans (Nat.one_mul _)
      rw [List.map_cons, List.foldl_cons, induction, Matching.onTrade,
        makerOf_tradeOfSide sided head, quantity]
      simp [fillShadows, tradeReport, Nat.add_assoc]

omit [LinearOrder Int64] in
theorem alikeTrades
    {takerId : UInt64} {fills : List (Fill UInt64 Int64)}
    {trades : List (Lib.Crossing.Trade OrderId Nat)}
    (alike : List.Forall₂ (AlikeFill Names (Ticks allowed) 1) fills
      (trades.map Lib.Crossing.Trade.fill))
    (takers : ∀ trade ∈ trades, trade.ours.id = key takerId) :
    List.Forall₂ (AlikeTrade allowed takerId) fills trades := by
  rw [List.forall₂_map_right_iff] at alike
  induction alike with
  | nil => exact List.Forall₂.nil
  | cons head _ induction =>
      exact List.Forall₂.cons ⟨head, takers _ List.mem_cons_self⟩
        (induction fun trade member =>
          takers trade (List.mem_cons_of_mem _ member))

/-! ## Ladders -/

/-- The ladders agree, seen from one side. -/
theorem LaddersAgree.sides
    {fifo : FIFOBook} {book : LiveBook} (agree : LaddersAgree allowed fifo book)
    (side : Side) :
    ∃ ours theirs,
      AlikeLadders Names (Ticks allowed) 1 (book.ladder side) ours ∧
        AlikeLadders Names (Ticks allowed) 1 (book.ladder side.opposite)
          theirs ∧
        RepresentsSides fifo side ours theirs := by
  obtain ⟨ladder, alike, represents⟩ := agree
  refine ⟨ladder side, ladder side.opposite, alike side,
    alike side.opposite, ?_⟩
  cases side with
  | buy => exact represents
  | sell => exact represents

theorem LaddersAgree.ofSides
    {fifo : FIFOBook} {book : LiveBook} {side : Side}
    {ours theirs : List LadderOrder}
    (alikeOurs : AlikeLadders Names (Ticks allowed) 1 (book.ladder side) ours)
    (alikeTheirs :
      AlikeLadders Names (Ticks allowed) 1 (book.ladder side.opposite) theirs)
    (represents : RepresentsSides fifo side ours theirs) :
    LaddersAgree allowed fifo book := by
  refine ⟨fun s => if s = side then ours else theirs, fun s => ?_, ?_⟩
  · by_cases same : s = side
    · subst same
      simp only [if_true]
      exact alikeOurs
    · simp only [same, if_false]
      rw [Side.eq_opposite_of_ne same]
      exact alikeTheirs
  · cases side with
    | buy => exact represents
    | sell => exact represents

/-- A book name that is live belongs to a live client order. -/
theorem exists_live
    {book : LiveBook} {side : Side} {ladder : List LadderOrder}
    (alike : AlikeLadders Names (Ticks allowed) 1 (book.ladder side) ladder)
    {id : UInt64} (live : key id ∈ ladder.map Resting.id) :
    ∃ o, book.lookup id = some (side, o) := by
  obtain ⟨r, member, named⟩ := List.mem_map.mp live
  obtain ⟨o, found, paired⟩ := alike.exists_left member
  have same : o.id = id := key_injective (paired.id.symm.trans named)
  exact ⟨o, Book.lookup_eq_some_iff.mpr ⟨found, same⟩⟩

/-- Uncrossed client ladders correspond to uncrossed book ladders. -/
theorem uncrossed_of_alike
    (ticks : OrderCompatible (Ticks allowed))
    {book : LiveBook} {side : Side} {ours theirs : List LadderOrder}
    (alikeOurs : AlikeLadders Names (Ticks allowed) 1 (book.ladder side) ours)
    (alikeTheirs :
      AlikeLadders Names (Ticks allowed) 1 (book.ladder side.opposite) theirs) :
    Uncrossed side ours theirs := by
  intro r inOurs t inTheirs crosses
  obtain ⟨o, foundOurs, pairedOurs⟩ := alikeOurs.exists_left inOurs
  obtain ⟨m, foundTheirs, pairedTheirs⟩ := alikeTheirs.exists_left inTheirs
  exact book.uncrossed_side side o foundOurs m foundTheirs
    ((ticks.atLeast_iff pairedOurs.price pairedTheirs.price
      side).mpr crosses)

/-- Cancelling a live order in the FIFO book withdraws it. -/
theorem LaddersAgree.cancel
    {fifo : FIFOBook} {book : LiveBook} (agree : LaddersAgree allowed fifo book)
    {id : UInt64} {side : Side} {o : Resting UInt64 Int64}
    (found : book.lookup id = some (side, o)) :
    LaddersAgree allowed (fifo.cancel (key id) side).2 (book.withdraw id) := by
  obtain ⟨ours, theirs, alikeOurs, alikeTheirs, represents⟩ :=
    agree.sides side
  obtain ⟨member, rfl⟩ := Book.lookup_eq_some_iff.mp found
  obtain ⟨r, inOurs, paired⟩ := alikeOurs.exists_right member
  obtain ⟨next, cancelled, left⟩ := represents.cancel inOurs
  have named : r.id = key o.id := paired.id
  rw [named] at cancelled left
  rw [cancelled]
  have names (a : Resting UInt64 Int64) (b : LadderOrder)
      (linked : Names a.id b.id) : a.id = o.id ↔ b.id = key o.id := by
    rw [show b.id = key a.id from linked]
    exact key_injective.eq_iff.symm
  exact LaddersAgree.ofSides
    (alikeOurs.withdraw fun a _ b _ linked => names a b linked)
    (alikeTheirs.withdraw fun a _ b _ linked => names a b linked) left

/-! ## Matching an aggressor -/

/-- An order the adapter can submit. -/
structure Submittable
    (allowed : Int64 → Prop) (book : LiveBook)
    (order : Resting UInt64 Int64) : Prop where
  fresh : book.lookup order.id = none
  positive : 0 < order.qty
  small : order.qty < 2 ^ 32
  permitted : allowed order.price

/--
`match_aggressor` submits the aggressor: it pushes the reference trades,
returns the unfilled quantity and updates the makers' shadows.  The order
rests in the book when something is left.
-/
theorem matchAggressor_submits
    (ticks : OrderCompatible (Ticks allowed))
    {st : State} {book : LiveBook} (simulates : Simulates allowed st book)
    {order : Resting UInt64 Int64}
    (submittable : Submittable allowed book order)
    (seq : UInt64) {aggSide : UInt8} {side : Side}
    (sided : bookSide aggSide = side) :
    let submitted := book.submit side order true submittable.fresh
    ∃ next,
      matchAggressor st seq aggSide
          (FifoBookSpec.orderOf side (bookOrder order)) =
        some (next, submitted.fills.map (tradeReport seq order.id),
          UInt32.ofNat submitted.left) ∧
      LaddersAgree allowed next.book submitted.book ∧
      ShadowAgrees
        (submitted.fills.foldl (reduce side.opposite) book.lookup)
        next.shadow := by
  obtain ⟨fresh, positive, small, permitted⟩ := submittable
  obtain ⟨ours, theirs, alikeOurs, alikeTheirs, represents⟩ :=
    simulates.ladders.sides side
  have absent : key order.id ∉ (ours ++ theirs).map Resting.id := by
    rw [List.map_append, List.mem_append, not_or]
    constructor
    · intro live
      obtain ⟨o, found⟩ := exists_live alikeOurs live
      rw [fresh] at found
      cases found
    · intro live
      obtain ⟨o, found⟩ := exists_live alikeTheirs live
      rw [fresh] at found
      cases found
  obtain ⟨next, trades, checked, fills, takers, left⟩ :=
    represents.submit (bookOrder order) positive
      (uncrossed_of_alike ticks alikeOurs alikeTheirs) absent
  have paired := alike_bookOrder permitted
  have swept := alikeTheirs.sweep ticks Nat.one_pos side
    paired.price order.qty
  simp only [Nat.one_mul] at swept
  obtain ⟨alikeFills, sameLeft, alikeRest⟩ := swept
  have filled : List.Forall₂ (AlikeTrade allowed order.id)
      (book.submit side order true fresh).fills trades :=
    alikeTrades (fills ▸ alikeFills) takers
  have conserved := @sweep_conserves UInt64 Int64 _ side order.price
    (book.ladder side.opposite) order.qty
  have residual :
      order.qty - ((book.submit side order true fresh).fills.map
          Fill.qty).sum =
        (book.submit side order true fresh).left := by
    rw [Book.submit_fills, Book.submit_left]
    omega
  refine ⟨
    { book := next
      shadow := fillShadows st.shadow
        (book.submit side order true fresh).fills }, ?_, ?_, ?_⟩
  · rw [matchAggressor, checked]
    simp only [foldl_onTrade sided seq filled, List.nil_append,
      Nat.zero_add]
    rw [show (FifoBookSpec.orderOf side (bookOrder order)).size = order.qty
      from rfl, residual]
  · have settled := alikeOurs.settled ticks Nat.one_pos side
      paired.id paired.price
      (book.submit side order true fresh).left true
    rw [Nat.one_mul, Book.submit_left, ← sameLeft] at settled
    refine LaddersAgree.ofSides ?_ ?_ left
    · rw [Book.submit_ladder, Book.submit_left, ← sameLeft]
      exact settled
    · rw [Book.submit_ladder_opposite]
      exact alikeRest
  · exact Book.submit_applies.foldl
      (fun _ _ _ agrees found _ within => agrees.fill found within)
      simulates.shadow

/-! ## Messages -/

omit [LinearOrder Int64] in
@[simp]
theorem bookSide_sideByte (side : Side) : bookSide (sideByte side) = side := by
  cases side <;> rfl

/-- A resting order is alive in the shadow. -/
theorem Simulates.get_shadow
    {st : State} {book : LiveBook} (simulates : Simulates allowed st book)
    {id : UInt64} {entry : Side × Resting UInt64 Int64}
    (found : book.lookup id = some entry) :
    st.shadow.get id = some (shadowOf entry) := by
  have shown := simulates.shadow.shows id
  rw [found, Option.map_some] at shown
  exact (Option.filter_eq_some_iff.mp shown).1

/-- An order that does not rest has no live shadow. -/
theorem Simulates.shadow_dead
    {st : State} {book : LiveBook} (simulates : Simulates allowed st book)
    {id : UInt64} (absent : book.lookup id = none)
    {sh : OrderShadow} (stored : st.shadow.get id = some sh) :
    ¬sh.alive = true := by
  have shown := simulates.shadow.shows id
  rw [absent, Option.map_none, liveIn, stored, Option.filter_some] at shown
  intro alive
  rw [if_pos alive] at shown
  cases shown

/-- Killing a resting order withdraws it. -/
theorem Simulates.kill
    {st : State} {book : LiveBook} (simulates : Simulates allowed st book)
    {id : UInt64} {side : Side} {o : Resting UInt64 Int64}
    (found : book.lookup id = some (side, o)) :
    Simulates allowed (st.kill id side) (book.withdraw id) where
  ladders := simulates.ladders.cancel found
  shadow := by
    have alive := simulates.shadow.shows id
    rw [found, Option.map_some] at alive
    rw [Book.lookup_withdraw]
    refine simulates.shadow.update ?_ (by simp)
    rw [State.kill, liveIn_modify alive]
    simp

omit [LinearOrder Int64] in
theorem residual_pos {left : Nat} (small : left < 2 ^ 32) :
    UInt32.ofNat left > 0 ↔ left ≠ 0 := by
  rw [gt_iff_lt, UInt32.lt_iff_toNat_lt, UInt32.toNat_ofNat_of_lt' small]
  exact Nat.pos_iff_ne_zero

section Submission

variable {st : State} {book : LiveBook} {order : Resting UInt64 Int64}
  {side : Side} {fresh : book.lookup order.id = none}

/-- The state after a submission whose remainder rests. -/
theorem simulates_rest
    (ladders : LaddersAgree allowed st.book
      (book.submit side order true fresh).book)
    (shadow : ShadowAgrees
      ((book.submit side order true fresh).fills.foldl
        (reduce side.opposite) book.lookup) st.shadow)
    (small : order.qty < 2 ^ 32)
    (unfilled : (book.submit side order true fresh).left ≠ 0) :
    Simulates allowed
      (st.rest order.id order.price
        (UInt32.ofNat (book.submit side order true fresh).left)
        (sideByte side))
      (book.submit side order true fresh).book where
  ladders := ladders
  shadow := by
    rw [Book.lookup_submit, if_pos ⟨rfl, unfilled⟩]
    refine shadow.update ?_ ?_
    · rw [State.rest, liveIn_set]
      rfl
    · intro s o equal
      cases equal
      exact Nat.lt_of_le_of_lt
        (book.submit_left_le side order true fresh) small

/-- The state after a submission that is filled. -/
theorem simulates_filled
    (ladders : LaddersAgree allowed st.book
      (book.submit side order true fresh).book)
    (shadow : ShadowAgrees
      ((book.submit side order true fresh).fills.foldl
        (reduce side.opposite) book.lookup) st.shadow)
    (filled : (book.submit side order true fresh).left = 0) :
    Simulates allowed st (book.submit side order false fresh).book where
  ladders := Book.submit_of_filled filled ▸ ladders
  shadow := by
    rw [Book.lookup_submit_dropped]
    exact shadow

/-- The state after the remainder of a submission is dropped again. -/
theorem simulates_dropped
    (ladders : LaddersAgree allowed st.book
      (book.submit side order true fresh).book)
    (shadow : ShadowAgrees
      ((book.submit side order true fresh).fills.foldl
        (reduce side.opposite) book.lookup) st.shadow)
    (unfilled : (book.submit side order true fresh).left ≠ 0) :
    Simulates allowed { st with book := (st.book.cancel (key order.id) side).2 }
      (book.submit side order false fresh).book where
  ladders := by
    have undone :
        (book.submit side order true fresh).book.withdraw order.id =
          (book.submit side order false fresh).book :=
      Book.withdraw_submit
    rw [← undone]
    refine ladders.cancel
      (show _ = some (side, { order with
        qty := (book.submit side order true fresh).left }) from ?_)
    rw [Book.lookup_submit, if_pos ⟨rfl, unfilled⟩, Function.update_self]
  shadow := by
    rw [Book.lookup_submit_dropped]
    exact shadow

end Submission

/-- A legal new order. -/
theorem newOrder_simulates
    (ticks : OrderCompatible (Ticks allowed))
    {st : State} {book : LiveBook} (simulates : Simulates allowed st book)
    {o : NewOrder} (legal : Legal allowed book (.newOrder o)) :
    ∃ next out, engineOnNewOrder st o = some (next, out) ∧
      Simulates allowed next (Reference.newOrder book o).1 ∧
      SameReports out (Reference.newOrder book o).2 := by
  obtain ⟨fresh, valid, positive, permitted⟩ := legal
  have small : (submittedOrder o).qty < 2 ^ 32 := o.quantity.toNat_lt
  have submittable : Submittable allowed book (submittedOrder o) :=
    ⟨fresh, positive, small, permitted⟩
  obtain ⟨next, matched, ladders, shadow⟩ :=
    matchAggressor_submits ticks simulates submittable o.sequenceNumber
      (show bookSide o.side = sideOf o.side from rfl)
  have called :
      matchAggressor st o.sequenceNumber o.side
        { clientId := 0
          seqNumber := o.orderId
          price := asU64 o.priceTicks
          size := o.quantity.toNat
          side := bookSide o.side } = _ := matched
  have something := residual_pos (Nat.lt_of_le_of_lt
    (book.submit_left_le (sideOf o.side) (submittedOrder o) true fresh)
    small)
  simp only [engineOnNewOrder, key, called, Reference.newOrder, dif_pos fresh]
  -- The reference drops or rests the remainder, the adapter always rests it.
  have sameLeft :
      (book.submit (sideOf o.side) (submittedOrder o) (o.ioc = 0)
        fresh).left =
      (book.submit (sideOf o.side) (submittedOrder o) true fresh).left := rfl
  by_cases filled :
      (book.submit (sideOf o.side) (submittedOrder o) true fresh).left = 0
  · have nothing := mt something.mp (not_not.mpr filled)
    simp only [if_neg nothing, ite_self]
    refine ⟨_, _, rfl, ?_, ?_⟩
    · have done := simulates_filled ladders shadow filled
      rw [← Book.submit_of_filled (sameLeft.trans filled)] at done
      exact done
    · rw [sameLeft, if_neg fun rest => rest.2 filled, List.append_nil]
      exact SameReports.refl _
  · have remains := something.mpr filled
    simp only [if_pos remains]
    by_cases immediate : o.ioc = 0
    · simp only [immediate, ne_eq, not_true_eq_false, if_false, false_and,
        decide_true, List.append_nil]
      refine ⟨_, _, rfl, ?_, SameReports.refl _⟩
      have done := simulates_rest ladders shadow small filled
      rw [sideByte_sideOf valid] at done
      exact done
    · simp only [immediate, ne_eq, not_false_eq_true, if_true, true_and,
        decide_false]
      refine ⟨_, _, rfl, simulates_dropped ladders shadow filled, ?_⟩
      rw [if_pos (show ¬(book.submit (sideOf o.side) (submittedOrder o) false
        fresh).left = 0 from filled)]
      exact SameReports.refl _

/-- A cancel of an order that does not rest is rejected. -/
theorem Simulates.cancel_rejected
    {st : State} {book : LiveBook} (simulates : Simulates allowed st book)
    {c : Cancel} (absent : book.lookup c.orderId = none) :
    engineOnCancel st c =
      (st, [ackReport meCancelReject c.sequenceNumber c.orderId 0 0 0]) := by
  rw [engineOnCancel]
  split
  · rename_i sh stored
    rw [if_neg (simulates.shadow_dead absent stored)]
  · rfl

/-- A modify of an order that does not rest is rejected. -/
theorem Simulates.modify_rejected
    {st : State} {book : LiveBook} (simulates : Simulates allowed st book)
    {m : Modify} (absent : book.lookup m.orderId = none) :
    engineOnModify st m =
      some (st,
        [ackReport meModifyReject m.sequenceNumber m.orderId 0 0 0]) := by
  rw [engineOnModify]
  split
  · rfl
  · rename_i sh stored
    rw [if_neg (simulates.shadow_dead absent stored)]

/-- A legal cancel. -/
theorem cancel_simulates
    {st : State} {book : LiveBook} (simulates : Simulates allowed st book)
    (c : Cancel) :
    Simulates allowed (engineOnCancel st c).1 (Reference.cancel book c).1 ∧
      SameReports (engineOnCancel st c).2 (Reference.cancel book c).2 := by
  unfold Reference.cancel
  cases found : book.lookup c.orderId with
  | none =>
      rw [simulates.cancel_rejected found]
      exact ⟨simulates, SameReports.refl _⟩
  | some entry =>
      obtain ⟨side, o⟩ := entry
      rw [engineOnCancel, simulates.get_shadow found]
      simp only [shadowOf, if_true, bookSide_sideByte]
      exact ⟨simulates.kill found, SameReports.singleton ⟨rfl, rfl, rfl⟩⟩

/-- A legal modify. -/
theorem modify_simulates
    (ticks : OrderCompatible (Ticks allowed))
    {st : State} {book : LiveBook} (simulates : Simulates allowed st book)
    {m : Modify} (legal : Legal allowed book (.modify m)) :
    ∃ next out, engineOnModify st m = some (next, out) ∧
      Simulates allowed next (Reference.modify book m).1 ∧
      SameReports out (Reference.modify book m).2 := by
  unfold Reference.modify
  cases found : book.lookup m.orderId with
  | none =>
      exact ⟨st, _, simulates.modify_rejected found, simulates,
        SameReports.refl _⟩
  | some entry =>
      obtain ⟨side, o⟩ := entry
      obtain ⟨_, positive, permitted, _⟩ := legal
      have fresh := book.lookup_withdraw_self m.orderId
      have small : (modifiedOrder m).qty < 2 ^ 32 := m.newQuantity.toNat_lt
      have submittable :
          Submittable allowed (book.withdraw m.orderId) (modifiedOrder m) :=
        ⟨fresh, positive, small, permitted⟩
      obtain ⟨next, matched, ladders, shadow⟩ :=
        matchAggressor_submits ticks (simulates.kill found) submittable
          m.sequenceNumber (bookSide_sideByte side)
      have called :
          matchAggressor (st.kill m.orderId side) m.sequenceNumber
            (sideByte side)
            { clientId := 0
              seqNumber := m.orderId
              price := asU64 m.newPriceTicks
              size := m.newQuantity.toNat
              side := side } = _ := matched
      have something := residual_pos (Nat.lt_of_le_of_lt
        ((book.withdraw m.orderId).submit_left_le side (modifiedOrder m)
          true fresh) small)
      rw [engineOnModify, simulates.get_shadow found]
      simp only [shadowOf, if_true, bookSide_sideByte, called]
      have reports :=
        SameReports.ack_first
          (show (ackReport meModifyAck m.sequenceNumber m.orderId
            (sideByte side) m.newPriceTicks m.newQuantity).type ≠ meTrade
            from (by decide : meModifyAck ≠ meTrade))
          m.sequenceNumber m.orderId
      by_cases filled :
          ((book.withdraw m.orderId).submit side (modifiedOrder m) true
            fresh).left = 0
      · rw [if_neg (mt something.mp (not_not.mpr filled))]
        refine ⟨_, _, rfl, ?_, reports _⟩
        rw [Book.submit_of_filled filled]
        exact simulates_filled ladders shadow filled
      · rw [if_pos (something.mpr filled)]
        exact ⟨_, _, rfl, simulates_rest ladders shadow small filled,
          reports _⟩

/-- Every legal message keeps the simulation. -/
theorem step_simulates
    (ticks : OrderCompatible (Ticks allowed))
    {st : State} {book : LiveBook} (simulates : Simulates allowed st book)
    {m : Msg} (legal : Legal allowed book m) :
    ∃ next out, Adapter.step st m = some (next, out) ∧
      Simulates allowed next (Reference.step book m).1 ∧
      SameReports out (Reference.step book m).2 := by
  cases m with
  | newOrder o => exact newOrder_simulates ticks simulates legal
  | cancel c =>
      obtain ⟨kept, reports⟩ := cancel_simulates simulates c
      exact ⟨_, _, rfl, kept, reports⟩
  | modify m => exact modify_simulates ticks simulates legal

/-! ## Queries -/

/-- The buckets of one side hold the reference ladder. -/
theorem LaddersAgree.holds
    {fifo : FIFOBook} {book : LiveBook} (agree : LaddersAgree allowed fifo book)
    (side : Side) :
    ∃ ladder, AlikeLadders Names (Ticks allowed) 1 (book.ladder side) ladder ∧
      Holds (fifo.buckets side) side ladder := by
  obtain ⟨ladder, alike, represents⟩ := agree
  refine ⟨ladder side, alike side, ?_⟩
  cases side with
  | buy => exact represents.bid
  | sell => exact represents.ask

omit [LinearOrder Int64] in
/-- A cached best price converts back to the reference's. -/
theorem best_of_rel
    {best : Option Int64} {cached : Option Nat}
    (related : Option.Rel (Ticks allowed) best cached) (sentinel : Int64) :
    (cached.map asI64).getD sentinel = best.getD sentinel := by
  cases related with
  | some ticks =>
      rw [ticks.2, Option.map_some, asI64_asU64]
  | none => rfl

theorem queryBestBid_eq
    {st : State} {book : LiveBook} (simulates : Simulates allowed st book) :
    engineQueryBestBid st = bestBid book := by
  obtain ⟨ladder, alike, holds⟩ := simulates.ladders.holds .buy
  have best : st.book.bestBid = ladder.head?.map Resting.price :=
    Holds.max_livePrices holds
  rw [bestBid, Book.best, ← best_of_rel alike.head_price int64Min, ← best]
  unfold engineQueryBestBid
  cases st.book.bestBid <;> rfl

theorem queryBestAsk_eq
    {st : State} {book : LiveBook} (simulates : Simulates allowed st book) :
    engineQueryBestAsk st = bestAsk book := by
  obtain ⟨ladder, alike, holds⟩ := simulates.ladders.holds .sell
  have best : st.book.bestAsk = ladder.head?.map Resting.price :=
    Holds.min_livePrices holds
  rw [bestAsk, Book.best, ← best_of_rel alike.head_price int64Max, ← best]
  unfold engineQueryBestAsk
  cases st.book.bestAsk <;> rfl

/-! ## The shadow and the buckets -/

/-- The orders in the bucket at a price. -/
def bucket (book : FIFOBook) (side : Side) (price : Nat) : List Order :=
  ((book.buckets side).priceBuckets.get price).getD []

/-- The order a shadow record describes. -/
def OrderShadow.order (sh : OrderShadow) (id : UInt64) : Order where
  clientId := 0
  seqNumber := id
  price := asU64 sh.price
  size := sh.qty.toNat
  side := bookSide sh.side

/--
The live shadow records are exactly the orders in the buckets: same side,
price and remaining quantity.
-/
structure ShadowMatchesBuckets (st : State) : Prop where
  rests : ∀ id sh, liveIn st.shadow id = some sh →
    OrderShadow.order sh id ∈
      bucket st.book (bookSide sh.side) (asU64 sh.price)
  shown : ∀ side price order, order ∈ bucket st.book side price →
    ∃ sh, liveIn st.shadow order.seqNumber = some sh ∧
      order = OrderShadow.order sh order.seqNumber ∧
      side = bookSide sh.side ∧ price = asU64 sh.price

omit [LinearOrder Int64] in
theorem order_shadowOf
    {side : Side} {o : Resting UInt64 Int64} (small : o.qty < 2 ^ 32) :
    OrderShadow.order (shadowOf (side, o)) o.id =
      FifoBookSpec.orderOf side (bookOrder o) := by
  simp only [OrderShadow.order, shadowOf, bookSide_sideByte,
    UInt32.toNat_ofNat_of_lt' small]
  rfl

theorem Simulates.shadowMatchesBuckets
    {st : State} {book : LiveBook} (simulates : Simulates allowed st book) :
    ShadowMatchesBuckets st where
  rests id sh live := by
    rw [simulates.shadow.shows id, Option.map_eq_some_iff] at live
    obtain ⟨⟨side, o⟩, found, rfl⟩ := live
    obtain ⟨member, rfl⟩ := Book.lookup_eq_some_iff.mp found
    obtain ⟨ladder, alike, holds⟩ := simulates.ladders.holds side
    obtain ⟨r, inLadder, paired⟩ := alike.exists_right member
    rw [order_shadowOf (simulates.shadow.bounded _ _ _ found),
      ← eq_bookOrder paired]
    simp only [shadowOf, bookSide_sideByte, bucket]
    rw [holds.levels]
    refine List.mem_map_of_mem (List.mem_filter.mpr ⟨inLadder, ?_⟩)
    simpa using paired.price.2
  shown side price order member := by
    obtain ⟨ladder, alike, holds⟩ := simulates.ladders.holds side
    rw [bucket, holds.levels] at member
    obtain ⟨r, inLevel, rfl⟩ := List.mem_map.mp member
    obtain ⟨inLadder, here⟩ := List.mem_filter.mp inLevel
    obtain ⟨o, inBook, paired⟩ := alike.exists_left inLadder
    have found : book.lookup o.id = some (side, o) :=
      Book.lookup_eq_some_iff.mpr ⟨inBook, rfl⟩
    rw [eq_bookOrder paired] at here ⊢
    refine ⟨shadowOf (side, o), ?_, ?_, ?_, ?_⟩
    · rw [show (FifoBookSpec.orderOf side (bookOrder o)).seqNumber = o.id
        from rfl, simulates.shadow.shows o.id, found]
      rfl
    · exact (order_shadowOf (simulates.shadow.bounded _ _ _ found)).symm
    · exact (bookSide_sideByte side).symm
    · exact (by simpa using here : (bookOrder o).price = price).symm

/-! ## Runs -/

/-- A legal run of the adapter from the empty book. -/
theorem run_simulates
    (ticks : OrderCompatible (Ticks allowed)) {msgs : List Msg}
    (legal : LegalRun allowed msgs) :
    ∃ st reports, run Adapter.step State.init msgs = some (st, reports) ∧
      Simulates allowed st (bookAfter msgs) ∧
      SameReports reports (reportsOf msgs) :=
  @simulation State LiveBook Msg Report Adapter.step Reference.step
    (Legal allowed) (fun _ => Simulates allowed) SameReports
    (SameReports.refl []) SameReports.append
    (fun _ _ _ _ simulates legal => step_simulates ticks simulates legal)
    [] msgs _ _ simulates_init legal

/-! ## Legality seen from the adapter -/

/--
The contract of a message, read off the adapter's own live orders.  It puts no
condition on prices.
-/
def LegalIn (st : State) : Msg → Prop
  | .newOrder o =>
      liveIn st.shadow o.orderId = none ∧ (o.side = 0 ∨ o.side = 1) ∧
        1 ≤ o.quantity.toNat
  | .cancel _ => True
  | .modify m =>
      (m.side = 0 ∨ m.side = 1) ∧ 1 ≤ m.newQuantity.toNat ∧
        ∀ sh, liveIn st.shadow m.orderId = some sh → m.side = sh.side

/-- Every message is legal when it arrives in a run of the adapter. -/
def LegalFrom : State → List Msg → Prop
  | _, [] => True
  | st, m :: rest =>
      LegalIn st m ∧ ∀ next ∈ Adapter.step st m, LegalFrom next.1 rest

/-- Any price. -/
def AnyPrice (_ : Int64) : Prop :=
  True

theorem legal_of_legalIn
    {st : State} {book : LiveBook} (simulates : Simulates AnyPrice st book)
    {m : Msg} (legal : LegalIn st m) : Legal AnyPrice book m := by
  have shows := simulates.shadow.shows
  cases m with
  | newOrder o =>
      obtain ⟨dead, sided, positive⟩ := legal
      rw [shows, Option.map_eq_none_iff] at dead
      exact ⟨dead, sided, positive, trivial⟩
  | cancel c => trivial
  | modify m =>
      obtain ⟨sided, positive, own⟩ := legal
      refine ⟨sided, positive, trivial, fun side o found => ?_⟩
      exact own (shadowOf (side, o)) (by rw [shows, found]; rfl)

theorem legalIn_of_legal
    {st : State} {book : LiveBook} (simulates : Simulates allowed st book)
    {m : Msg} (legal : Legal allowed book m) : LegalIn st m := by
  have shows := simulates.shadow.shows
  cases m with
  | newOrder o =>
      obtain ⟨fresh, sided, positive, _⟩ := legal
      exact ⟨by rw [shows, fresh]; rfl, sided, positive⟩
  | cancel c => trivial
  | modify m =>
      obtain ⟨sided, positive, _, own⟩ := legal
      refine ⟨sided, positive, fun sh live => ?_⟩
      rw [shows, Option.map_eq_some_iff] at live
      obtain ⟨⟨side, o⟩, found, rfl⟩ := live
      exact own side o found

/-- A run legal for the adapter is legal for the book it stands for. -/
theorem admitted_of_legalFrom
    (ticks : OrderCompatible (Ticks AnyPrice))
    {st : State} {book : LiveBook} (simulates : Simulates AnyPrice st book)
    {msgs : List Msg} (legal : LegalFrom st msgs) :
    Admitted Reference.step (Legal AnyPrice) book msgs := by
  induction msgs generalizing st book with
  | nil => trivial
  | cons m msgs induction =>
      have here := legal_of_legalIn simulates legal.1
      obtain ⟨next, out, stepped, kept, _⟩ :=
        step_simulates ticks simulates here
      exact ⟨here, induction kept (legal.2 (next, out) stepped)⟩

/-- A run legal for the reference is legal for the adapter. -/
theorem legalFrom_of_admitted
    (ticks : OrderCompatible (Ticks allowed))
    {st : State} {book : LiveBook} (simulates : Simulates allowed st book)
    {msgs : List Msg}
    (legal : Admitted Reference.step (Legal allowed) book msgs) :
    LegalFrom st msgs := by
  induction msgs generalizing st book with
  | nil => trivial
  | cons m msgs induction =>
      refine ⟨legalIn_of_legal simulates legal.1, ?_⟩
      intro result stepped
      obtain ⟨next, out, same, kept, _⟩ :=
        step_simulates ticks simulates legal.1
      rw [same] at stepped
      cases stepped
      exact induction kept legal.2

end Matcher

/-! ## The order of the cast prices -/

/-- Prices compared as the FIFO book compares them. -/
@[reducible]
def castOrder : LinearOrder Int64 :=
  LinearOrder.lift' asU64 (Function.LeftInverse.injective asI64_asU64)

theorem cast_ticks :
    @OrderCompatible Int64 Nat castOrder _ (Ticks AnyPrice) := by
  rintro a _ b _ ⟨_, rfl⟩ ⟨_, rfl⟩
  exact Iff.rfl

/-! ## Signed prices -/

theorem queryDepthAt_eq
    {st : State} {book : LiveBook} (simulates : Simulates NonNegative st book)
    (price : Int64) (side : UInt8) :
    engineQueryDepthAt st price side = depthAt book price side := by
  obtain ⟨ladder, alike, holds⟩ := simulates.ladders.holds (sideOf side)
  unfold engineQueryDepthAt depthAt Book.depth
  by_cases negative : price < 0
  · have empty : level price (book.ladder (sideOf side)) = [] := by
      refine level_eq_nil fun o member equal => ?_
      obtain ⟨r, _, paired⟩ := alike.exists_right member
      have nonneg : 0 ≤ o.price.toInt := paired.price.1
      rw [equal] at nonneg
      have below := Int64.lt_iff_toInt_lt.mp negative
      rw [Int64.toInt_zero] at below
      omega
    rw [if_pos negative, empty]
    rfl
  · have nonneg : 0 ≤ price.toInt :=
      Int64.le_iff_toInt_le.mp (Int64.not_lt.mp negative)
    have levels := alike.level signed_ticks
      (show Ticks NonNegative price (asU64 price) from ⟨nonneg, rfl⟩)
    have total := holds.sum_sizes (asU64 price)
    rw [levels.sum_qty, Nat.one_mul] at total
    rw [if_neg negative, ← total]
    unfold FIFOBook.depthAt
    rw [show bookSide side = sideOf side from rfl]
    cases (st.book.buckets (sideOf side)).priceBuckets.get (asU64 price) <;>
      rfl

/-- The contract of the reference is one for the adapter. -/
theorem legalFrom_of_legalRun
    {msgs : List Msg} (legal : LegalRun NonNegative msgs) :
    LegalFrom State.init msgs :=
  legalFrom_of_admitted signed_ticks simulates_init legal

/--
The pgellert adapter refines the reference matcher on every legal message
sequence, and after every message of it: it does not panic, its reports have
the reference's canonical text, its shadow matches its price buckets, and its
three queries give the reference book's values.
-/
theorem pgellert_refines_reference
    (msgs : List Msg) (legal : LegalRun NonNegative msgs) (front : List Msg)
    (reached : front <+: msgs) :
    ∃ st reports, run Adapter.step State.init front = some (st, reports) ∧
      (buildCanonicalText (reports.map collect)).1 =
        (buildCanonicalText ((reportsOf front).map collect)).1 ∧
      ShadowMatchesBuckets st ∧
      engineQueryBestBid st = bestBid (bookAfter front) ∧
      engineQueryBestAsk st = bestAsk (bookAfter front) ∧
      ∀ price side,
        engineQueryDepthAt st price side =
          depthAt (bookAfter front) price side := by
  obtain ⟨st, reports, ran, simulates, same⟩ :=
    run_simulates signed_ticks (legal.of_prefix reached)
  exact ⟨st, reports, ran, (sameCanonical_iff_text_eq _ _).mp same.1,
    simulates.shadowMatchesBuckets, queryBestBid_eq simulates,
    queryBestAsk_eq simulates, queryDepthAt_eq simulates⟩

/--
Two makers at one price and a better one, a partial sweep, an IOC order with
a residue, a crossing modify, a stale cancel and a reused identifier.
-/
def mixedRun : List Msg :=
  [.newOrder { orderId := 1, sequenceNumber := 1, priceTicks := 100
               quantity := 5, side := 1, ioc := 0 },
   .newOrder { orderId := 2, sequenceNumber := 2, priceTicks := 100
               quantity := 5, side := 1, ioc := 0 },
   .newOrder { orderId := 3, sequenceNumber := 3, priceTicks := 99
               quantity := 2, side := 1, ioc := 0 },
   .newOrder { orderId := 4, sequenceNumber := 4, priceTicks := 100
               quantity := 9, side := 0, ioc := 0 },
   .newOrder { orderId := 5, sequenceNumber := 5, priceTicks := 100
               quantity := 7, side := 0, ioc := 1 },
   .newOrder { orderId := 6, sequenceNumber := 6, priceTicks := 98
               quantity := 4, side := 0, ioc := 0 },
   .newOrder { orderId := 1, sequenceNumber := 7, priceTicks := 101
               quantity := 3, side := 1, ioc := 0 },
   .modify { orderId := 6, sequenceNumber := 8, newPriceTicks := 101
             newQuantity := 5, side := 0 },
   .cancel { orderId := 2, sequenceNumber := 9 }]

theorem pgellert_refines_reference_mixedRun :
    ∃ st reports,
      run Adapter.step State.init mixedRun = some (st, reports) ∧
        ShadowMatchesBuckets st := by
  obtain ⟨st, reports, ran, _, shadow, _⟩ :=
    pgellert_refines_reference mixedRun (by decide) mixedRun
      (List.prefix_refl mixedRun)
  exact ⟨st, reports, ran, shadow⟩

end MatchingBench.Pgellert.Refinement
