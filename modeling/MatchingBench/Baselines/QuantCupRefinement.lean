import MatchingBench.Baselines.QuantCupShadow

/-!
# The QuantCup adapter refines the reference matcher

The shadow table is the reference book seen by identifier, the engine's ladders
are its ladders, and what was prebuilt is what the remaining messages need.
-/

set_option autoImplicit false

namespace MatchingBench.Baselines.QuantCupRefinement

open MatchingBench.Api
open MatchingBench.Adapters
open MatchingBench.Lib.PriceTime
open MatchingBench.Lib.OrderBook
open MatchingBench.Lib.Correspondence
open MatchingBench.Lib.Ladders
open MatchingBench.Lib.Tables
open MatchingBench.Reference
open MatchingBench.Baselines.QuantCup
open MatchingBench.Baselines.QuantCupShadow

/-! ## Placing an order -/

theorem prebuilt_ticks
    {id : UInt64} {side : UInt8} {price : Int64} {qty : UInt32}
    (permitted : QcPrice price) :
    ScaledTicks QcPrice 1 price (prebuilt id side price qty).price.toNat := by
  have ⟨low, high⟩ := permitted
  have wide := @toNat_toUInt64 price (by omega)
  simp only [kNumPricePoints] at high
  refine ⟨permitted, ?_⟩
  rw [prebuilt, UInt64.toNat_toUInt32, Nat.mod_eq_of_lt (by omega), wide]
  exact (Int.one_mul _).symm

/-- The names once an order has a handle. -/
def Named
    (orders : List OrderState) (id : UInt64) (qcid : Nat) (other : UInt64)
    (name : Nat × Field) : Prop :=
  if other = id then name = (qcid, encodeId id) else Link orders other name

section Placing

variable {core : Core} {kMaxNumOrders : Nat}
  {ladders : core.State → Sides (Nat × Field) Nat} {calls : core.State → Nat}
  {st : State core} {book : LiveBook} {order : Resting UInt64 Int64}

/-- The identifiers of the resting orders have four bytes. -/
def FourBytes (id : UInt64) (_ : Side) (_ : Int64) : Prop :=
  id.toNat < 2 ^ 32

/-- What a limit order leaves behind, whether or not it is to rest. -/
structure Placed
    (ladders : core.State → Sides (Nat × Field) Nat)
    (calls : core.State → Nat) (st : State core) (seq : UInt64)
    (order : Resting UInt64 Int64) (submitted : Bool → Submission UInt64 Int64)
    (next : core.State) (qcid : Nat) (m : Matching) : Prop where
  reports : m.reports = (submitted false).fills.map (tradeReport seq order.id)
  left : m.takerLeft.toNat = (submitted false).left
  inStep : InStep order.id st.orders (submitted false).book.lookup m
  stands : StandsFor (Named st.orders order.id qcid) (ScaledTicks QcPrice 1) 1
    (ladders next) (submitted true).book
  calls : calls next = calls st.book + 1

theorem limit_places
    (correct : core.Correct kMaxNumOrders ladders calls)
    (stands : StandsFor (Link st.orders) (ScaledTicks QcPrice 1) 1
      (ladders st.book) book)
    (others : Function.update (shadowView st.orders) order.id none =
      book.lookup)
    (small : book.All FourBytes) (fresh : book.lookup order.id = none)
    {side : UInt8} {qty : UInt32} (quantity : order.qty = qty.toNat)
    (positive : 0 < order.qty) (permitted : QcPrice order.price)
    (room : calls st.book + 1 < kMaxNumOrders) (seq : UInt64) :
    ∃ next qcid m,
      limit st seq order.id side qty
          (prebuilt order.id side order.price qty) = (next, qcid, m) ∧
        Placed ladders calls st seq order
          (fun rests => book.submit (sideOf side) order rests fresh)
          next qcid m := by
  have native : (prebuilt order.id side order.price qty).side =
      nativeSide side := rfl
  have ticks := @prebuilt_ticks order.id side order.price qty permitted
  obtain ⟨low, high⟩ := permitted
  have value := ticks.2
  simp only [kNumPricePoints] at high
  obtain ⟨after, counted, reported, _⟩ :=
    correct.limit st.book (prebuilt order.id side order.price qty) room
      (by rw [native, nativeSide]; split <;> decide) (by omega)
      (by simp only [kNumPricePoints]; omega) (by omega : 0 < qty.toNat)
  rw [native, tSide_nativeSide] at after reported
  have compatible := @scaledTicks_compatible QcPrice 1 Nat.one_pos
  have named : StandsFor
      (Named st.orders order.id
        (core.limit st.book (prebuilt order.id side order.price qty)).2.1)
      (ScaledTicks QcPrice 1) 1 (ladders st.book) book := by
    refine stands.relink fun s o member name linked => ?_
    have other : o.id ≠ order.id := fun same =>
      Book.lookup_eq_none_iff.mp fresh s (same ▸ List.mem_map_of_mem member)
    rw [Named, if_neg other]
    exact linked
  obtain ⟨fills, left, _⟩ := @StandsFor.cross _ _ _ _ _ _ _ _ _ _ _ _ named
    compatible Nat.one_pos (sideOf side) order fresh
    (prebuilt order.id side order.price qty).price.toNat ticks
  rw [Nat.one_mul, quantity] at fills left
  have conserved := book.submit_conserves (sideOf side) order false fresh
  have trader : ∀ fill ∈ (book.submit (sideOf side) order false fresh).fills,
      ∀ name, Named st.orders order.id
          (core.limit st.book (prebuilt order.id side order.price qty)).2.1
          fill.maker.id name →
        decodeId name.2 = fill.maker.id := by
    intro fill member name linked
    have maker := (mem_sweep_fills (book.positive _) member).1
    have few := small _ _ _ (Book.lookup_eq_some_iff.mpr ⟨maker, rfl⟩)
    rw [Named] at linked
    split at linked
    · rename_i same
      rw [linked, ← same, decodeId_encodeId few]
    · rcases linked with ⟨s, _, rfl⟩
      exact decodeId_encodeId few
  have heard := @foldl_execution _ side native seq order.id _ _ _ _ reported
    fills trader
    { orders := st.orders, takerLeft := qty, reports := [] }
  refine ⟨_, _, _, rfl, ?_⟩
  constructor
  · rw [heard, foldl_matchFill_reports, List.nil_append]
  · rw [heard, foldl_matchFill_takerLeft _ _ (by dsimp only; omega)]
    dsimp only
    omega
  · rw [heard, Book.lookup_submit_dropped]
    refine @Applies.foldl _ _ _ _ _ (InStep order.id st.orders) _
      (fun view m fill kept found _ within => kept.matchFill found within)
      _ _ _ Book.submit_applies ⟨others, rfl, rfl⟩
  · rw [after]
    refine named.submitted compatible Nat.one_pos ⟨?_, ticks, ?_⟩
    · rw [Named, if_pos rfl]
      rfl
    · rw [Nat.one_mul, quantity]
      rfl
  · exact counted

end Placing

/-! ## Settling an order's slot -/

/-- Names of a placed order become those of the table it was stored in. -/
theorem stands_of_named
    {before after : List OrderState} {id : UInt64} {qcid : Nat}
    {same : Int64 → Nat → Prop} {unit : Nat}
    {ladders : Sides (Nat × Field) Nat} {book : LiveBook}
    (named : StandsFor (Named before id qcid) same unit ladders book)
    (others : ∀ other, other ≠ id → (findOrder after other).map handle =
      (findOrder before other).map handle)
    (own : ∀ entry, book.lookup id = some entry →
      ∃ s, findOrder after id = some s ∧ s.qcid = qcid) :
    StandsFor (Link after) same unit ladders book := by
  refine named.relink fun side o member name linked => ?_
  rw [Named] at linked
  split at linked
  · rename_i here
    rcases own _ (Book.lookup_eq_some_iff.mpr ⟨member, here⟩) with
      ⟨s, stored, handles⟩
    exact ⟨s, here ▸ stored, by rw [linked, handles, here]⟩
  · rename_i other
    exact linked.of_handle (others o.id other)

section Settling

variable {core : Core} {ladders : core.State → Sides (Nat × Field) Nat}
  {calls : core.State → Nat} {st : State core} {book : LiveBook}
  {order : Resting UInt64 Int64} {seq : UInt64} {side : Side}
  {fresh : book.lookup order.id = none} {next : core.State} {qcid : Nat}
  {m : Matching}

/-- The slot of the order is set to what is left of it. -/
theorem Placed.settled
    (placed : Placed ladders calls st seq order
      (fun rests => book.submit side order rests fresh) next qcid m)
    (change : OrderState → OrderState)
    (slot : order.id.toNat < st.orders.length)
    (settles : ∀ s, shadowOrder order.id (change s) =
      if (book.submit side order true fresh).left ≠ 0 then
        some (side, { order with
          qty := (book.submit side order true fresh).left })
      else
        none)
    (names : (book.submit side order true fresh).left ≠ 0 →
      ∀ s, (change s).qcid = qcid) :
    StandsFor (Link (update m.orders order.id.toNat change))
        (ScaledTicks QcPrice 1) 1 (ladders next)
        (book.submit side order true fresh).book ∧
      shadowView (update m.orders order.id.toNat change) =
        (book.submit side order true fresh).book.lookup := by
  rcases List.getElem?_eq_getElem slot with found
  have stored : findOrder m.orders order.id = some st.orders[order.id.toNat] :=
    placed.inStep.own.trans found
  constructor
  · refine stands_of_named placed.stands (fun other different => ?_) ?_
    · rw [findOrder_update, if_neg different]
      exact findOrder_of_handles placed.inStep.handles other
    · intro entry resting
      rw [Book.lookup_submit_rests, Function.update_self] at resting
      split at resting
      · rename_i unfilled
        exact ⟨_, by rw [findOrder_update, if_pos rfl, stored]; rfl,
          names unfilled _⟩
      · cases resting
  · rw [shadowView_update, stored, Option.bind_some, settles,
      Book.lookup_submit_rests, ← placed.inStep.others,
      Function.update_idem]

/-- The slot of an order that does not come to rest is left alone. -/
theorem Placed.untouched
    (placed : Placed ladders calls st seq order
      (fun rests => book.submit side order rests fresh) next qcid m)
    (absent : shadowView st.orders order.id = none) :
    shadowView m.orders = (book.submit side order false fresh).book.lookup := by
  have still : shadowView m.orders order.id = none := by
    rw [← absent, shadowView, shadowView, placed.inStep.own]
  rw [← placed.inStep.others, ← still, Function.update_eq_self]

/-- An order that is filled is not in the engine either. -/
theorem Placed.filled
    (placed : Placed ladders calls st seq order
      (fun rests => book.submit side order rests fresh) next qcid m)
    (filled : (book.submit side order true fresh).left = 0) :
    StandsFor (Link m.orders) (ScaledTicks QcPrice 1) 1 (ladders next)
      (book.submit side order false fresh).book := by
  rw [← Book.submit_of_filled filled]
  refine stands_of_named placed.stands (fun other _ =>
    findOrder_of_handles placed.inStep.handles other) ?_
  intro entry resting
  rw [Book.submit_of_filled filled, Book.lookup_submit_dropped_self]
    at resting
  cases resting

/-- Cancelling what is left of an order undoes its resting. -/
theorem Placed.cancelled
    {kMaxNumOrders : Nat} (correct : core.Correct kMaxNumOrders ladders calls)
    (placed : Placed ladders calls st seq order
      (fun rests => book.submit side order rests fresh) next qcid m)
    (small : book.All FourBytes) (few : order.id.toNat < 2 ^ 32)
    (unfilled : (book.submit side order true fresh).left ≠ 0) :
    StandsFor (Link m.orders) (ScaledTicks QcPrice 1) 1
        (ladders (core.cancel next qcid))
        (book.submit side order false fresh).book ∧
      calls (core.cancel next qcid) = calls next := by
  have bytes := @Book.All.submit _ _ _ _ _ _ small side order true fresh
    fun _ => few
  have resting :
      (book.submit side order true fresh).book.lookup order.id =
        some (side, { order with
          qty := (book.submit side order true fresh).left }) := by
    rw [Book.lookup_submit_rests, Function.update_self, if_pos unfilled]
  have rests : Rests (ladders next) (qcid, encodeId order.id) := by
    rcases placed.stands.exists_right resting with ⟨r, member, paired⟩
    have named := paired.id
    rw [Named, if_pos rfl] at named
    exact ⟨side, r, member, named⟩
  have ⟨withdrawn, counted⟩ :=
    correct.cancel next qcid (encodeId order.id) rests
  refine ⟨?_, counted⟩
  rw [withdrawn, ← @Book.withdraw_submit _ _ _ _ book side order true fresh]
  have names : ∀ s, ∀ o ∈ (book.submit side order true fresh).book.ladder s,
      ∀ r : Resting (Nat × Field) Nat, Named st.orders order.id qcid o.id r.id →
        (o.id = order.id ↔ r.id = (qcid, encodeId order.id)) := by
    intro s o member r linked
    rw [Named] at linked
    split at linked
    · rename_i here
      exact iff_of_true here linked
    · rename_i other
      refine iff_of_false other fun same => other ?_
      rcases linked with ⟨_, _, name⟩
      rw [same] at name
      exact (encodeId_inj few
        (bytes _ _ _ (Book.lookup_eq_some_iff.mpr ⟨member, rfl⟩))
        (Prod.mk.inj name).2).symm
  refine stands_of_named (placed.stands.withdrawn names) (fun other _ =>
    findOrder_of_handles placed.inStep.handles other) ?_
  intro entry found
  rw [Book.lookup_withdraw_self] at found
  cases found

end Settling

/-! ## The simulation -/

/-- The native orders of the new orders of a workload. -/
def newsOf (msgs : List Msg) : List TOrder :=
  msgs.filterMap fun
    | .newOrder o =>
        some (prebuilt o.orderId o.side o.priceTicks o.quantity)
    | _ => none

/-- The native orders of its modifies. -/
def modifiesOf (msgs : List Msg) : List TOrder :=
  msgs.filterMap fun
    | .modify m =>
        some (prebuilt m.orderId m.side m.newPriceTicks m.newQuantity)
    | _ => none

/-- What was prebuilt serves the messages still to come. -/
structure Stocked
    {core : Core} (kMaxNumOrders : Nat) (calls : core.State → Nat)
    (rest : List Msg) (st : State core) : Prop where
  pre : st.pre.drop st.preIdx = newsOf rest
  preModify : st.preModify.drop st.preModifyIdx = modifiesOf rest
  arena : calls st.book + orderCount rest < kMaxNumOrders
  bounded : st.orders.length ≤ 2 ^ 64
  slots : NewIds st.orders.length rest
  ids : NewIds (2 ^ 32) rest

/-- The adapter's state stands for a reference book. -/
structure Simulates
    {core : Core} (kMaxNumOrders : Nat)
    (ladders : core.State → Sides (Nat × Field) Nat)
    (calls : core.State → Nat) (rest : List Msg) (st : State core)
    (book : LiveBook) : Prop where
  stocked : Stocked kMaxNumOrders calls rest st
  stands : StandsFor (Link st.orders) (ScaledTicks QcPrice 1) 1
    (ladders st.book) book
  shadow : shadowView st.orders = book.lookup
  small : book.All FourBytes
  wired : Wired st.orders

theorem drop_eq_cons
    {α : Type} {table later : List α} {index : Nat} {first : α}
    (same : table.drop index = first :: later) :
    table[index]? = some first ∧ table.drop (index + 1) = later := by
  rw [← List.head?_drop, ← List.tail_drop, same]
  exact ⟨rfl, rfl⟩

section Messages

variable {core : Core} {kMaxNumOrders : Nat}
  {ladders : core.State → Sides (Nat × Field) Nat} {calls : core.State → Nat}
  {rest : List Msg} {st : State core} {book : LiveBook}

/-- A new order uses the next prebuilt one. -/
theorem Stocked.newOrder
    {o : NewOrder}
    (stocked : Stocked kMaxNumOrders calls (.newOrder o :: rest) st) :
    st.pre[st.preIdx]? =
        some (prebuilt o.orderId o.side o.priceTicks o.quantity) ∧
      ∀ next orders, calls next = calls st.book + 1 →
        orders.length = st.orders.length →
          Stocked kMaxNumOrders calls rest
            { st with
              book := next, orders := orders, preIdx := st.preIdx + 1 } := by
  have ⟨built, later⟩ := drop_eq_cons stocked.pre
  refine ⟨built, fun next orders counted same => ?_⟩
  have arena := stocked.arena
  rw [orderCount_cons, show orderCredit (.newOrder o) = 1 from rfl] at arena
  constructor
  · exact later
  · exact stocked.preModify
  · dsimp only
    omega
  · exact same ▸ stocked.bounded
  · exact same ▸ stocked.slots.tail
  · exact stocked.ids.tail

theorem Stocked.cancel
    {c : Cancel} (stocked : Stocked kMaxNumOrders calls (.cancel c :: rest) st)
    {next : core.State} {orders : List OrderState}
    (counted : calls next = calls st.book)
    (same : orders.length = st.orders.length) :
    Stocked kMaxNumOrders calls rest
      { st with book := next, orders := orders } := by
  have arena := stocked.arena
  rw [orderCount_cons, show orderCredit (.cancel c) = 0 from rfl] at arena
  constructor
  · exact stocked.pre
  · exact stocked.preModify
  · dsimp only
    omega
  · exact same ▸ stocked.bounded
  · exact same ▸ stocked.slots.tail
  · exact stocked.ids.tail

/-- A modify uses the next prebuilt replacement, also when it is rejected. -/
theorem Stocked.modify
    {m : Modify}
    (stocked : Stocked kMaxNumOrders calls (.modify m :: rest) st) :
    st.preModify[st.preModifyIdx]? =
        some (prebuilt m.orderId m.side m.newPriceTicks m.newQuantity) ∧
      ∀ next orders, calls next ≤ calls st.book + 1 →
        orders.length = st.orders.length →
          Stocked kMaxNumOrders calls rest
            { st with
              book := next, orders := orders
              preModifyIdx := st.preModifyIdx + 1 } := by
  have ⟨built, later⟩ := drop_eq_cons stocked.preModify
  refine ⟨built, fun next orders counted same => ?_⟩
  have arena := stocked.arena
  rw [orderCount_cons, show orderCredit (.modify m) = 1 from rfl] at arena
  constructor
  · exact stocked.pre
  · exact later
  · dsimp only
    omega
  · exact same ▸ stocked.bounded
  · exact same ▸ stocked.slots.tail
  · exact stocked.ids.tail

/-- What is left of an order, as the adapter compares and reports it. -/
theorem takerLeft_eq
    {left : Nat} {takerLeft : UInt32} (same : takerLeft.toNat = left) :
    takerLeft = UInt32.ofNat left ∧ (takerLeft > 0 ↔ left ≠ 0) := by
  constructor
  · rw [← same, UInt32.ofNat_toNat]
  · rw [gt_iff_lt, UInt32.lt_iff_toNat_lt, same]
    exact Nat.pos_iff_ne_zero

section NewOrder

variable {o : NewOrder} {fresh : book.lookup o.orderId = none}
  {next : core.State} {qcid : Nat} {m : Matching}
  (simulates : Simulates kMaxNumOrders ladders calls (.newOrder o :: rest) st
    book)
  (made : limit st o.sequenceNumber o.orderId o.side o.quantity
    (prebuilt o.orderId o.side o.priceTicks o.quantity) = (next, qcid, m))
  (placed : Placed ladders calls st o.sequenceNumber (submittedOrder o)
    (fun rests =>
      book.submit (sideOf o.side) (submittedOrder o) rests fresh) next qcid m)

include simulates

theorem Simulates.absent_of_fresh
    (fresh : book.lookup o.orderId = none) :
    shadowView st.orders o.orderId = none := by
  rw [simulates.shadow]
  exact fresh

theorem Simulates.small_submit (rests : Bool) :
    (book.submit (sideOf o.side) (submittedOrder o) rests
      fresh).book.All FourBytes :=
  @Book.All.submit _ _ _ _ _ _ simulates.small (sideOf o.side)
    (submittedOrder o) rests fresh fun _ =>
      simulates.stocked.ids o List.mem_cons_self

include made placed

/-- Nothing is left to rest or to cancel. -/
theorem newOrder_filled
    (filled : (book.submit (sideOf o.side) (submittedOrder o) true
      fresh).left = 0) :
    ∃ next out, engineOnNewOrder st o = some (next, out) ∧
      Simulates kMaxNumOrders ladders calls rest next
        (Reference.newOrder book o).1 ∧
      SameReports out (Reference.newOrder book o).2 := by
  have ⟨built, stocked⟩ := simulates.stocked.newOrder
  have lengths := length_of_handles placed.inStep.handles
  have ⟨_, leftIff⟩ := takerLeft_eq placed.left
  have done : ¬m.takerLeft > 0 := fun more => leftIff.mp more filled
  have nothing : ¬(o.ioc ≠ 0 ∧
      (book.submit (sideOf o.side) (submittedOrder o) (o.ioc = 0)
        fresh).left ≠ 0) :=
    fun both => both.2 filled
  have dropped :
      (book.submit (sideOf o.side) (submittedOrder o) (o.ioc = 0)
          fresh).book =
        (book.submit (sideOf o.side) (submittedOrder o) false fresh).book :=
    Book.submit_of_filled filled
  rw [Reference.newOrder, dif_pos fresh, engineOnNewOrder, built]
  dsimp only
  rw [made]
  dsimp only
  rw [if_neg done, if_neg done, ite_self, if_neg nothing, dropped,
    placed.reports, List.append_nil]
  refine ⟨_, _, rfl, ?_, SameReports.refl _⟩
  constructor
  · exact stocked next m.orders placed.calls lengths
  · exact placed.filled filled
  · exact placed.untouched (simulates.absent_of_fresh fresh)
  · exact simulates.small_submit false
  · exact wired_of_handles simulates.wired placed.inStep.handles

/-- The remainder of an order that may rest is stored under the new handle. -/
theorem newOrder_rests
    (valid : o.side = 0 ∨ o.side = 1)
    (unfilled : (book.submit (sideOf o.side) (submittedOrder o) true
      fresh).left ≠ 0)
    (ioc : o.ioc = 0) :
    ∃ next out, engineOnNewOrder st o = some (next, out) ∧
      Simulates kMaxNumOrders ladders calls rest next
        (Reference.newOrder book o).1 ∧
      SameReports out (Reference.newOrder book o).2 := by
  have ⟨built, stocked⟩ := simulates.stocked.newOrder
  have slot := simulates.stocked.slots o List.mem_cons_self
  have lengths := length_of_handles placed.inStep.handles
  have ⟨_, leftIff⟩ := takerLeft_eq placed.left
  have more : m.takerLeft > 0 := leftIff.mpr unfilled
  have rests : (decide (o.ioc = 0)) = true := decide_eq_true ioc
  have stays : ¬(o.ioc ≠ 0 ∧
      (book.submit (sideOf o.side) (submittedOrder o) true
        fresh).left ≠ 0) :=
    fun both => both.1 ioc
  have ⟨stands, shadow⟩ := placed.settled
    (fun _ =>
      { price := o.priceTicks, qty := m.takerLeft, side := o.side
        alive := true, qcid := qcid })
    slot
    (fun _ => by
      rw [if_pos unfilled, shadowOrder, if_pos rfl]
      exact congrArg _ (congrArg _ (congrArg _ placed.left)))
    (fun _ _ => rfl)
  rw [Reference.newOrder, dif_pos fresh, engineOnNewOrder, built]
  dsimp only
  rw [made]
  dsimp only
  rw [if_neg (not_not.mpr ioc), if_pos more,
    store_eq_update (lengths.symm ▸ slot), Option.map_some, rests,
    if_neg stays, placed.reports, List.append_nil]
  refine ⟨_, _, rfl, ?_, SameReports.refl _⟩
  constructor
  · exact stocked next _ placed.calls (by rw [length_update, lengths])
  · exact stands
  · exact shadow
  · exact simulates.small_submit true
  · have wired := wired_of_handles simulates.wired placed.inStep.handles
    exact wired.update fun _ _ => valid

/-- The remainder of an order that may not rest is cancelled at once. -/
theorem newOrder_cancelled
    (correct : core.Correct kMaxNumOrders ladders calls)
    (unfilled : (book.submit (sideOf o.side) (submittedOrder o) true
      fresh).left ≠ 0)
    (ioc : o.ioc ≠ 0) :
    ∃ next out, engineOnNewOrder st o = some (next, out) ∧
      Simulates kMaxNumOrders ladders calls rest next
        (Reference.newOrder book o).1 ∧
      SameReports out (Reference.newOrder book o).2 := by
  have ⟨built, stocked⟩ := simulates.stocked.newOrder
  have few := simulates.stocked.ids o List.mem_cons_self
  have lengths := length_of_handles placed.inStep.handles
  have ⟨leftEq, leftIff⟩ := takerLeft_eq placed.left
  have more : m.takerLeft > 0 := leftIff.mpr unfilled
  have rests : (decide (o.ioc = 0)) = false := decide_eq_false ioc
  have goes : o.ioc ≠ 0 ∧
      (book.submit (sideOf o.side) (submittedOrder o) false
        fresh).left ≠ 0 :=
    ⟨ioc, unfilled⟩
  have ⟨stands, counted⟩ :=
    placed.cancelled correct simulates.small few unfilled
  rw [Reference.newOrder, dif_pos fresh, engineOnNewOrder, built]
  dsimp only
  rw [made]
  dsimp only
  rw [if_pos ioc, if_pos more, rests, if_pos goes, placed.reports, leftEq]
  refine ⟨_, _, rfl, ?_, SameReports.refl _⟩
  constructor
  · exact stocked _ m.orders (counted.trans placed.calls) lengths
  · exact stands
  · exact placed.untouched (simulates.absent_of_fresh fresh)
  · exact simulates.small_submit false
  · exact wired_of_handles simulates.wired placed.inStep.handles

end NewOrder

theorem newOrder_simulates
    (correct : core.Correct kMaxNumOrders ladders calls) {o : NewOrder}
    (simulates : Simulates kMaxNumOrders ladders calls (.newOrder o :: rest)
      st book)
    (legal : Legal QcPrice book (.newOrder o)) :
    ∃ next out, engineOnNewOrder st o = some (next, out) ∧
      Simulates kMaxNumOrders ladders calls rest next
        (Reference.newOrder book o).1 ∧
      SameReports out (Reference.newOrder book o).2 := by
  obtain ⟨fresh, valid, positive, permitted⟩ := legal
  have arena := simulates.stocked.arena
  rw [orderCount_cons, show orderCredit (.newOrder o) = 1 from rfl] at arena
  have others : Function.update (shadowView st.orders) o.orderId none =
      book.lookup := by
    rw [← simulates.absent_of_fresh fresh, Function.update_eq_self,
      simulates.shadow]
  obtain ⟨next, qcid, m, limited, placed⟩ :=
    @limit_places core kMaxNumOrders ladders calls st book (submittedOrder o)
      correct simulates.stands others simulates.small fresh o.side o.quantity
      rfl positive permitted (by omega) o.sequenceNumber
  have made :
      limit st o.sequenceNumber o.orderId o.side o.quantity
          (prebuilt o.orderId o.side o.priceTicks o.quantity) =
        (next, qcid, m) := limited
  by_cases filled : (book.submit (sideOf o.side) (submittedOrder o) true
    fresh).left = 0
  · exact newOrder_filled simulates made placed filled
  · by_cases ioc : o.ioc = 0
    · exact newOrder_rests simulates made placed valid filled ioc
    · exact newOrder_cancelled simulates made placed correct filled ioc

/-- The slot of a resting order. -/
theorem Simulates.slot_of_lookup
    (simulates : Simulates kMaxNumOrders ladders calls rest st book)
    {id : UInt64} {side : Side} {o : Resting UInt64 Int64}
    (found : book.lookup id = some (side, o)) :
    ∃ s, findOrder st.orders id = some s ∧ s.alive = true ∧
      s.side = sideByte side ∧ s.price = o.price ∧
      Rests (ladders st.book) (s.qcid, encodeId id) := by
  have shown := found
  rw [← simulates.shadow, shadowView, Option.bind_eq_some_iff] at shown
  rcases shown with ⟨s, stored, shows⟩
  rw [shadowOrder] at shows
  split at shows
  · rename_i alive
    have parts := Prod.mk.inj (Option.some.inj shows)
    have valid := simulates.wired (handle s)
      (List.mem_map_of_mem (List.mem_iff_getElem?.mpr ⟨_, stored⟩))
    refine ⟨s, stored, alive, ?_, congrArg Resting.price parts.2, ?_⟩
    · rw [← parts.1]
      exact (sideByte_sideOf valid).symm
    · rcases simulates.stands.exists_right found with ⟨r, member, paired⟩
      rcases paired.id with ⟨other, linked, named⟩
      rw [(Book.lookup_eq_some_iff.mp found).2, stored] at linked
      cases linked
      exact ⟨side, r, member,
        named.trans (by rw [(Book.lookup_eq_some_iff.mp found).2])⟩
  · cases shows

/-- An identifier that does not rest has no live slot. -/
theorem Simulates.dead
    (simulates : Simulates kMaxNumOrders ladders calls rest st book)
    {id : UInt64} (absent : book.lookup id = none) {s : OrderState}
    (stored : findOrder st.orders id = some s) : ¬s.alive = true := by
  intro alive
  rw [← simulates.shadow, shadowView, stored, Option.bind_some, shadowOrder,
    if_pos alive] at absent
  cases absent

/-- Cancelling a resting order in the engine, under a link that still holds. -/
theorem Simulates.withdrawn
    (correct : core.Correct kMaxNumOrders ladders calls)
    (simulates : Simulates kMaxNumOrders ladders calls rest st book)
    {id : UInt64} {entry : Side × Resting UInt64 Int64}
    (found : book.lookup id = some entry) {s : OrderState}
    (stored : findOrder st.orders id = some s)
    (rests : Rests (ladders st.book) (s.qcid, encodeId id)) :
    StandsFor (Link st.orders) (ScaledTicks QcPrice 1) 1
        (ladders (core.cancel st.book s.qcid)) (book.withdraw id) ∧
      calls (core.cancel st.book s.qcid) = calls st.book := by
  have ⟨withdrawn, counted⟩ :=
    correct.cancel st.book s.qcid (encodeId id) rests
  refine ⟨?_, counted⟩
  rw [withdrawn]
  refine simulates.stands.withdrawn fun side o member r linked => ?_
  rcases linked with ⟨other, current, named⟩
  rw [named]
  constructor
  · rintro rfl
    rw [stored] at current
    cases current
    rfl
  · intro same
    exact encodeId_inj
      (simulates.small _ _ _ (Book.lookup_eq_some_iff.mpr ⟨member, rfl⟩))
      (simulates.small _ entry.1 entry.2 found) (Prod.mk.inj same).2

theorem cancel_simulates
    (correct : core.Correct kMaxNumOrders ladders calls) {c : Cancel}
    (simulates : Simulates kMaxNumOrders ladders calls (.cancel c :: rest) st
      book) :
    Simulates kMaxNumOrders ladders calls rest (engineOnCancel st c).1
        (Reference.cancel book c).1 ∧
      SameReports (engineOnCancel st c).2 (Reference.cancel book c).2 := by
  have later : Simulates kMaxNumOrders ladders calls rest st book :=
    { simulates with stocked := simulates.stocked.cancel rfl rfl }
  unfold engineOnCancel Reference.cancel
  cases found : book.lookup c.orderId with
  | none =>
      split
      · rename_i s stored
        rw [if_neg (simulates.dead found stored)]
        exact ⟨later, SameReports.refl _⟩
      · exact ⟨later, SameReports.refl _⟩
  | some entry =>
      rcases entry with ⟨side, o⟩
      rcases simulates.slot_of_lookup found with
        ⟨s, stored, alive, sided, price, rests⟩
      have ⟨stands, counted⟩ :=
        simulates.withdrawn correct found stored rests
      rw [stored]
      dsimp only
      rw [if_pos alive]
      refine ⟨?_, SameReports.singleton ⟨rfl, rfl, ?_⟩⟩
      · constructor
        · exact simulates.stocked.cancel counted (length_update _ _ _)
        · refine stands.relink fun s' o' member name linked => ?_
          refine linked.of_handle ?_
          rw [findOrder_update]
          split
          · rw [Option.map_map]
            rfl
          · rfl
        · dsimp only
          rw [shadowView_update, stored, Option.bind_some,
            Book.lookup_withdraw, simulates.shadow]
          rfl
        · exact simulates.small.withdraw c.orderId
        · exact simulates.wired.update fun _ valid => valid
      · rw [sided, price]
        rfl

/-- The state in which a modify places its replacement. -/
def replacing (st : State core) (s : OrderState) : State core :=
  { st with
    book := core.cancel st.book s.qcid
    preModifyIdx := st.preModifyIdx + 1 }

/-- What a modify writes over the slot of its order. -/
def replaced
    (m : Modify) (qcid : Nat) (takerLeft : UInt32) (s : OrderState) :
    OrderState :=
  if takerLeft > 0 then
    { price := m.newPriceTicks, qty := takerLeft, side := m.side
      alive := true, qcid := qcid }
  else
    { s with alive := false }

theorem shadowOrder_replaced
    {m : Modify} {qcid left : Nat} {takerLeft : UInt32}
    (same : takerLeft.toNat = left) (s : OrderState) :
    shadowOrder m.orderId (replaced m qcid takerLeft s) =
      if left ≠ 0 then
        some (sideOf m.side, { modifiedOrder m with qty := left })
      else
        none := by
  have ⟨_, leftIff⟩ := takerLeft_eq same
  unfold replaced
  by_cases unfilled : left ≠ 0
  · rw [if_pos unfilled, if_pos (leftIff.mpr unfilled), shadowOrder,
      if_pos rfl]
    exact congrArg _ (congrArg _ (congrArg _ same))
  · rw [if_neg unfilled, if_neg fun more => unfilled (leftIff.mp more)]
    rfl

section Modify

variable {m : Modify}
  (correct : core.Correct kMaxNumOrders ladders calls)
  (simulates : Simulates kMaxNumOrders ladders calls (.modify m :: rest) st
    book)

include simulates

/-- A modify that is rejected uses up its prebuilt replacement as well. -/
theorem modify_rejected (absent : book.lookup m.orderId = none) :
    ∃ next out, engineOnModify st m = some (next, out) ∧
      Simulates kMaxNumOrders ladders calls rest next
        (Reference.modify book m).1 ∧
      SameReports out (Reference.modify book m).2 := by
  have ⟨built, stocked⟩ := simulates.stocked.modify
  have later : Simulates kMaxNumOrders ladders calls rest
      { st with preModifyIdx := st.preModifyIdx + 1 } book :=
    { simulates with
      stocked := stocked st.book st.orders (Nat.le_succ _) rfl }
  unfold engineOnModify Reference.modify
  rw [built, absent]
  dsimp only
  split
  · rename_i s stored
    rw [if_neg (simulates.dead absent stored)]
    exact ⟨_, _, rfl, later, SameReports.refl _⟩
  · exact ⟨_, _, rfl, later, SameReports.refl _⟩

include correct

/-- The replacement is placed in the book without the order it replaces. -/
theorem modify_places
    {entry : Side × Resting UInt64 Int64}
    (found : book.lookup m.orderId = some entry) {s : OrderState}
    (stored : findOrder st.orders m.orderId = some s)
    (rests : Rests (ladders st.book) (s.qcid, encodeId m.orderId))
    (positive : 0 < m.newQuantity.toNat)
    (permitted : QcPrice m.newPriceTicks) :
    ∃ next qcid matched,
      limit (replacing st s) m.sequenceNumber m.orderId m.side m.newQuantity
          (prebuilt m.orderId m.side m.newPriceTicks m.newQuantity) =
        (next, qcid, matched) ∧
      Placed ladders calls (replacing st s) m.sequenceNumber (modifiedOrder m)
        (fun rests =>
          (book.withdraw m.orderId).submit (sideOf m.side) (modifiedOrder m)
            rests (book.lookup_withdraw_self m.orderId))
        next qcid matched := by
  have arena := simulates.stocked.arena
  rw [orderCount_cons, show orderCredit (.modify m) = 1 from rfl] at arena
  have ⟨stands, counted⟩ := simulates.withdrawn correct found stored rests
  have others : Function.update (shadowView st.orders) m.orderId none =
      (book.withdraw m.orderId).lookup := by
    rw [simulates.shadow, Book.lookup_withdraw]
  have room : calls (replacing st s).book + 1 < kMaxNumOrders := by
    rw [replacing, counted]
    omega
  exact @limit_places core kMaxNumOrders ladders calls (replacing st s)
    (book.withdraw m.orderId) (modifiedOrder m) correct stands others
    (simulates.small.withdraw m.orderId)
    (book.lookup_withdraw_self m.orderId) m.side m.newQuantity rfl positive
    permitted room m.sequenceNumber

/-- A modify of a resting order replaces it. -/
theorem modify_accepted
    (legal : Legal QcPrice book (.modify m)) {side : Side}
    {o : Resting UInt64 Int64}
    (found : book.lookup m.orderId = some (side, o)) :
    ∃ next out, engineOnModify st m = some (next, out) ∧
      Simulates kMaxNumOrders ladders calls rest next
        (Reference.modify book m).1 ∧
      SameReports out (Reference.modify book m).2 := by
  obtain ⟨valid, positive, permitted, own⟩ := legal
  have sided : side = sideOf m.side := by
    rw [own side o found, sideOf_sideByte]
  subst sided
  have ⟨built, stocked⟩ := simulates.stocked.modify
  rcases simulates.slot_of_lookup found with ⟨s, stored, alive, _, _, rests⟩
  have ⟨_, counted⟩ := simulates.withdrawn correct found stored rests
  have few : m.orderId.toNat < 2 ^ 32 := simulates.small _ _ _ found
  have slot : m.orderId.toNat < st.orders.length :=
    (List.getElem?_eq_some_iff.mp stored).1
  obtain ⟨next, qcid, matched, made, placed⟩ :=
    modify_places correct simulates found stored rests positive permitted
  have ⟨_, leftIff⟩ := takerLeft_eq placed.left
  have lengths := length_of_handles placed.inStep.handles
  have ⟨stands, shadow⟩ := placed.settled
    (replaced m qcid matched.takerLeft) slot
    (shadowOrder_replaced placed.left)
    (fun unfilled s => by rw [replaced, if_pos (leftIff.mpr unfilled)])
  unfold replacing at made
  unfold engineOnModify Reference.modify
  rw [built, found]
  dsimp only
  rw [stored]
  dsimp only
  rw [if_pos alive, if_pos permitted, made]
  dsimp only
  rw [placed.reports, sideByte_sideOf valid]
  refine ⟨_, _, rfl, ?_, SameReports.refl _⟩
  constructor
  · exact stocked next _ (by rw [placed.calls, replacing, counted])
      ((length_update _ _ _).trans lengths)
  · exact stands
  · exact shadow
  · exact @Book.All.submit _ _ _ _ _ _
      (simulates.small.withdraw m.orderId) (sideOf m.side) (modifiedOrder m)
      true (book.lookup_withdraw_self m.orderId) fun _ => few
  · refine (wired_of_handles simulates.wired
      placed.inStep.handles).update fun s wired => ?_
    split
    · exact valid
    · exact wired

end Modify

theorem modify_simulates
    (correct : core.Correct kMaxNumOrders ladders calls) {m : Modify}
    (simulates : Simulates kMaxNumOrders ladders calls (.modify m :: rest) st
      book)
    (legal : Legal QcPrice book (.modify m)) :
    ∃ next out, engineOnModify st m = some (next, out) ∧
      Simulates kMaxNumOrders ladders calls rest next
        (Reference.modify book m).1 ∧
      SameReports out (Reference.modify book m).2 := by
  cases found : book.lookup m.orderId with
  | none => exact modify_rejected simulates found
  | some entry => exact modify_accepted correct simulates legal found

/-- Every legal message keeps the simulation. -/
theorem step_forward
    (correct : core.Correct kMaxNumOrders ladders calls) :
    Forward QcPrice (@QuantCup.step core)
      (Simulates kMaxNumOrders ladders calls) := by
  intro m rest st book simulates legal
  cases m with
  | newOrder o => exact newOrder_simulates correct simulates legal
  | cancel c =>
      have ⟨kept, reports⟩ := cancel_simulates correct simulates
      exact ⟨_, _, rfl, kept, reports⟩
  | modify m => exact modify_simulates correct simulates legal

end Messages

/-! ## Queries -/

section Queries

variable {core : Core} {kMaxNumOrders : Nat}
  {ladders : core.State → Sides (Nat × Field) Nat} {calls : core.State → Nat}
  {rest : List Msg} {st : State core} {book : LiveBook}

theorem Simulates.bestBid_eq
    (simulates : Simulates kMaxNumOrders ladders calls rest st book) :
    engineQueryBestBid st = bestBid book :=
  queryBestBid_eq simulates.stocked.bounded simulates.wired simulates.shadow

theorem Simulates.bestAsk_eq
    (simulates : Simulates kMaxNumOrders ladders calls rest st book) :
    engineQueryBestAsk st = bestAsk book :=
  queryBestAsk_eq simulates.stocked.bounded simulates.wired simulates.shadow

theorem Simulates.depthAt_eq
    (simulates : Simulates kMaxNumOrders ladders calls rest st book)
    (price : Int64) {side : UInt8} (valid : side = 0 ∨ side = 1) :
    engineQueryDepthAt st price side = depthAt book price side := by
  rw [← sideByte_sideOf valid]
  exact queryDepthAt_eq simulates.stocked.bounded simulates.wired
    simulates.shadow price (sideOf side)

end Queries

/-! ## Prebuilding -/

section Prebuild

variable {core : Core} {kMaxNumOrders : Nat} {st next : State core}

/-- What passing messages to `engine_prebuild` does. -/
structure Prebuilt (msgs : List Msg) (st next : State core) : Prop where
  book : next.book = st.book
  pre : next.pre = st.pre ++ newsOf msgs
  preIdx : next.preIdx = st.preIdx
  preModify : next.preModify = st.preModify ++ modifiesOf msgs
  preModifyIdx : next.preModifyIdx = st.preModifyIdx
  limitCalls : next.limitCalls = st.limitCalls + orderCount msgs
  blank : (∀ s ∈ st.orders, s = OrderState.zero) →
    ∀ s ∈ next.orders, s = OrderState.zero
  grows : st.orders.length ≤ next.orders.length
  slots : ∀ o, Msg.newOrder o ∈ msgs → o.orderId + 1 ≠ 0 →
    o.orderId.toNat < next.orders.length
  bounded : NewIds (2 ^ 32) msgs → st.orders.length ≤ 2 ^ 33 →
    next.orders.length ≤ 2 ^ 33

theorem Prebuilt.nil (st : State core) : Prebuilt [] st st where
  book := rfl
  pre := (List.append_nil _).symm
  preIdx := rfl
  preModify := (List.append_nil _).symm
  preModifyIdx := rfl
  limitCalls := rfl
  blank := id
  grows := Nat.le_refl _
  slots _ member _ := absurd member List.not_mem_nil
  bounded _ := id

theorem newsOf_cons (m : Msg) (msgs : List Msg) :
    newsOf (m :: msgs) = newsOf [m] ++ newsOf msgs :=
  @List.filterMap_append _ _ [m] msgs _

theorem modifiesOf_cons (m : Msg) (msgs : List Msg) :
    modifiesOf (m :: msgs) = modifiesOf [m] ++ modifiesOf msgs :=
  @List.filterMap_append _ _ [m] msgs _

theorem Prebuilt.cons
    {m : Msg} {msgs : List Msg} {middle : State core}
    (first : Prebuilt [m] st middle) (later : Prebuilt msgs middle next) :
    Prebuilt (m :: msgs) st next where
  book := later.book.trans first.book
  pre := by
    rw [later.pre, first.pre, newsOf_cons m msgs, List.append_assoc]
  preIdx := later.preIdx.trans first.preIdx
  preModify := by
    rw [later.preModify, first.preModify, modifiesOf_cons m msgs,
      List.append_assoc]
  preModifyIdx := later.preModifyIdx.trans first.preModifyIdx
  limitCalls := by
    rw [later.limitCalls, first.limitCalls, orderCount_cons, orderCount_cons,
      orderCount_nil, Nat.add_zero, Nat.add_assoc]
  blank start := later.blank (first.blank start)
  grows := Nat.le_trans first.grows later.grows
  slots o member small := by
    rcases List.mem_cons.mp member with rfl | member
    · exact Nat.lt_of_lt_of_le (first.slots o List.mem_cons_self small)
        later.grows
    · exact later.slots o member small
  bounded ids start :=
    later.bounded ids.tail
      (first.bounded
        (fun o member => ids o (List.mem_singleton.mp member ▸
          List.mem_cons_self))
        start)

/-- The slots of a table that grows. -/
theorem blank_resize
    {orders : List OrderState} {size : Nat}
    (blank : ∀ s ∈ orders, s = OrderState.zero) :
    ∀ s ∈ resize orders size OrderState.zero, s = OrderState.zero := by
  intro s member
  rcases List.mem_append.mp member with old | new
  · exact blank s (List.mem_of_mem_take old)
  · exact List.eq_of_mem_replicate new

theorem checkQcArena_of_lt (room : st.limitCalls + 1 < kMaxNumOrders) :
    checkQcArena kMaxNumOrders st =
      some { st with limitCalls := st.limitCalls + 1 } :=
  if_neg (Nat.not_le.mpr room)

theorem enginePrebuild_prebuilt
    (m : Msg) (permitted : ∀ o, m = .newOrder o → QcPrice o.priceTicks)
    (room : orderCredit m = 0 ∨
      st.limitCalls + orderCredit m < kMaxNumOrders) :
    ∃ next, enginePrebuild kMaxNumOrders st m = some next ∧
      Prebuilt [m] st next := by
  cases m with
  | cancel c =>
      refine ⟨st, rfl, ?_⟩
      exact
        { Prebuilt.nil st with
          pre := (List.append_nil _).symm
          slots := fun o member => by simp at member
          bounded := fun _ => id }
  | modify m =>
      have within := room.resolve_left Nat.one_ne_zero
      rw [enginePrebuild, checkQcArena_of_lt within, Option.map_some]
      refine ⟨_, rfl, ?_⟩
      constructor
      · rfl
      · exact (List.append_nil _).symm
      · rfl
      · rfl
      · rfl
      · rfl
      · exact id
      · exact Nat.le_refl _
      · exact fun o member => by simp at member
      · exact fun _ => id
  | newOrder o =>
      have within := room.resolve_left Nat.one_ne_zero
      rw [enginePrebuild, if_pos (permitted o rfl),
        checkQcArena_of_lt within, Option.map_some]
      refine ⟨_, rfl, ?_⟩
      have slots := length_doubled st.orders o.orderId.toNat
        (o.orderId + 1).toNat OrderState.zero
      dsimp only at slots
      constructor
      · rfl
      · rfl
      · rfl
      · exact (List.append_nil _).symm
      · rfl
      · rfl
      · intro blank
        dsimp only
        split
        · exact blank_resize blank
        · exact blank
      · dsimp only
        omega
      · intro other member small
        cases List.mem_singleton.mp member
        have next := toNat_succ_id small
        dsimp only
        omega
      · intro ids start
        have few := ids o List.mem_cons_self
        have next := toNat_succ_id
          (succ_id_ne_zero (Nat.lt_of_lt_of_le few (by decide)))
        dsimp only
        omega

theorem prebuildAll_prebuilt
    {msgs : List Msg}
    (permitted : ∀ o, Msg.newOrder o ∈ msgs → QcPrice o.priceTicks)
    (room : st.limitCalls + orderCount msgs < kMaxNumOrders) :
    ∃ next, prebuildAll kMaxNumOrders st msgs = some next ∧
      Prebuilt msgs st next := by
  induction msgs generalizing st with
  | nil => exact ⟨st, rfl, Prebuilt.nil st⟩
  | cons m msgs induction =>
      rw [orderCount_cons] at room
      obtain ⟨middle, stepped, first⟩ :=
        @enginePrebuild_prebuilt core kMaxNumOrders st m
          (fun o same => permitted o (same ▸ List.mem_cons_self))
          (Or.inr (by omega))
      have counted := first.limitCalls
      rw [orderCount_cons, orderCount_nil] at counted
      obtain ⟨next, ran, later⟩ := @induction middle
        (fun o member => permitted o (List.mem_cons_of_mem _ member))
        (by omega)
      refine ⟨next, ?_, first.cons later⟩
      rw [prebuildAll, stepped, Option.bind_some, ran]

/--
Prebuilding a workload that fits the arena succeeds, and leaves an adapter that
stands for the empty book.
-/
theorem simulates_prebuilt
    {ladders : core.State → Sides (Nat × Field) Nat}
    {calls : core.State → Nat}
    (correct : core.Correct kMaxNumOrders ladders calls) {msgs : List Msg}
    (permitted : ∀ o, Msg.newOrder o ∈ msgs → QcPrice o.priceTicks)
    (ids : NewIds (2 ^ 32) msgs) (room : orderCount msgs < kMaxNumOrders) :
    ∃ st, prebuildAll kMaxNumOrders (engineInit core) msgs = some st ∧
      Simulates kMaxNumOrders ladders calls msgs st Book.empty := by
  obtain ⟨st, built, prebuilt⟩ :=
    @prebuildAll_prebuilt core kMaxNumOrders (engineInit core) msgs permitted
      ((Nat.zero_add _).symm ▸ room)
  have blank := prebuilt.blank (blank_resize fun s member => by cases member)
  have size : (engineInit core).orders.length = 2 ^ 21 := length_resize _ _ _
  have small := prebuilt.bounded ids (by rw [size]; decide)
  refine ⟨st, built, ?_⟩
  constructor
  · constructor
    · rw [prebuilt.preIdx, prebuilt.pre]
      rfl
    · rw [prebuilt.preModifyIdx, prebuilt.preModify]
      rfl
    · rw [prebuilt.book]
      exact correct.calls_init.symm ▸ (Nat.zero_add _).symm ▸ room
    · exact Nat.le_trans small (by decide)
    · exact fun o member => prebuilt.slots o member
        (succ_id_ne_zero (Nat.lt_of_lt_of_le (ids o member) (by decide)))
    · exact ids
  · rw [prebuilt.book]
    exact correct.ladders_init ▸ standsFor_empty _ _ _
  · funext id
    unfold shadowView
    cases stored : findOrder st.orders id with
    | none => rfl
    | some s =>
        rw [blank s (List.mem_iff_getElem?.mpr ⟨_, stored⟩)]
        rfl
  · exact Book.all_empty
  · intro h member
    rcases List.mem_map.mp member with ⟨s, inside, rfl⟩
    rw [blank s inside]
    exact Or.inl rfl

end Prebuild

end MatchingBench.Baselines.QuantCupRefinement
