import MatchingBench.Adapters
import MatchingBench.Baselines.Liquibook

/-!
# The Liquibook adapter refines the reference matcher

Every resting order is the one its harness identifier maps to, and the reverse
map leads back, also for orders that a modify has replaced.
-/

set_option autoImplicit false

namespace MatchingBench.Baselines.LiquibookRefinement

open MatchingBench.Api
open MatchingBench.Adapters
open MatchingBench.Lib.PriceTime
open MatchingBench.Lib.OrderBook
open MatchingBench.Lib.Correspondence
open MatchingBench.Lib.Ladders
open MatchingBench.Lib.Tables
open MatchingBench.Reference
open MatchingBench.Baselines.Liquibook

/-! ## The simulation -/

/-- A harness identifier and the engine's name of its current order. -/
def Link (orders : List (Option SimpleOrder)) (id : UInt64) (name : Nat) :
    Prop :=
  ∃ order, findOrder orders id = some order ∧ order.orderId = name

/-- The reverse map undoes the forward map. -/
def Registered
    (orders : List (Option SimpleOrder)) (lb2ext : List UInt64)
    (lastOrderId : Nat) : Prop :=
  ∀ id order, findOrder orders id = some order →
    order.orderId ≤ lastOrderId ∧ lb2ext[order.orderId]? = some id

/-- The current order of an identifier has this side and price. -/
def Echoed
    (allowed : Int64 → Prop) (orders : List (Option SimpleOrder))
    (id : UInt64) (side : Side) (price : Int64) : Prop :=
  ∃ order, findOrder orders id = some order ∧ order.bookSide = side ∧
    ScaledTicks allowed 1 price order.price

/-- The adapter's state stands for a reference book. -/
structure Simulates
    {core : Core} (allowed : Int64 → Prop)
    (ladders : core.State → Sides Nat Nat) (rest : List Msg)
    (st : State core) (book : LiveBook) : Prop where
  stands : StandsFor (Link st.orders) (ScaledTicks allowed 1) 1
    (ladders st.book) book
  registered : Registered st.orders st.lb2ext st.lastOrderId
  echoed : book.All (Echoed allowed st.orders)
  built : st.lastOrderId + orderCount rest < st.lb2ext.length
  slots : NewIds st.orders.length rest

section Refinement

variable {core : Core} {allowed : Int64 → Prop}
  {ladders : core.State → Sides Nat Nat} {rest : List Msg}
  {st : State core} {book : LiveBook}

/-- A name that rests belongs to a resting order. -/
theorem Simulates.link_of_rests
    (simulates : Simulates allowed ladders rest st book) {name : Nat}
    (rests : Rests (ladders st.book) name) :
    ∃ id entry, book.lookup id = some entry ∧ Link st.orders id name := by
  obtain ⟨side, r, member, rfl⟩ := rests
  obtain ⟨o, inside, paired⟩ := (simulates.stands side).exists_left member
  exact ⟨o.id, (side, o), Book.lookup_eq_some_iff.mpr ⟨inside, rfl⟩,
    paired.id⟩

/-- The order of a resting identifier. -/
theorem Simulates.order_of_lookup
    (simulates : Simulates allowed ladders rest st book)
    {id : UInt64} {side : Side} {o : Resting UInt64 Int64}
    (found : book.lookup id = some (side, o)) :
    ∃ order, findOrder st.orders id = some order ∧ order.bookSide = side ∧
      ScaledTicks allowed 1 o.price order.price ∧
      Rests (ladders st.book) order.orderId := by
  obtain ⟨order, stored, ownSide, ticks⟩ := simulates.echoed id side o found
  obtain ⟨r, member, paired⟩ := simulates.stands.exists_right found
  obtain ⟨other, linked, named⟩ := paired.id
  have here : o.id = id := (Book.lookup_eq_some_iff.mp found).2
  rw [here, stored] at linked
  cases linked
  exact ⟨order, stored, ownSide, ticks, side, r, member, named.symm⟩

/-- The order of an identifier that does not rest is dead. -/
theorem Simulates.dead
    (simulates : Simulates allowed ladders rest st book)
    {id : UInt64} (absent : book.lookup id = none) {order : SimpleOrder}
    (stored : findOrder st.orders id = some order) :
    ¬Rests (ladders st.book) order.orderId := by
  intro rests
  obtain ⟨other, entry, found, current, linked, named⟩ :=
    simulates.link_of_rests rests
  have reverse := (simulates.registered id order stored).2
  rw [← named, (simulates.registered other current linked).2] at reverse
  cases reverse
  rw [absent] at found
  cases found

theorem resting_iff
    (correct : core.Correct ladders) (order : SimpleOrder) :
    resting st order = true ↔ Rests (ladders st.book) order.orderId := by
  rw [← correct.resting, resting, Bool.and_eq_true, beq_iff_eq,
    decide_eq_true_eq]

/-- Cancelling a resting order withdraws it. -/
theorem Simulates.cancel
    (correct : core.Correct ladders)
    (simulates : Simulates allowed ladders rest st book)
    {id : UInt64} {order : SimpleOrder}
    (stored : findOrder st.orders id = some order)
    (rests : Rests (ladders st.book) order.orderId) :
    Simulates allowed ladders rest
      { st with book := core.cancel st.book order.orderId }
      (book.withdraw id) where
  stands := by
    rw [correct.cancel st.book order.orderId rests]
    refine simulates.stands.withdrawn fun side o _ r linked => ?_
    obtain ⟨current, linked, named⟩ := linked
    rw [← named]
    constructor
    · intro same
      rw [same, stored] at linked
      cases linked
      rfl
    · intro same
      have reverse := (simulates.registered o.id current linked).2
      rw [same, (simulates.registered id order stored).2] at reverse
      exact (Option.some.inj reverse).symm
  registered := simulates.registered
  echoed := simulates.echoed.withdraw id
  built := simulates.built
  slots := simulates.slots

end Refinement

/-! ## Registering an order -/

theorem findOrder_set
    {orders : List (Option SimpleOrder)} {extId : UInt64}
    (inside : extId.toNat < orders.length) (order : SimpleOrder)
    (id : UInt64) :
    findOrder (orders.set extId.toNat (some order)) id =
      if id = extId then some order else findOrder orders id := by
  unfold findOrder
  rw [getElem?_set inside]
  by_cases same : id = extId
  · subst same
    rw [if_pos rfl, if_pos rfl]
    rfl
  · rw [if_neg same, if_neg fun equal => same (UInt64.toNat_inj.mp equal)]

/-- A registered order has a new name, and the maps lead to it and back. -/
theorem registered_set
    {orders : List (Option SimpleOrder)} {lb2ext : List UInt64}
    {last : Nat} {extId : UInt64} {order : SimpleOrder}
    (registered : Registered orders lb2ext last)
    (named : order.orderId = last + 1)
    (room : order.orderId < lb2ext.length)
    (slot : extId.toNat < orders.length) :
    Registered (orders.set extId.toNat (some order))
      (lb2ext.set order.orderId extId) order.orderId := by
  intro id other stored
  rw [findOrder_set slot] at stored
  by_cases same : id = extId
  · subst same
    rw [if_pos rfl] at stored
    cases stored
    exact ⟨Nat.le_refl _, by rw [getElem?_set room, if_pos rfl]⟩
  · rw [if_neg same] at stored
    have ⟨below, reverse⟩ := registered id other stored
    refine ⟨by omega, ?_⟩
    rw [getElem?_set room, if_neg (by omega), reverse]

/-! ## Placing an order -/

/-- `lb::Price` holds every allowed price. -/
def Fits (allowed : Int64 → Prop) : Prop :=
  ∀ price, allowed price → 1 ≤ price.toInt ∧ price.toInt < 2 ^ 18

theorem castPrice_ticks
    {allowed : Int64 → Prop} (fits : Fits allowed) {bits : Nat}
    (wide : 18 ≤ bits) {price : Int64} (permitted : allowed price) :
    ScaledTicks allowed 1 price (castPrice bits price) := by
  have ⟨low, high⟩ := fits price permitted
  have power : (2 : Int) ^ 18 ≤ 2 ^ bits := by
    exact_mod_cast Nat.pow_le_pow_right (by decide : 0 < 2) wide
  refine ⟨permitted, ?_⟩
  rw [castPrice, Int.emod_eq_of_lt (by omega) (by omega),
    Int.toNat_of_nonneg (by omega)]
  exact (Int.one_mul _).symm

/-- The listener's calls for fills that stand for reference fills. -/
theorem foldlM_onFill
    {allowed : Int64 → Prop} {link : UInt64 → Nat → Prop}
    {lb2ext : List UInt64} {order : SimpleOrder} {takerId : UInt64}
    (seq : UInt64) {fills : List (Fill UInt64 Int64)}
    {others : List (Fill Nat Nat)}
    (alike : List.Forall₂ (AlikeFill link (ScaledTicks allowed 1) 1) fills
      others)
    (makers : ∀ id name, link id name → lb2ext[name]? = some id)
    (taker : lb2ext[order.orderId]? = some takerId) (l : Listening) :
    (others.map (onFillOf order)).foldlM (onFill lb2ext seq) l =
      some
        { filled := l.filled + (fills.map Fill.qty).sum
          reports := l.reports ++ fills.map (tradeReport seq takerId) } := by
  induction alike generalizing l with
  | nil => simp
  | @cons fill other fills others head _ induction =>
      have quantity : other.qty = fill.qty :=
        head.qty.trans (Nat.one_mul _)
      have called :
          onFill lb2ext seq l (onFillOf order other) =
            some
              { filled := l.filled + fill.qty
                reports := l.reports ++ [tradeReport seq takerId fill] } := by
        simp only [onFill, onFillOf, makers _ _ head.maker.id, taker,
          Option.bind_some, Option.map_some, quantity, tradeReport,
          ofNat_of_ticks head.maker.price]
      rw [List.map_cons, List.foldlM_cons, called, Option.bind_eq_bind,
        Option.bind_some, induction]
      simp [Nat.add_assoc]

section Refinement

variable {core : Core} {allowed : Int64 → Prop}
  {ladders : core.State → Sides Nat Nat} {rest : List Msg}
  {st : State core} {book : LiveBook}

/-- The order `register` constructs. -/
def constructed
    (st : State core) (isBuy : Bool) (price : Int64) (qty : UInt32) :
    SimpleOrder where
  orderId := st.lastOrderId + 1
  isBuy := isBuy
  price := castPrice core.priceBits price
  qty := qty.toNat

/-- `register` succeeds with room in both tables. -/
theorem register_eq
    {extId : UInt64} {isBuy : Bool} {price : Int64} {qty : UInt32}
    (room : st.lastOrderId + 1 < st.lb2ext.length)
    (slot : extId.toNat < st.orders.length) :
    register st extId isBuy price qty =
      some
        ({ st with
            lastOrderId := st.lastOrderId + 1
            lb2ext := st.lb2ext.set (st.lastOrderId + 1) extId
            orders := st.orders.set extId.toNat
              (some (constructed st isBuy price qty)) },
          constructed st isBuy price qty) := by
  simp only [register, store_of_lt room, store_of_lt slot, Option.bind_some,
    Option.map_some]
  rfl

/-- A registered order that is about to be added. -/
structure Ready
    (allowed : Int64 → Prop) (ladders : core.State → Sides Nat Nat)
    (rest : List Msg) (st : State core) (book : LiveBook)
    (order : Resting UInt64 Int64) (side : Side) (native : SimpleOrder) :
    Prop extends Simulates allowed ladders rest st book where
  current : findOrder st.orders order.id = some native
  sided : native.bookSide = side
  ticks : ScaledTicks allowed 1 order.price native.price
  quantity : native.qty = order.qty
  unused : ¬Rests (ladders st.book) native.orderId

/-- Registering an order whose identifier does not rest. -/
theorem Simulates.register
    (correct : core.Correct ladders) (fits : Fits allowed) {m : Msg}
    (simulates : Simulates allowed ladders (m :: rest) st book)
    (makes : orderCredit m = 1) {order : Resting UInt64 Int64}
    (fresh : book.lookup order.id = none) {qty : UInt32}
    (quantity : order.qty = qty.toNat) (permitted : allowed order.price)
    (slot : order.id.toNat < st.orders.length) (isBuy : Bool) :
    ∃ next native,
      Liquibook.register st order.id isBuy order.price qty =
          some (next, native) ∧
        Ready allowed ladders rest next book order
          (if isBuy then .buy else .sell) native := by
  have built := simulates.built
  rw [orderCount_cons, makes] at built
  have room : st.lastOrderId + 1 < st.lb2ext.length := by omega
  have kept {id : UInt64} {entry : Side × Resting UInt64 Int64}
      (found : book.lookup id = some entry) (native : SimpleOrder) :
      findOrder (st.orders.set order.id.toNat (some native)) id =
        findOrder st.orders id := by
    rw [findOrder_set slot, if_neg]
    rintro rfl
    rw [fresh] at found
    cases found
  refine ⟨_, _, register_eq room slot, ?_⟩
  constructor
  · constructor
    · refine simulates.stands.relink fun s o member name linked => ?_
      rw [Link, kept (Book.lookup_eq_some_iff.mpr ⟨member, rfl⟩)]
      exact linked
    · exact registered_set simulates.registered rfl room slot
    · refine simulates.echoed.mono fun id s o found echoed => ?_
      rw [Echoed, kept found]
      exact echoed
    · simp only [List.length_set]
      omega
    · rw [List.length_set]
      exact simulates.slots.tail
  · rw [findOrder_set slot, if_pos rfl]
  · rfl
  · exact castPrice_ticks fits correct.bits permitted
  · exact quantity.symm
  · intro rests
    obtain ⟨id, entry, _, other, stored, named⟩ :=
      simulates.link_of_rests rests
    have below := (simulates.registered id other stored).1
    rw [named] at below
    exact absurd below (Nat.not_succ_le_self _)

/--
Adding a registered order submits it: the listener pushes the reference trades
and counts what was filled.
-/
theorem Ready.add
    (correct : core.Correct ladders) (fits : Fits allowed)
    {order : Resting UInt64 Int64} {side : Side} {native : SimpleOrder}
    (ready : Ready allowed ladders rest st book order side native)
    (fresh : book.lookup order.id = none) (positive : 0 < order.qty)
    (seq : UInt64) (ioc : Bool) :
    let submitted := book.submit side order (!ioc) fresh
    ∃ next,
      Liquibook.add st seq native ioc =
          some (next,
            { filled := (submitted.fills.map Fill.qty).sum
              reports := submitted.fills.map (tradeReport seq order.id) }) ∧
        Simulates allowed ladders rest next submitted.book := by
  have cheap : 0 < native.price := by
    have low := (fits order.price ready.ticks.1).1
    have equal := ready.ticks.2
    omega
  have some_ : 0 < native.qty := ready.quantity.symm ▸ positive
  have ⟨after, calls⟩ :=
    correct.add st.book native ioc ready.unused some_ cheap
  rw [ready.sided] at after calls
  have compatible := @scaledTicks_compatible allowed 1 Nat.one_pos
  have paired :
      Alike (Link st.orders) (ScaledTicks allowed 1) 1 order
        native.resting :=
    ⟨⟨native, ready.current, rfl⟩, ready.ticks,
      ready.quantity.trans (Nat.one_mul _).symm⟩
  have ⟨fills, _, _⟩ := @StandsFor.cross _ _ _ _ _ _ _ _ _ _ _ _
    ready.stands compatible Nat.one_pos side order fresh native.price
    ready.ticks
  rw [Nat.one_mul, ← ready.quantity] at fills
  have heard := foldlM_onFill seq fills
    (fun id name linked => by
      obtain ⟨other, stored, rfl⟩ := linked
      exact (ready.registered id other stored).2)
    (ready.registered order.id native ready.current).2
    { filled := 0, reports := [] }
  refine ⟨{ st with book := (core.add st.book native ioc).1 }, ?_, ?_⟩
  · rw [Liquibook.add]
    dsimp only
    rw [calls, heard, Option.map_some, Nat.zero_add, List.nil_append]
    rfl
  · constructor
    · dsimp only
      rw [after]
      exact ready.stands.submitted compatible Nat.one_pos paired
    · exact ready.registered
    · exact ready.echoed.submit fun _ =>
        ⟨native, ready.current, ready.sided, ready.ticks⟩
    · exact ready.built
    · exact ready.slots

/-! ## Messages -/

theorem newOrder_simulates
    (correct : core.Correct ladders) (fits : Fits allowed) {o : NewOrder}
    (simulates : Simulates allowed ladders (.newOrder o :: rest) st book)
    (legal : Legal allowed book (.newOrder o)) :
    ∃ next out, engineOnNewOrder st o = some (next, out) ∧
      Simulates allowed ladders rest next (Reference.newOrder book o).1 ∧
      SameReports out (Reference.newOrder book o).2 := by
  obtain ⟨fresh, _, positive, permitted⟩ := legal
  obtain ⟨registered, native, made, ready⟩ :=
    simulates.register correct fits rfl fresh
      (show (submittedOrder o).qty = o.quantity.toNat from rfl) permitted
      (simulates.slots o List.mem_cons_self) (o.side == 0)
  have sided :
      (if (o.side == 0) = true then Side.buy else Side.sell) =
        sideOf o.side := by
    simp [sideOf]
  rw [sided] at ready
  obtain ⟨next, added, kept⟩ :=
    ready.add correct fits fresh positive o.sequenceNumber
      (decide (o.ioc ≠ 0))
  have rests : (!decide (o.ioc ≠ 0)) = decide (o.ioc = 0) := by
    simp
  rw [rests] at added kept
  have conserved := book.submit_conserves (sideOf o.side) (submittedOrder o)
    (o.ioc = 0) fresh
  have created :
      Liquibook.register st o.orderId (o.side == 0) o.priceTicks
        o.quantity = some (registered, native) := made
  refine ⟨next, (Reference.newOrder book o).2, ?_, ?_, SameReports.refl _⟩
  · simp only [engineOnNewOrder, created, Option.bind_some, added,
      Option.map_some, Reference.newOrder, dif_pos fresh]
    have whole : (submittedOrder o).qty = o.quantity.toNat := rfl
    have dropped :
        o.quantity.toNat -
            ((book.submit (sideOf o.side) (submittedOrder o) (o.ioc = 0)
              fresh).fills.map Fill.qty).sum =
          (book.submit (sideOf o.side) (submittedOrder o) (o.ioc = 0)
            fresh).left := by
      omega
    have short :
        ((book.submit (sideOf o.side) (submittedOrder o) (o.ioc = 0)
              fresh).fills.map Fill.qty).sum < o.quantity.toNat ↔
          (book.submit (sideOf o.side) (submittedOrder o) (o.ioc = 0)
            fresh).left ≠ 0 := by
      omega
    rw [dropped]
    simp only [short, decide_eq_true_eq]
    rfl
  · rw [Reference.newOrder, dif_pos fresh]
    exact kept

theorem cancel_simulates
    (correct : core.Correct ladders) {c : Cancel}
    (simulates : Simulates allowed ladders (.cancel c :: rest) st book) :
    Simulates allowed ladders rest (engineOnCancel st c).1
        (Reference.cancel book c).1 ∧
      SameReports (engineOnCancel st c).2 (Reference.cancel book c).2 := by
  have later : Simulates allowed ladders rest st book :=
    { simulates with
      built := by simpa [orderCredit] using simulates.built
      slots := simulates.slots.tail }
  unfold engineOnCancel Reference.cancel
  cases found : book.lookup c.orderId with
  | none =>
      split
      · rename_i order stored
        rw [if_neg fun alive =>
          simulates.dead found stored ((resting_iff correct order).mp alive)]
        exact ⟨later, SameReports.refl _⟩
      · exact ⟨later, SameReports.refl _⟩
  | some entry =>
      obtain ⟨side, o⟩ := entry
      obtain ⟨order, stored, ownSide, ticks, rests⟩ :=
        simulates.order_of_lookup found
      rw [stored]
      dsimp only
      rw [if_pos ((resting_iff correct order).mpr rests)]
      refine ⟨later.cancel correct stored rests,
        SameReports.singleton ⟨rfl, rfl, ?_⟩⟩
      have echo : (if order.isBuy then 0 else 1) = sideByte side := by
        rw [← ownSide, SimpleOrder.bookSide]
        split <;> rfl
      rw [echo, ofNat_of_ticks ticks]
      rfl

theorem modify_simulates
    (correct : core.Correct ladders) (fits : Fits allowed) {m : Modify}
    (simulates : Simulates allowed ladders (.modify m :: rest) st book)
    (legal : Legal allowed book (.modify m)) :
    ∃ next out, engineOnModify st m = some (next, out) ∧
      Simulates allowed ladders rest next (Reference.modify book m).1 ∧
      SameReports out (Reference.modify book m).2 := by
  have built := simulates.built
  rw [orderCount_cons] at built
  have later : Simulates allowed ladders rest st book :=
    { simulates with
      built := by omega
      slots := simulates.slots.tail }
  unfold engineOnModify Reference.modify
  cases found : book.lookup m.orderId with
  | none =>
      split
      · rename_i order stored
        rw [if_neg fun alive =>
          simulates.dead found stored ((resting_iff correct order).mp alive)]
        exact ⟨st, _, rfl, later, SameReports.refl _⟩
      · exact ⟨st, _, rfl, later, SameReports.refl _⟩
  | some entry =>
      obtain ⟨side, o⟩ := entry
      obtain ⟨_, positive, permitted, own⟩ := legal
      have sameSide := own side o found
      obtain ⟨order, stored, _, _, rests⟩ := simulates.order_of_lookup found
      have cancelled := simulates.cancel correct stored rests
      have slot : m.orderId.toNat < st.orders.length := by
        by_contra beyond
        rw [findOrder, List.getElem?_eq_none (Nat.le_of_not_lt beyond)]
          at stored
        cases stored
      have fresh := book.lookup_withdraw_self m.orderId
      obtain ⟨registered, native, made, ready⟩ :=
        cancelled.register correct fits rfl fresh
          (show (modifiedOrder m).qty = m.newQuantity.toNat from rfl)
          permitted slot (m.side == 0)
      have sided :
          (if (m.side == 0) = true then Side.buy else Side.sell) = side := by
        rw [sameSide]
        cases side <;> rfl
      rw [sided] at ready
      obtain ⟨next, added, kept⟩ :=
        ready.add correct fits fresh positive m.sequenceNumber false
      rw [stored]
      dsimp only
      rw [if_pos ((resting_iff correct order).mpr rests)]
      refine ⟨next, _, ?_, kept, SameReports.refl _⟩
      have created :
          Liquibook.register
              { st with book := core.cancel st.book order.orderId }
              m.orderId (m.side == 0) m.newPriceTicks m.newQuantity =
            some (registered, native) := made
      simp only [created, Option.bind_some, added, Option.map_some]
      rw [sameSide]
      rfl

/-- Every legal message keeps the simulation. -/
theorem step_forward (correct : core.Correct ladders) (fits : Fits allowed) :
    Forward allowed (@Liquibook.step core) (Simulates allowed ladders) := by
  intro m rest st book simulates legal
  cases m with
  | newOrder o => exact newOrder_simulates correct fits simulates legal
  | cancel c =>
      have ⟨kept, reports⟩ := cancel_simulates correct simulates
      exact ⟨_, _, rfl, kept, reports⟩
  | modify m => exact modify_simulates correct fits simulates legal

/-! ## Queries -/

theorem queryBestBid_eq
    (correct : core.Correct ladders)
    (simulates : Simulates allowed ladders rest st book) :
    engineQueryBestBid st = bestBid book := by
  have best := best_of_alike (simulates.stands .buy)
    (fun _ _ ticks => ofNat_of_ticks ticks) int64Min
  unfold engineQueryBestBid
  rw [correct.bids, bestBid, Book.best, ← best]
  cases ladders st.book .buy <;> rfl

theorem queryBestAsk_eq
    (correct : core.Correct ladders)
    (simulates : Simulates allowed ladders rest st book) :
    engineQueryBestAsk st = bestAsk book := by
  have best := best_of_alike (simulates.stands .sell)
    (fun _ _ ticks => ofNat_of_ticks ticks) int64Max
  unfold engineQueryBestAsk
  rw [correct.asks, bestAsk, Book.best, ← best]
  cases ladders st.book .sell <;> rfl

/-- Prices that `lb::Price` tells apart: all of them if it has 64 bits. -/
def Representable (bits : Nat) (price : Int64) : Prop :=
  bits = 64 ∨ (0 ≤ price.toInt ∧ price.toInt < 2 ^ bits)

theorem castPrice_eq_iff
    (fits : Fits allowed) {bits : Nat} {price queried : Int64} {native : Nat}
    (representable : Representable bits queried)
    (ticks : ScaledTicks allowed 1 price native) :
    price = queried ↔ native = castPrice bits queried := by
  have ⟨low, high⟩ := fits price ticks.1
  have equal : (native : Int) = price.toInt :=
    ticks.2.trans (Int.one_mul _)
  have cast : price.toInt = queried.toInt ↔
      (native : Int) = castPrice bits queried := by
    rw [castPrice]
    rcases representable with rfl | ⟨nonneg, small⟩
    · have least := queried.le_toInt
      have most := queried.toInt_lt
      omega
    · rw [Int.emod_eq_of_lt nonneg small, Int.toNat_of_nonneg nonneg, equal]
  rw [← Int64.toInt_inj, cast, Int.ofNat_inj]

theorem queryDepthAt_eq
    (correct : core.Correct ladders) (fits : Fits allowed)
    (simulates : Simulates allowed ladders rest st book) {price : Int64}
    (representable : Representable core.priceBits price) (side : UInt8) :
    engineQueryDepthAt st price side = depthAt book price side := by
  have trackers :
      (if side = 0 then core.bids st.book else core.asks st.book) =
        (ladders st.book (sideOf side)).map trackerOf := by
    unfold sideOf
    split
    · exact correct.bids st.book
    · exact correct.asks st.book
  have total := depth_of_alike (simulates.stands (sideOf side))
    fun o r paired =>
      (castPrice_eq_iff fits representable paired.price).trans
        (decide_eq_true_iff).symm
  unfold engineQueryDepthAt
  dsimp only
  rw [trackers, foldl_add_ofNat, UInt64.zero_add, List.filter_map,
    List.map_map, depthAt, Book.depth]
  rw [Nat.one_mul] at total
  rw [← total]
  rfl

end Refinement

/-! ## Prebuilding -/

section Prebuild

variable {core : Core} {st next : State core}

/-- What passing messages to `engine_prebuild` does: it makes room for them. -/
structure Prebuilt (msgs : List Msg) (st next : State core) : Prop where
  book : next.book = st.book
  lastOrderId : next.lastOrderId = st.lastOrderId
  found : ∀ id, findOrder next.orders id = findOrder st.orders id
  grows : st.orders.length ≤ next.orders.length
  slots : ∀ o, Msg.newOrder o ∈ msgs → o.orderId + 1 ≠ 0 →
    o.orderId.toNat < next.orders.length
  counted : next.lbBuilt = st.lbBuilt + orderCount msgs
  room : st.lbBuilt < st.lb2ext.length → next.lbBuilt < next.lb2ext.length

theorem Prebuilt.nil (st : State core) : Prebuilt [] st st where
  book := rfl
  lastOrderId := rfl
  found _ := rfl
  grows := Nat.le_refl _
  slots _ member _ := absurd member List.not_mem_nil
  counted := rfl
  room := id

theorem Prebuilt.cons
    {m : Msg} {msgs : List Msg} {middle : State core}
    (first : Prebuilt [m] st middle) (later : Prebuilt msgs middle next) :
    Prebuilt (m :: msgs) st next where
  book := later.book.trans first.book
  lastOrderId := later.lastOrderId.trans first.lastOrderId
  found id := (later.found id).trans (first.found id)
  grows := Nat.le_trans first.grows later.grows
  slots o member small := by
    rcases List.mem_cons.mp member with rfl | member
    · exact Nat.lt_of_lt_of_le (first.slots o List.mem_cons_self small)
        later.grows
    · exact later.slots o member small
  counted := by
    rw [later.counted, first.counted, orderCount_cons, orderCount_cons,
      orderCount_nil, Nat.add_zero, Nat.add_assoc]
  room start := later.room (first.room start)

/-- A forward map that grows answers as before. -/
theorem findOrder_resize
    {orders : List (Option SimpleOrder)} {size : Nat}
    (grows : orders.length ≤ size) (id : UInt64) :
    findOrder (resize orders size none) id = findOrder orders id := by
  unfold findOrder
  rw [getElem?_resize grows]
  split
  · rfl
  · rename_i beyond
    rw [List.getElem?_eq_none (Nat.le_of_not_lt beyond)]
    split <;> rfl

theorem enginePrebuild_prebuilt (st : State core) (m : Msg) :
    Prebuilt [m] st (enginePrebuild st m) := by
  cases m with
  | cancel c =>
      exact
        { Prebuilt.nil st with
          slots := fun o member => by simp at member }
  | modify m =>
      constructor
      · rfl
      · rfl
      · exact fun _ => rfl
      · exact Nat.le_refl _
      · exact fun o member => by simp at member
      · rfl
      · intro _
        have labels := length_doubled st.lb2ext (st.lbBuilt + 1)
          (st.lbBuilt + 1 + 1) 0
        dsimp only [enginePrebuild] at labels ⊢
        omega
  | newOrder o =>
      have slots := length_doubled st.orders o.orderId.toNat
        (o.orderId + 1).toNat none
      constructor
      · rfl
      · rfl
      · intro id
        dsimp only [enginePrebuild]
        split
        · exact findOrder_resize (by omega) id
        · rfl
      · dsimp only [enginePrebuild] at slots ⊢
        omega
      · intro other member small
        cases List.mem_singleton.mp member
        have next := toNat_succ_id small
        dsimp only [enginePrebuild] at slots ⊢
        omega
      · rfl
      · intro _
        have labels := length_doubled st.lb2ext (st.lbBuilt + 1)
          (st.lbBuilt + 1 + 1) 0
        dsimp only [enginePrebuild] at labels ⊢
        omega

theorem prebuildAll_prebuilt (msgs : List Msg) (st : State core) :
    Prebuilt msgs st (prebuildAll st msgs) := by
  induction msgs generalizing st with
  | nil => exact Prebuilt.nil st
  | cons m msgs induction =>
      exact (enginePrebuild_prebuilt st m).cons
        (induction (enginePrebuild st m))

/-- A prebuilt adapter stands for the empty book, with room for all messages. -/
theorem simulates_prebuilt
    {allowed : Int64 → Prop} {ladders : core.State → Sides Nat Nat}
    (correct : core.Correct ladders) {msgs : List Msg}
    (ids : NewIds (2 ^ 64 - 1) msgs) :
    Simulates allowed ladders msgs (prebuildAll (engineInit core) msgs)
      Book.empty := by
  have prebuilt := prebuildAll_prebuilt msgs (engineInit core)
  have nothing (id : UInt64) :
      findOrder (prebuildAll (engineInit core) msgs).orders id = none := by
    rw [prebuilt.found]
    exact findOrder_resize (Nat.zero_le _) id
  constructor
  · rw [prebuilt.book]
    exact correct.ladders_init ▸ standsFor_empty _ _ _
  · intro id order stored
    rw [nothing] at stored
    cases stored
  · exact Book.all_empty
  · have room := prebuilt.room (by
      show 0 < (resize ([] : List UInt64) (2 ^ 21) 0).length
      rw [length_resize]
      decide)
    rw [prebuilt.counted] at room
    rw [prebuilt.lastOrderId]
    exact room
  · exact fun o member =>
      prebuilt.slots o member (succ_id_ne_zero (ids o member))

end Prebuild

end MatchingBench.Baselines.LiquibookRefinement
