import MatchingBench.Baselines.LadderCores
import MatchingBench.Baselines.LiquibookRefinement

/-!
# The identifier tables of the Liquibook adapter

What a handler of the adapter touches: the order table, the table from the
engine's identifiers back to the harness's, the orders it constructs and the
identifiers it reports.  Prebuilding counts the orders a workload can make at
most, so the second table has a slot for every one of them.  The order table
has one for every new order but one with the largest identifier: the slots
needed are computed as the identifier plus one, which is zero there.
-/

set_option autoImplicit false

namespace MatchingBench.Baselines.LiquibookTables

open MatchingBench.Adapters
open MatchingBench.Api
open MatchingBench.Lib.PriceTime
open MatchingBench.Lib.Ladders
open MatchingBench.Lib.Runs
open MatchingBench.Lib.Tables
open MatchingBench.Baselines.LadderCores (largestOrder)
open MatchingBench.Baselines.Liquibook
open MatchingBench.Baselines.LiquibookRefinement

/-! ## What a handler touches -/

/--
An access to `g_orders` or `g_lb2ext`, the construction of a `SimpleOrder`,
and an identifier that a fill reports with the table's entry for it.
-/
inductive Event where
  | orders (index size : Nat)
  | lb2ext (index size : Nat)
  | made (orderId : Nat)
  | label (orderId : Nat) (extId : Option UInt64)
deriving DecidableEq, Repr

/-- An access is within its table. -/
def Event.InBounds : Event → Prop
  | orders index size => index < size
  | lb2ext index size => index < size
  | made _ => True
  | label _ _ => True

/-- The order an event constructs. -/
def Event.madeId : Event → Option Nat
  | made orderId => some orderId
  | _ => none

section Events

variable {core : Core}

/-- `find_order` touches the table when the identifier is within it. -/
def findEvents (orders : List (Option SimpleOrder)) (extId : UInt64) :
    List Event :=
  checkedLoad .orders orders extId.toNat

/-- `make_order`, `map_lb_id` and the store of the forward map. -/
def registerEvents (st : State core) (extId : UInt64) : List Event :=
  [.made (st.lastOrderId + 1),
    .lb2ext (st.lastOrderId + 1) st.lb2ext.length,
    .orders extId.toNat st.orders.length]

/-- The loads of `Listener::on_fill`. -/
def fillEvents (lb2ext : List UInt64) (fills : List OnFill) : List Event :=
  fills.flatMap fun fill =>
    [.lb2ext fill.maker lb2ext.length, .label fill.maker lb2ext[fill.maker]?,
      .lb2ext fill.taker lb2ext.length, .label fill.taker lb2ext[fill.taker]?]

/-- An order that is registered and then added. -/
def submitEvents
    (st : State core) (extId : UInt64) (isBuy : Bool) (price : Int64)
    (qty : UInt32) (ioc : Bool) : List Event :=
  registerEvents st extId ++
    match register st extId isBuy price qty with
    | none => []
    | some (next, order) =>
        fillEvents next.lb2ext (core.add next.book order ioc).2

/-- What the dispatch of a message touches. -/
def events (st : State core) : Msg → List Event
  | .newOrder o =>
      submitEvents st o.orderId (o.side == 0) o.priceTicks o.quantity
        (decide (o.ioc ≠ 0))
  | .cancel c => findEvents st.orders c.orderId
  | .modify m =>
      findEvents st.orders m.orderId ++
        match findOrder st.orders m.orderId with
        | none => []
        | some cur =>
            if resting st cur then
              submitEvents
                { st with book := core.cancel st.book cur.orderId } m.orderId
                (m.side == 0) m.newPriceTicks m.newQuantity false
            else
              []

end Events

/-! ## The engine's orders -/

/--
The engine holds and reports orders it was given: it has pointers to no other
`SimpleOrder`.
-/
structure KeepsOrders (core : Core) (given : core.State → Nat → Prop) :
    Prop where
  init : ∀ id, ¬given core.init id
  add : ∀ st order ioc id, given (core.add st order ioc).1 id →
    id = order.orderId ∨ given st id
  fills : ∀ st order ioc, ∀ fill ∈ (core.add st order ioc).2,
    (fill.maker = order.orderId ∨ given st fill.maker) ∧
      (fill.taker = order.orderId ∨ given st fill.taker)
  cancel : ∀ st orderId id, given (core.cancel st orderId) id → given st id

/-! ## Where a step stops -/

/-- One of the accesses is outside its table. -/
def Overruns (seen : List Event) : Prop :=
  ∃ event ∈ seen, ¬event.InBounds

theorem not_overruns_nil : ¬Overruns [] := by
  rintro ⟨event, member, _⟩
  cases member

theorem overruns_cons {event : Event} {seen : List Event} :
    Overruns (event :: seen) ↔ ¬event.InBounds ∨ Overruns seen :=
  List.exists_mem_cons_iff _ _ _

theorem overruns_append {seen later : List Event} :
    Overruns (seen ++ later) ↔ Overruns seen ∨ Overruns later := by
  simp only [Overruns, List.mem_append, or_and_right, exists_or]

section Stops

variable {core : Core} {st next : State core}

theorem not_overruns_findEvents
    (orders : List (Option SimpleOrder)) (extId : UInt64) :
    ¬Overruns (findEvents orders extId) := by
  rintro ⟨event, member, outside⟩
  rcases mem_checkedLoad.mp member with ⟨inside, rfl⟩
  exact outside inside

theorem onFill_eq_none
    (lb2ext : List UInt64) (seq : UInt64) (l : Listening) (fill : OnFill) :
    onFill lb2ext seq l fill = none ↔
      ¬fill.maker < lb2ext.length ∨ ¬fill.taker < lb2ext.length := by
  unfold onFill
  rw [Option.bind_eq_none_iff]
  by_cases maker : fill.maker < lb2ext.length
  · rw [List.getElem?_eq_getElem maker, or_iff_right (not_not_intro maker)]
    by_cases taker : fill.taker < lb2ext.length
    · rw [List.getElem?_eq_getElem taker]
      refine iff_of_false (fun all => ?_) (not_not_intro taker)
      cases all _ rfl
    · rw [List.getElem?_eq_none (Nat.le_of_not_lt taker)]
      exact iff_of_true (fun _ _ => rfl) taker
  · rw [List.getElem?_eq_none (Nat.le_of_not_lt maker)]
    exact iff_of_true (fun _ found => by cases found) (Or.inl maker)

/-- The listener stops exactly at a load past the end of the table. -/
theorem foldlM_onFill_eq_none
    (lb2ext : List UInt64) (seq : UInt64) (fills : List OnFill)
    (l : Listening) :
    fills.foldlM (onFill lb2ext seq) l = none ↔
      Overruns (fillEvents lb2ext fills) := by
  induction fills generalizing l with
  | nil => exact iff_of_false (fun ran => by cases ran) not_overruns_nil
  | cons fill fills induction =>
      have own : Overruns
            [.lb2ext fill.maker lb2ext.length,
              .label fill.maker lb2ext[fill.maker]?,
              .lb2ext fill.taker lb2ext.length,
              .label fill.taker lb2ext[fill.taker]?] ↔
          onFill lb2ext seq l fill = none := by
        rw [onFill_eq_none]
        simp [overruns_cons, not_overruns_nil, Event.InBounds]
      rw [fillEvents, List.flatMap_cons, overruns_append, ← fillEvents, own,
        List.foldlM_cons, Option.bind_eq_bind]
      cases heard : onFill lb2ext seq l fill with
      | none => exact iff_of_true rfl (Or.inl rfl)
      | some next =>
          rw [Option.bind_some, induction]
          exact (or_iff_right (Option.some_ne_none _)).symm

theorem overruns_registerEvents (st : State core) (extId : UInt64) :
    Overruns (registerEvents st extId) ↔
      ¬st.lastOrderId + 1 < st.lb2ext.length ∨
        ¬extId.toNat < st.orders.length := by
  simp [registerEvents, overruns_cons, not_overruns_nil, Event.InBounds]

theorem register_eq_none
    (extId : UInt64) (isBuy : Bool) (price : Int64) (qty : UInt32) :
    register st extId isBuy price qty = none ↔
      Overruns (registerEvents st extId) := by
  rw [overruns_registerEvents]
  by_cases room : st.lastOrderId + 1 < st.lb2ext.length
  · by_cases slot : extId.toNat < st.orders.length
    · rw [register_eq room slot]
      refine iff_of_false (Option.some_ne_none _) ?_
      rintro (outside | outside)
      · exact outside room
      · exact outside slot
    · refine iff_of_true ?_ (Or.inr slot)
      simp only [register, store, if_neg slot, Option.map_none,
        Option.bind_fun_none]
  · refine iff_of_true ?_ (Or.inl room)
    simp only [register, store, if_neg room, Option.bind_none]

/-- A submission stops exactly at an access outside its table. -/
theorem submit_eq_none
    {β : Type} (extId : UInt64) (isBuy : Bool) (price : Int64)
    (qty : UInt32) (ioc : Bool) (seq : UInt64)
    (finish : State core × Listening → β) :
    ((register st extId isBuy price qty).bind fun made =>
        (add made.1 seq made.2 ioc).map finish) = none ↔
      Overruns (submitEvents st extId isBuy price qty ioc) := by
  rw [submitEvents, overruns_append, ← register_eq_none extId isBuy price qty]
  cases made : register st extId isBuy price qty with
  | none => exact iff_of_true rfl (Or.inl rfl)
  | some result =>
      rw [Option.bind_some, Option.map_eq_none_iff, add,
        Option.map_eq_none_iff, foldlM_onFill_eq_none]
      exact (or_iff_right (Option.some_ne_none _)).symm

/-- A step stops exactly at an access outside its table. -/
theorem step_eq_none_iff (m : Msg) :
    step st m = none ↔ Overruns (events st m) := by
  cases m with
  | newOrder o => exact submit_eq_none _ _ _ _ _ _ _
  | cancel c =>
      exact iff_of_false (Option.some_ne_none _) (not_overruns_findEvents _ _)
  | modify m =>
      rw [step, events, overruns_append,
        or_iff_right (not_overruns_findEvents _ _), engineOnModify]
      cases findOrder st.orders m.orderId with
      | none => exact iff_of_false (Option.some_ne_none _) not_overruns_nil
      | some cur =>
          dsimp only
          split
          · exact submit_eq_none _ _ _ _ _ _ _
          · exact iff_of_false (Option.some_ne_none _) not_overruns_nil

end Stops

/-! ## Labels -/

/--
Every order made so far is labelled with the identifier of its message, and
the engine holds no other orders.
-/
structure Mapped
    {core : Core} (given : core.State → Nat → Prop)
    (log : List (Msg × Event)) (st : State core) : Prop where
  labels : ∀ id, 1 ≤ id → id ≤ st.lastOrderId →
    ∃ maker, (maker, .made id) ∈ log ∧
      st.lb2ext[id]? = some maker.orderId
  given : ∀ id, given st.book id → 1 ≤ id ∧ id ≤ st.lastOrderId

/-- What the dispatch of a message may touch, in a run with these events. -/
structure InPlace (log : List (Msg × Event)) (event : Event) : Prop where
  bounds : event.InBounds
  label : ∀ id extId, event = .label id extId →
    ∃ maker, (maker, .made id) ∈ log ∧ extId = some maker.orderId

section Labels

variable {core : Core} {given : core.State → Nat → Prop}
  {log : List (Msg × Event)} {st : State core} {m : Msg}

theorem Mapped.mono
    {more : List (Msg × Event)} (mapped : Mapped given log st)
    (more_ : ∀ event ∈ log, event ∈ more) : Mapped given more st where
  labels id some_ most := by
    rcases mapped.labels id some_ most with ⟨maker, made, entry⟩
    exact ⟨maker, more_ _ made, entry⟩
  given := mapped.given

theorem InPlace.mono
    {more : List (Msg × Event)} {event : Event} (inPlace : InPlace log event)
    (more_ : ∀ event ∈ log, event ∈ more) : InPlace more event where
  bounds := inPlace.bounds
  label id extId same := by
    rcases inPlace.label id extId same with ⟨maker, made, entry⟩
    exact ⟨maker, more_ _ made, entry⟩

/-- A new order is labelled with its message. -/
theorem Mapped.register
    (mapped : Mapped given log st)
    (room : st.lastOrderId + 1 < st.lb2ext.length)
    (made : (m, .made (st.lastOrderId + 1)) ∈ log)
    (orders : List (Option SimpleOrder)) :
    Mapped given log
      { st with
        lastOrderId := st.lastOrderId + 1
        lb2ext := st.lb2ext.set (st.lastOrderId + 1) m.orderId
        orders := orders } where
  labels id some_ most := by
    dsimp only at most ⊢
    rw [getElem?_set room]
    by_cases latest : id = st.lastOrderId + 1
    · rw [if_pos latest]
      exact ⟨m, latest ▸ made, rfl⟩
    · rw [if_neg latest]
      exact mapped.labels id some_ (by omega)
  given id holds := by
    have old := mapped.given id holds
    exact ⟨old.1, Nat.le_succ_of_le old.2⟩

/-- Adding the latest order gives the engine no other. -/
theorem Mapped.add
    (keeps : KeepsOrders core given) (mapped : Mapped given log st)
    {order : SimpleOrder} (latest : order.orderId = st.lastOrderId)
    (some_ : 1 ≤ st.lastOrderId) (ioc : Bool) :
    Mapped given log { st with book := (core.add st.book order ioc).1 } where
  labels := mapped.labels
  given id holds := by
    rcases keeps.add st.book order ioc id holds with rfl | old
    · rw [latest]
      exact ⟨some_, Nat.le_refl _⟩
    · exact mapped.given id old

theorem Mapped.cancel
    (keeps : KeepsOrders core given) (mapped : Mapped given log st)
    (orderId : Nat) :
    Mapped given log { st with book := core.cancel st.book orderId } where
  labels := mapped.labels
  given id holds := mapped.given id (keeps.cancel st.book orderId id holds)

/-- The listener finds the labels of makers and takers. -/
theorem Mapped.fillEvents
    (keeps : KeepsOrders core given) (mapped : Mapped given log st)
    {order : SimpleOrder} (latest : order.orderId = st.lastOrderId)
    (some_ : 1 ≤ st.lastOrderId) (ioc : Bool) :
    ∀ event ∈ fillEvents st.lb2ext (core.add st.book order ioc).2,
      InPlace log event := by
  have known {id : Nat} (reported : id = order.orderId ∨ given st.book id) :
      InPlace log (.lb2ext id st.lb2ext.length) ∧
        InPlace log (.label id st.lb2ext[id]?) := by
    have range : 1 ≤ id ∧ id ≤ st.lastOrderId := by
      rcases reported with rfl | old
      · rw [latest]
        exact ⟨some_, Nat.le_refl _⟩
      · exact mapped.given id old
    rcases mapped.labels id range.1 range.2 with ⟨maker, made, entry⟩
    refine ⟨⟨(List.getElem?_eq_some_iff.mp entry).1, nofun⟩, trivial, ?_⟩
    rintro _ _ ⟨⟩
    exact ⟨maker, made, entry⟩
  intro event member
  rcases List.mem_flatMap.mp member with ⟨fill, reported, own⟩
  have ⟨maker, taker⟩ := keeps.fills st.book order ioc fill reported
  simp only [List.mem_cons, List.not_mem_nil, or_false] at own
  rcases own with rfl | rfl | rfl | rfl
  · exact (known maker).1
  · exact (known maker).2
  · exact (known taker).1
  · exact (known taker).2

theorem inPlace_findEvents
    {orders : List (Option SimpleOrder)} {extId : UInt64} :
    ∀ event ∈ findEvents orders extId, InPlace log event := by
  intro event member
  rcases mem_checkedLoad.mp member with ⟨inside, rfl⟩
  exact ⟨inside, nofun⟩

/-- A submission with room in both tables touches what it should. -/
theorem Mapped.submitEvents
    (keeps : KeepsOrders core given) (mapped : Mapped given log st)
    (room : st.lastOrderId + 1 < st.lb2ext.length)
    (slot : m.orderId.toNat < st.orders.length)
    (made : (m, .made (st.lastOrderId + 1)) ∈ log)
    (isBuy : Bool) (price : Int64) (qty : UInt32) (ioc : Bool) :
    ∀ event ∈ submitEvents st m.orderId isBuy price qty ioc,
      InPlace log event := by
  unfold LiquibookTables.submitEvents
  rw [register_eq room slot]
  refine List.forall_mem_append.mpr ⟨?_, ?_⟩
  · intro event member
    simp only [registerEvents, List.mem_cons, List.not_mem_nil,
      or_false] at member
    rcases member with rfl | rfl | rfl
    · exact ⟨trivial, nofun⟩
    · exact ⟨room, nofun⟩
    · exact ⟨slot, nofun⟩
  · exact (mapped.register room made _).fillEvents keeps rfl
      (Nat.le_add_left 1 _) ioc

end Labels

/-! ## Steps -/

/-- There is room for the orders still to come. -/
structure Roomy {core : Core} (rest : List Msg) (st : State core) : Prop where
  room : st.lastOrderId + orderCount rest < st.lb2ext.length
  slots : ∀ o, Msg.newOrder o ∈ rest → o.orderId + 1 ≠ 0 →
    o.orderId.toNat < st.orders.length

/-- The message is not a new order with the largest identifier. -/
def BelowLargest (m : Msg) : Prop :=
  ∀ o, m = .newOrder o → o.orderId + 1 ≠ 0

section Steps

variable {core : Core} {given : core.State → Nat → Prop}
  {log : List (Msg × Event)} {st : State core} {m : Msg} {rest : List Msg}

/-- The state after a submission that was registered. -/
def submittedState
    (st : State core) (extId : UInt64) (isBuy : Bool) (price : Int64)
    (qty : UInt32) (ioc : Bool) : State core :=
  let order := constructed st isBuy price qty
  { st with
    book := (core.add st.book order ioc).1
    lastOrderId := st.lastOrderId + 1
    lb2ext := st.lb2ext.set (st.lastOrderId + 1) extId
    orders := st.orders.set extId.toNat (some order) }

theorem submit_eq_some
    {extId : UInt64} {isBuy : Bool} {price : Int64} {qty : UInt32}
    {ioc : Bool} {seq : UInt64}
    {finish : State core × Listening → State core × List Report}
    (keepsState : ∀ added, (finish added).1 = added.1)
    {next : State core} {out : List Report}
    (submitted : ((register st extId isBuy price qty).bind fun made =>
      (add made.1 seq made.2 ioc).map finish) = some (next, out)) :
    next = submittedState st extId isBuy price qty ioc := by
  have registers : ¬Overruns (registerEvents st extId) := by
    rw [← register_eq_none extId isBuy price qty]
    intro failed
    rw [failed] at submitted
    cases submitted
  rw [overruns_registerEvents, not_or, not_not, not_not] at registers
  rw [register_eq registers.1 registers.2, Option.bind_some, add,
    Option.map_map, Option.map_eq_some_iff] at submitted
  rcases submitted with ⟨l, _, same⟩
  have state := congrArg Prod.fst same
  rw [Function.comp_apply, keepsState] at state
  exact state.symm

theorem Roomy.submitted
    {extId : UInt64} (roomy : Roomy (m :: rest) st) (makes : orderCredit m = 1)
    (isBuy : Bool) (price : Int64) (qty : UInt32) (ioc : Bool) :
    Roomy rest (submittedState st extId isBuy price qty ioc) where
  room := by
    have room := roomy.room
    rw [orderCount_cons, makes] at room
    rw [submittedState]
    dsimp only
    rw [List.length_set]
    omega
  slots o member := by
    rw [submittedState]
    dsimp only
    rw [List.length_set]
    exact roomy.slots o (List.mem_cons_of_mem m member)

theorem Roomy.tail (roomy : Roomy (m :: rest) st) : Roomy rest st where
  room := by
    have room := roomy.room
    rw [orderCount_cons] at room
    omega
  slots o member := roomy.slots o (List.mem_cons_of_mem m member)

theorem Roomy.next
    (roomy : Roomy (m :: rest) st) (makes : orderCredit m = 1) :
    st.lastOrderId + 1 < st.lb2ext.length := by
  have room := roomy.room
  rw [orderCount_cons, makes] at room
  omega

theorem Mapped.submitted
    (keeps : KeepsOrders core given) (mapped : Mapped given log st)
    (room : st.lastOrderId + 1 < st.lb2ext.length)
    (made : (m, .made (st.lastOrderId + 1)) ∈ log)
    (isBuy : Bool) (price : Int64) (qty : UInt32) (ioc : Bool) :
    Mapped given log (submittedState st m.orderId isBuy price qty ioc) :=
  (mapped.register room made _).add keeps rfl (Nat.le_add_left 1 _) ioc

/-- A submission makes the next order. -/
theorem made_mem_submitEvents
    (st : State core) (extId : UInt64) (isBuy : Bool) (price : Int64)
    (qty : UInt32) (ioc : Bool) :
    .made (st.lastOrderId + 1) ∈
      submitEvents st extId isBuy price qty ioc :=
  List.mem_append_left _ List.mem_cons_self

theorem slot_of_found
    {orders : List (Option SimpleOrder)} {extId : UInt64} {cur : SimpleOrder}
    (located : findOrder orders extId = some cur) :
    extId.toNat < orders.length := by
  by_cases inside : extId.toNat < orders.length
  · exact inside
  · rw [findOrder, List.getElem?_eq_none (Nat.le_of_not_lt inside)] at located
    cases located

/-- A submission leaves room for the messages to come, and right labels. -/
theorem submission_keeps
    (keeps : KeepsOrders core given) (roomy : Roomy (m :: rest) st)
    (makes : orderCredit m = 1) (mapped : Mapped given log st)
    (made : (m, .made (st.lastOrderId + 1)) ∈ log)
    {isBuy : Bool} {price : Int64} {qty : UInt32} {ioc : Bool} {seq : UInt64}
    {finish : State core × Listening → State core × List Report}
    (keepsState : ∀ added, (finish added).1 = added.1)
    {next : State core} {out : List Report}
    (submitted : ((register st m.orderId isBuy price qty).bind fun made =>
      (add made.1 seq made.2 ioc).map finish) = some (next, out)) :
    Roomy rest next ∧ Mapped given log next := by
  cases submit_eq_some keepsState submitted
  exact ⟨roomy.submitted makes _ _ _ _,
    mapped.submitted keeps (roomy.next makes) made _ _ _ _⟩

/-- A cancel changes the engine's book at most. -/
theorem cancel_cases
    {c : Cancel} {next : State core} {out : List Report}
    (stepped : step st (.cancel c) = some (next, out)) :
    next = st ∨
      ∃ orderId, next = { st with book := core.cancel st.book orderId } := by
  have state := congrArg Prod.fst (Option.some.inj stepped)
  dsimp only at state
  subst state
  unfold engineOnCancel
  split
  · rename_i order _
    split
    · exact Or.inr ⟨order.orderId, rfl⟩
    · exact Or.inl rfl
  · exact Or.inl rfl

/-- What one step touches and keeps. -/
theorem step_inPlace
    (keeps : KeepsOrders core given) (roomy : Roomy (m :: rest) st)
    (mapped : Mapped given log st) (below : BelowLargest m) :
    let later := log ++ (events st m).map (Prod.mk m)
    (∀ event ∈ events st m, InPlace later event) ∧
      ∀ next out, step st m = some (next, out) →
        Roomy rest next ∧ Mapped given later next := by
  intro later
  have seen : Mapped given later st :=
    mapped.mono fun _ member => List.mem_append_left _ member
  have own {event : Event} (member : event ∈ events st m) :
      (m, event) ∈ later :=
    List.mem_append_right _ (List.mem_map_of_mem member)
  cases m with
  | newOrder o =>
      have slot : (Msg.newOrder o).orderId.toNat < st.orders.length :=
        roomy.slots o List.mem_cons_self (below o rfl)
      have made := own (made_mem_submitEvents st o.orderId (o.side == 0)
        o.priceTicks o.quantity (decide (o.ioc ≠ 0)))
      exact ⟨seen.submitEvents keeps (roomy.next rfl) slot made _ _ _ _,
        fun next out stepped => submission_keeps keeps roomy rfl seen made
          (fun _ => rfl) stepped⟩
  | cancel c =>
      refine ⟨inPlace_findEvents, fun next out stepped => ?_⟩
      rcases cancel_cases stepped with rfl | ⟨orderId, rfl⟩
      · exact ⟨roomy.tail, seen⟩
      · exact ⟨⟨roomy.tail.room, roomy.tail.slots⟩, seen.cancel keeps _⟩
  | modify m =>
      rw [step, engineOnModify]
      rw [events] at own ⊢
      cases located : findOrder st.orders m.orderId with
      | none =>
          rw [List.append_nil]
          refine ⟨inPlace_findEvents, fun next out stepped => ?_⟩
          cases stepped
          exact ⟨roomy.tail, seen⟩
      | some cur =>
          rw [located] at own
          dsimp only at own ⊢
          by_cases alive : resting st cur = true
          · rw [if_pos alive] at own
            rw [if_pos alive, if_pos alive]
            have kept : Roomy (.modify m :: rest)
                { st with book := core.cancel st.book cur.orderId } :=
              ⟨roomy.room, roomy.slots⟩
            have cancelled := seen.cancel keeps cur.orderId
            have slot : (Msg.modify m).orderId.toNat < st.orders.length :=
              slot_of_found located
            have made := own (List.mem_append_right _
              (made_mem_submitEvents
                { st with book := core.cancel st.book cur.orderId } m.orderId
                (m.side == 0) m.newPriceTicks m.newQuantity false))
            exact ⟨List.forall_mem_append.mpr ⟨inPlace_findEvents,
                cancelled.submitEvents keeps (roomy.next rfl) slot made
                  _ _ _ _⟩,
              fun next out stepped => submission_keeps keeps kept rfl
                cancelled made (fun _ => rfl) stepped⟩
          · rw [if_neg alive, if_neg alive, List.append_nil]
            refine ⟨inPlace_findEvents, fun next out stepped => ?_⟩
            cases stepped
            exact ⟨roomy.tail, seen⟩

/-- The orders a step makes are counted, and the order table keeps its size. -/
structure Counts (made : List Nat) (st next : State core) : Prop where
  last : next.lastOrderId = st.lastOrderId + made.length
  size : next.orders.length = st.orders.length

theorem madeIds_findEvents
    (orders : List (Option SimpleOrder)) (extId : UInt64) :
    (findEvents orders extId).filterMap Event.madeId = [] := by
  refine List.filterMap_eq_nil_iff.mpr fun event member => ?_
  rw [(mem_checkedLoad.mp member).2]
  rfl

theorem madeIds_submitEvents
    (st : State core) (extId : UInt64) (isBuy : Bool) (price : Int64)
    (qty : UInt32) (ioc : Bool) :
    (submitEvents st extId isBuy price qty ioc).filterMap Event.madeId =
      [st.lastOrderId + 1] := by
  have none_ (lb2ext : List UInt64) (fills : List OnFill) :
      (fillEvents lb2ext fills).filterMap Event.madeId = [] := by
    refine List.filterMap_eq_nil_iff.mpr fun event member => ?_
    rcases List.mem_flatMap.mp member with ⟨fill, _, own⟩
    simp only [List.mem_cons, List.not_mem_nil, or_false] at own
    rcases own with rfl | rfl | rfl | rfl <;> rfl
  rw [submitEvents, List.filterMap_append]
  split
  · rfl
  · rw [none_]
    rfl

/-- A step makes the next order or none. -/
theorem step_counts (st : State core) (m : Msg) :
    ∃ n, (events st m).filterMap Event.madeId =
        List.range' (st.lastOrderId + 1) n ∧
      ∀ next out, step st m = some (next, out) →
        Counts (List.range' (st.lastOrderId + 1) n) st next := by
  cases m with
  | newOrder o =>
      refine ⟨1, madeIds_submitEvents _ _ _ _ _ _, ?_⟩
      intro next out stepped
      cases submit_eq_some (fun _ => rfl) stepped
      exact ⟨rfl, List.length_set⟩
  | cancel c =>
      refine ⟨0, madeIds_findEvents _ _, fun next out stepped => ?_⟩
      rcases cancel_cases stepped with rfl | ⟨orderId, rfl⟩
      · exact ⟨rfl, rfl⟩
      · exact ⟨rfl, rfl⟩
  | modify m =>
      rw [step, engineOnModify, events, List.filterMap_append,
        madeIds_findEvents, List.nil_append]
      cases findOrder st.orders m.orderId with
      | none =>
          refine ⟨0, rfl, fun next out stepped => ?_⟩
          cases stepped
          exact ⟨rfl, rfl⟩
      | some cur =>
          dsimp only
          split
          · refine ⟨1, madeIds_submitEvents _ _ _ _ _ _, ?_⟩
            intro next out stepped
            cases submit_eq_some (fun _ => rfl) stepped
            exact ⟨rfl, List.length_set⟩
          · refine ⟨0, rfl, fun next out stepped => ?_⟩
            cases stepped
            exact ⟨rfl, rfl⟩

/-- The orders of a run have consecutive identifiers. -/
theorem madeIds_observed (st : State core) (msgs : List Msg) :
    ∃ n, (observed step events st msgs).filterMap (·.2.madeId) =
      List.range' (st.lastOrderId + 1) n := by
  induction msgs generalizing st with
  | nil => exact ⟨0, rfl⟩
  | cons m msgs induction =>
      rcases step_counts st m with ⟨n, own, counts⟩
      have first : ((events st m).map (Prod.mk m)).filterMap
          (fun event => event.2.madeId) =
            List.range' (st.lastOrderId + 1) n := by
        rw [List.filterMap_map, ← own]
        rfl
      rw [observed, List.filterMap_append, first]
      cases stepped : step st m with
      | none => exact ⟨n, List.append_nil _⟩
      | some result =>
          rcases induction result.1 with ⟨later, rest⟩
          have last := (counts result.1 result.2 stepped).last
          rw [List.length_range'] at last
          refine ⟨n + later, ?_⟩
          dsimp only
          rw [rest, last, Nat.add_right_comm]
          exact List.range'_append_1

end Steps

/-! ## Runs -/

section Run

variable {core : Core} {given : core.State → Nat → Prop} {st : State core}
  {rest msgs : List Msg} {m : Msg}

theorem roomy_prebuilt (msgs : List Msg) :
    Roomy msgs (prebuildAll (engineInit core) msgs) := by
  have built := prebuildAll_prebuilt msgs (engineInit core)
  have room := built.room (by
    show 0 < (resize ([] : List UInt64) (2 ^ 21) 0).length
    rw [length_resize]
    decide)
  constructor
  · rw [built.lastOrderId, show (engineInit core).lastOrderId = 0 from rfl,
      Nat.zero_add]
    rw [built.counted, show (engineInit core).lbBuilt = 0 from rfl,
      Nat.zero_add] at room
    exact room
  · exact built.slots

theorem mapped_prebuilt
    (keeps : KeepsOrders core given) (msgs : List Msg)
    (log : List (Msg × Event)) :
    Mapped given log (prebuildAll (engineInit core) msgs) := by
  have built := prebuildAll_prebuilt msgs (engineInit core)
  constructor
  · intro id some_ most
    rw [built.lastOrderId, show (engineInit core).lastOrderId = 0 from rfl]
      at most
    omega
  · intro id holds
    rw [built.book] at holds
    exact absurd holds (keeps.init id)

/-- A step on a message below the largest identifier does not stop. -/
theorem step_goes_on
    (keeps : KeepsOrders core given) {log : List (Msg × Event)}
    (roomy : Roomy (m :: rest) st) (mapped : Mapped given log st)
    (below : BelowLargest m) :
    ∃ next out, step st m = some (next, out) ∧ Roomy rest next ∧
      ∃ later, Mapped given later next := by
  have placed := step_inPlace keeps roomy mapped below
  cases stepped : step st m with
  | none =>
      rcases (step_eq_none_iff m).mp stepped with ⟨event, member, outside⟩
      exact absurd (placed.1 event member).bounds outside
  | some result =>
      rcases placed.2 result.1 result.2 stepped with ⟨room, labels⟩
      exact ⟨result.1, result.2, rfl, room, _, labels⟩

/-- The store of the largest identifier leaves every table. -/
theorem belowLargest_of_inBounds
    (fits : st.orders.length < 2 ^ 64)
    (inBounds : ∀ event ∈ events st m, event.InBounds) : BelowLargest m := by
  rintro o rfl largest
  have slot : o.orderId.toNat < st.orders.length := by
    apply inBounds (.orders o.orderId.toNat st.orders.length)
    apply List.mem_append_left
    simp [registerEvents]
  exact @succ_id_ne_zero o.orderId (by omega) largest

/--
A workload that was prebuilt, and any part of it dispatched in order: the
engine's identifiers are consecutive, the accesses to both tables are within
them, and for every order that a fill reports the table has the identifier of
the message that made it, if and, the order table having a size at all, only
if no new order has the largest identifier.
-/
theorem dispatch_inPlace
    (keeps : KeepsOrders core given) (msgs front : List Msg)
    (dispatched : front <+: msgs) :
    let st := prebuildAll (engineInit core) msgs
    let log := observed step events st front
    (∃ n, log.filterMap (·.2.madeId) = List.range' 1 n) ∧
      ((∀ m ∈ front, BelowLargest m) →
        ∀ event ∈ log, InPlace log event.2) ∧
      (st.orders.length < 2 ^ 64 → (∀ event ∈ log, InPlace log event.2) →
        ∀ m ∈ front, BelowLargest m) := by
  intro st log
  rcases dispatched with ⟨back, rfl⟩
  have roomy : Roomy (front ++ back) st := roomy_prebuilt _
  have mapped (past : List (Msg × Event)) : Mapped given past st :=
    mapped_prebuilt keeps _ past
  refine ⟨?_, ?_, ?_⟩
  · have last : st.lastOrderId = 0 :=
      (prebuildAll_prebuilt (front ++ back) (engineInit core)).lastOrderId
    have consecutive := madeIds_observed st front
    rw [last] at consecutive
    exact consecutive
  · intro below
    exact @observed_history _ _ _ _ step events
      (fun past rest reached => Roomy rest reached ∧
        Mapped given past reached)
      (fun _ => BelowLargest) (fun past _ event => InPlace past event)
      (fun past later _ _ inPlace => inPlace.mono fun _ member =>
        List.mem_append_left later member)
      (fun past m rest reached kept below =>
        step_inPlace keeps kept.1 kept.2 below)
      back front st [] ⟨roomy, mapped []⟩
      (Guarded.of_forall (fun m member _ => below m member) st)
  · intro fits inPlace
    have guarded : Guarded step (fun _ => BelowLargest) st front :=
      @guarded_of_observed _ _ _ _ step events
        (fun _ reached => reached.orders.length < 2 ^ 64) _
        (fun _ event => event.InBounds)
        (fun m _ reached fits next out stepped => by
          rcases step_counts reached m with ⟨n, _, counts⟩
          rw [(counts next out stepped).size]
          exact fits)
        (fun _ _ _ => belowLargest_of_inBounds) back front st fits
        (fun event member => (inPlace event member).bounds)
    exact @Guarded.forall _ _ _ step
      (fun rest reached => Roomy rest reached ∧
        ∃ past, Mapped given past reached)
      BelowLargest
      (fun m rest reached kept below => by
        rcases kept with ⟨roomy, past, mapped⟩
        exact step_goes_on keeps roomy mapped below)
      back front st ⟨roomy, [], mapped []⟩ guarded

end Run

/-- A ladder engine holds the orders that rest. -/
theorem liquibook_keepsOrders :
    KeepsOrders LadderCores.liquibook fun st => Rests st.ladders where
  init id holds := by
    rcases holds with ⟨_, _, member, _⟩
    cases member
  add _ _ _ _ holds := rests_submitted holds
  fills st order ioc fill member := by
    rcases List.mem_map.mp member with ⟨swept, inside, rfl⟩
    have maker := (mem_sweep_fills (st.positive _) inside).1
    exact ⟨Or.inr ⟨_, swept.maker, maker, rfl⟩, Or.inl rfl⟩
  cancel _ _ _ holds := by
    rcases holds with ⟨side, o, member, named⟩
    exact ⟨side, o, List.mem_of_mem_filter member, named⟩

/-- A sell that is replaced twice and then met; a stale modify. -/
def replacedWorkload : List Msg :=
  [.newOrder { orderId := 7, sequenceNumber := 1, priceTicks := 100
               quantity := 5, side := 1, ioc := 0 },
   .modify { orderId := 7, sequenceNumber := 2, newPriceTicks := 99
             newQuantity := 6, side := 1 },
   .modify { orderId := 3, sequenceNumber := 3, newPriceTicks := 99
             newQuantity := 1, side := 0 },
   .modify { orderId := 7, sequenceNumber := 4, newPriceTicks := 98
             newQuantity := 7, side := 1 },
   .newOrder { orderId := 4, sequenceNumber := 5, priceTicks := 99
               quantity := 2, side := 0, ioc := 1 }]

theorem dispatch_inPlace_replaced :
    let st := prebuildAll (engineInit LadderCores.liquibook) replacedWorkload
    let log := observed step events st replacedWorkload
    ∀ event ∈ log, InPlace log event.2 := by
  apply (dispatch_inPlace liquibook_keepsOrders replacedWorkload
    replacedWorkload (List.prefix_refl _)).2.1
  rintro m member o rfl
  simp only [replacedWorkload, List.mem_cons, Msg.newOrder.injEq,
    reduceCtorEq, List.not_mem_nil, or_false, false_or] at member
  rcases member with rfl | rfl <;> decide

/-- The order with the largest identifier is stored past the table's end. -/
theorem largest_stored_outside_orders :
    ¬∀ (core : Core) (given : core.State → Nat → Prop),
      KeepsOrders core given → ∀ msgs front : List Msg, front <+: msgs →
        let st := prebuildAll (engineInit core) msgs
        let log := observed step events st front
        ∀ event ∈ log, InPlace log event.2 := by
  intro inPlace
  have beyond : largestOrder.orderId.toNat ≥
      (engineInit LadderCores.liquibook).orders.length := by
    rw [engineInit, length_resize]
    decide
  have size : (prebuildAll (engineInit LadderCores.liquibook)
      [.newOrder largestOrder]).orders.length = 2 ^ 22 := by
    rw [prebuildAll, List.foldl_cons, List.foldl_nil, enginePrebuild]
    dsimp only
    rw [if_pos beyond, length_resize, engineInit, length_resize]
    decide
  have stored := inPlace _ _ liquibook_keepsOrders [.newOrder largestOrder]
    _ (List.prefix_refl _)
  generalize prebuildAll (engineInit LadderCores.liquibook)
    [.newOrder largestOrder] = st at size stored
  have below : BelowLargest (.newOrder largestOrder) :=
    @belowLargest_of_inBounds _ st _ (by rw [size]; decide)
      fun event member => (stored _ (mem_observed_head member [])).bounds
  exact below largestOrder rfl (by decide)

end MatchingBench.Baselines.LiquibookTables
