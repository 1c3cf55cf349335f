import MatchingBench.Baselines.LadderCores
import MatchingBench.Baselines.QuantCupRefinement

/-!
# Prebuilt orders stay aligned with dispatch

What a handler of the QuantCup adapter touches: the cursors into what was
prebuilt, the calls of `limit` and the order table.  Nothing is assumed about
the engine or about the workload.  The only access that can leave the table is
the store of a new order whose identifier is the largest one: `engine_prebuild`
computes the slots it needs as the identifier plus one, which is zero there.
-/

set_option autoImplicit false

namespace MatchingBench.Baselines.QuantCupAlignment

open MatchingBench.Adapters
open MatchingBench.Api
open MatchingBench.Lib.Runs
open MatchingBench.Lib.Tables
open MatchingBench.Baselines.LadderCores (largestOrder)
open MatchingBench.Baselines.QuantCup
open MatchingBench.Baselines.QuantCupRefinement

/-! ## What a handler touches -/

/-- A read of a prebuilt order, a call of `limit`, an access to `g_orders`. -/
inductive Event where
  | pre (index size : Nat)
  | preModify (index size : Nat)
  | limit (order : TOrder)
  | slot (index size : Nat)
deriving DecidableEq, Repr

/-- An access is within its array. -/
def Event.InBounds : Event → Prop
  | pre index size => index < size
  | preModify index size => index < size
  | limit _ => True
  | slot index size => index < size

/-- A call of `limit`. -/
def Event.isLimit : Event → Bool
  | limit _ => true
  | _ => false

section Events

variable {core : Core}

/-- `find_order` touches the table when the identifier is within it. -/
def findEvents (orders : List OrderState) (extId : UInt64) : List Event :=
  checkedLoad .slot orders extId.toNat

/-- The accesses of `execution`: it finds the makers. -/
def executionEvents
    (takerSide : UInt8) (orders : List OrderState) (execs : List TExecution) :
    List Event :=
  execs.flatMap fun exec =>
    let makerCall := if takerSide = 0 then exec.side = 1 else exec.side = 0
    if makerCall then findEvents orders (decodeId exec.trader) else []

/-- What is left of a new order after its call of `limit`. -/
def leftOf (st : State core) (o : NewOrder) (order : TOrder) : UInt32 :=
  (limit st o.sequenceNumber o.orderId o.side o.quantity order).2.2.takerLeft

/-- What `engine_on_new_order` touches. -/
def newOrderEvents (st : State core) (o : NewOrder) : List Event :=
  .pre st.preIdx st.pre.length ::
    match st.pre[st.preIdx]? with
    | none => []
    | some order =>
        .limit order ::
          executionEvents o.side st.orders (core.limit st.book order).2.2 ++
            if o.ioc = 0 ∧ leftOf st o order > 0 then
              [.slot o.orderId.toNat st.orders.length]
            else
              []

/-- What `engine_on_cancel` touches. -/
def cancelEvents (st : State core) (c : Cancel) : List Event :=
  findEvents st.orders c.orderId

/-- What `engine_on_modify` touches. -/
def modifyEvents (st : State core) (m : Modify) : List Event :=
  .preModify st.preModifyIdx st.preModify.length ::
    match st.preModify[st.preModifyIdx]? with
    | none => []
    | some order =>
        findEvents st.orders m.orderId ++
          match findOrder st.orders m.orderId with
          | none => []
          | some s =>
              if s.alive ∧ QcPrice m.newPriceTicks then
                .limit order ::
                  executionEvents m.side st.orders
                    (core.limit (core.cancel st.book s.qcid) order).2.2 ++
                      [.slot m.orderId.toNat st.orders.length]
              else
                []

/-- What the dispatch of a message touches. -/
def events (st : State core) : Msg → List Event
  | .newOrder o => newOrderEvents st o
  | .cancel c => cancelEvents st c
  | .modify m => modifyEvents st m

end Events

/-! ## Where a step stops -/

section Stops

variable {core : Core} {st next : State core}

/-- An access to the table that was checked. -/
def Checked (size : Nat) (event : Event) : Prop :=
  ∃ index, event = .slot index size ∧ index < size

theorem Checked.inBounds {size : Nat} {event : Event}
    (checked : Checked size event) : event.InBounds := by
  rcases checked with ⟨index, rfl, inside⟩
  exact inside

theorem Checked.ne_limit {size : Nat} {event : Event}
    (checked : Checked size event) (order : TOrder) :
    event ≠ .limit order := by
  rcases checked with ⟨index, rfl, _⟩
  exact Event.noConfusion

theorem checked_findEvents
    (orders : List OrderState) (extId : UInt64) :
    ∀ event ∈ findEvents orders extId, Checked orders.length event := by
  intro event member
  obtain ⟨inside, here⟩ := mem_checkedLoad.mp member
  exact ⟨_, here, inside⟩

theorem checked_executionEvents
    (takerSide : UInt8) (orders : List OrderState) (execs : List TExecution) :
    ∀ event ∈ executionEvents takerSide orders execs,
      Checked orders.length event := by
  intro event member
  rcases List.mem_flatMap.mp member with ⟨exec, _, own⟩
  by_cases maker : if takerSide = 0 then exec.side = 1 else exec.side = 0
  · rw [if_pos maker] at own
    exact checked_findEvents _ _ event own
  · rw [if_neg maker] at own
    cases own

/-- The callbacks of `limit` leave the size of the table. -/
theorem length_foldl_execution
    (seq takerId : UInt64) (takerSide : UInt8) (execs : List TExecution)
    (m : Matching) :
    (execs.foldl (execution seq takerId takerSide) m).orders.length =
      m.orders.length := by
  induction execs generalizing m with
  | nil => rfl
  | cons exec execs induction =>
      rw [List.foldl_cons, induction]
      unfold execution
      by_cases maker : if takerSide = 0 then exec.side = 1 else exec.side = 0
      · rw [if_pos maker]
        exact length_update _ _ _
      · rw [if_neg maker]

theorem length_limit
    (seq takerId : UInt64) (takerSide : UInt8) (takerLeft : UInt32)
    (order : TOrder) :
    (limit st seq takerId takerSide takerLeft order).2.2.orders.length =
      st.orders.length :=
  length_foldl_execution _ _ _ _ _

/-- The price guard of a modify that would be accepted. -/
def AbortsAtPrice (st : State core) : Msg → Prop
  | .newOrder _ => False
  | .cancel _ => False
  | .modify m =>
      (∃ s, findOrder st.orders m.orderId = some s ∧ s.alive = true) ∧
        ¬QcPrice m.newPriceTicks

/-- The store of a new order that rests, past the end of the table. -/
def StoresOutside (st : State core) (o : NewOrder) (order : TOrder) : Prop :=
  (o.ioc = 0 ∧ leftOf st o order > 0) ∧ ¬o.orderId.toNat < st.orders.length

/-- A step moves the cursor of its message and leaves the arrays' sizes. -/
structure Advances (m : Msg) (st next : State core) : Prop where
  pre : next.pre = st.pre
  preIdx : next.preIdx = st.preIdx + (newsOf [m]).length
  preModify : next.preModify = st.preModify
  preModifyIdx :
    next.preModifyIdx = st.preModifyIdx + (modifiesOf [m]).length
  size : next.orders.length = st.orders.length

theorem newOrder_of_found
    {o : NewOrder} {order : TOrder} (found : st.pre[st.preIdx]? = some order) :
    (engineOnNewOrder st o = none ↔ StoresOutside st o order) ∧
      ∀ next out, engineOnNewOrder st o = some (next, out) →
        Advances (.newOrder o) st next := by
  unfold engineOnNewOrder StoresOutside leftOf
  rw [found]
  dsimp only
  have size := @length_limit core st o.sequenceNumber o.orderId o.side
    o.quantity order
  generalize limit st o.sequenceNumber o.orderId o.side o.quantity order =
    result at size ⊢
  rcases result with ⟨book, qcid, m⟩
  dsimp only at size ⊢
  by_cases limits : o.ioc = 0
  · rw [if_neg (not_not_intro limits)]
    by_cases rests : m.takerLeft > 0
    · rw [if_pos rests, store, size]
      by_cases inside : o.orderId.toNat < st.orders.length
      · rw [if_pos inside, Option.map_some]
        refine ⟨⟨nofun, fun outside => absurd inside outside.2⟩, ?_⟩
        intro next out stepped
        cases stepped
        exact ⟨rfl, rfl, rfl, rfl, List.length_set.trans size⟩
      · rw [if_neg inside, Option.map_none]
        exact ⟨⟨fun _ => ⟨⟨limits, rests⟩, inside⟩, fun _ => rfl⟩, nofun⟩
    · rw [if_neg rests]
      refine ⟨⟨nofun, fun outside => absurd outside.1.2 rests⟩, ?_⟩
      intro next out stepped
      cases stepped
      exact ⟨rfl, rfl, rfl, rfl, size⟩
  · rw [if_pos limits]
    split
    · refine ⟨⟨nofun, fun outside => absurd outside.1.1 limits⟩, ?_⟩
      intro next out stepped
      cases stepped
      exact ⟨rfl, rfl, rfl, rfl, size⟩
    · refine ⟨⟨nofun, fun outside => absurd outside.1.1 limits⟩, ?_⟩
      intro next out stepped
      cases stepped
      exact ⟨rfl, rfl, rfl, rfl, size⟩

theorem cancel_advances (c : Cancel) :
    Advances (.cancel c) st (engineOnCancel st c).1 := by
  unfold engineOnCancel
  split
  · split
    · exact ⟨rfl, rfl, rfl, rfl, length_update _ _ _⟩
    · exact ⟨rfl, rfl, rfl, rfl, rfl⟩
  · exact ⟨rfl, rfl, rfl, rfl, rfl⟩

theorem modify_of_found
    {m : Modify} {order : TOrder}
    (found : st.preModify[st.preModifyIdx]? = some order) :
    (engineOnModify st m = none ↔ AbortsAtPrice st (.modify m)) ∧
      ∀ next out, engineOnModify st m = some (next, out) →
        Advances (.modify m) st next := by
  unfold engineOnModify AbortsAtPrice
  rw [found]
  dsimp only
  cases located : findOrder st.orders m.orderId with
  | none =>
      refine ⟨⟨nofun, fun aborts => ?_⟩, ?_⟩
      · rcases aborts.1 with ⟨s, here, _⟩
        cases here
      · intro next out stepped
        cases stepped
        exact ⟨rfl, rfl, rfl, rfl, rfl⟩
  | some s =>
      dsimp only
      by_cases alive : s.alive = true
      · rw [if_pos alive]
        by_cases permitted : QcPrice m.newPriceTicks
        · rw [if_pos permitted]
          refine ⟨⟨nofun, fun aborts => absurd permitted aborts.2⟩, ?_⟩
          intro next out stepped
          cases stepped
          refine ⟨rfl, rfl, rfl, rfl, ?_⟩
          exact (length_update _ _ _).trans (length_limit _ _ _ _ _)
        · rw [if_neg permitted]
          exact ⟨⟨fun _ => ⟨⟨s, rfl, alive⟩, permitted⟩, fun _ => rfl⟩, nofun⟩
      · rw [if_neg alive]
        refine ⟨⟨nofun, fun aborts => ?_⟩, ?_⟩
        · rcases aborts.1 with ⟨s', here, alive'⟩
          cases here
          exact absurd alive' alive
        · intro next out stepped
          cases stepped
          exact ⟨rfl, rfl, rfl, rfl, rfl⟩

theorem step_advances
    {m : Msg} {out : List Report} (stepped : step st m = some (next, out)) :
    Advances m st next := by
  cases m with
  | newOrder o =>
      cases found : st.pre[st.preIdx]? with
      | none => simp [step, engineOnNewOrder, found] at stepped
      | some order => exact (newOrder_of_found found).2 next out stepped
  | cancel c =>
      have advances := @cancel_advances core st c
      rw [Option.some.inj stepped] at advances
      exact advances
  | modify m =>
      cases found : st.preModify[st.preModifyIdx]? with
      | none => simp [step, engineOnModify, found] at stepped
      | some order => exact (modify_of_found found).2 next out stepped

/-- A read past the end of what was prebuilt. -/
theorem outOfBounds_of_none
    {table : List TOrder} {index : Nat} (absent : table[index]? = none) :
    ¬index < table.length :=
  Nat.not_lt.mpr (List.getElem?_eq_none_iff.mp absent)

/-- The accesses of a new order are checked, but for its cursor and store. -/
theorem mem_newOrderEvents
    {o : NewOrder} {order : TOrder} (found : st.pre[st.preIdx]? = some order) :
    ∀ event ∈ newOrderEvents st o,
      event = .pre st.preIdx st.pre.length ∨ event = .limit order ∨
        (event = .slot o.orderId.toNat st.orders.length ∧
          o.ioc = 0 ∧ leftOf st o order > 0) ∨
        Checked st.orders.length event := by
  intro event member
  unfold newOrderEvents at member
  rw [found] at member
  rcases List.mem_cons.mp member with rfl | member
  · exact Or.inl rfl
  · refine Or.inr ?_
    rcases List.mem_cons.mp member with rfl | member
    · exact Or.inl rfl
    · refine Or.inr ?_
      rcases List.mem_append.mp member with callback | stored
      · exact Or.inr (checked_executionEvents _ _ _ event callback)
      · split at stored
        · rename_i rests
          exact Or.inl ⟨List.mem_singleton.mp stored, rests⟩
        · cases stored

theorem newOrderEvents_of_found
    {o : NewOrder} {order : TOrder} (found : st.pre[st.preIdx]? = some order) :
    (∃ event ∈ newOrderEvents st o, ¬event.InBounds) ↔
      StoresOutside st o order := by
  constructor
  · rintro ⟨event, member, outside⟩
    rcases mem_newOrderEvents found event member with
      rfl | rfl | ⟨rfl, rests⟩ | checked
    · exact absurd (List.getElem?_eq_some_iff.mp found).1 outside
    · exact absurd trivial outside
    · exact ⟨rests, outside⟩
    · exact absurd checked.inBounds outside
  · rintro ⟨rests, outside⟩
    refine ⟨.slot o.orderId.toNat st.orders.length, ?_, outside⟩
    unfold newOrderEvents
    rw [found]
    apply List.mem_cons_of_mem
    apply List.mem_cons_of_mem
    apply List.mem_append_right
    rw [if_pos rests]
    exact List.mem_singleton_self _

/-- The accesses of a modify are checked, but for its cursor. -/
theorem mem_modifyEvents
    {m : Modify} {order : TOrder}
    (found : st.preModify[st.preModifyIdx]? = some order) :
    ∀ event ∈ modifyEvents st m,
      event = .preModify st.preModifyIdx st.preModify.length ∨
        (event = .limit order ∧ QcPrice m.newPriceTicks) ∨
          Checked st.orders.length event := by
  intro event member
  unfold modifyEvents at member
  rw [found] at member
  rcases List.mem_cons.mp member with rfl | member
  · exact Or.inl rfl
  · refine Or.inr ?_
    rcases List.mem_append.mp member with look | member
    · exact Or.inr (checked_findEvents _ _ event look)
    · cases located : findOrder st.orders m.orderId with
      | none =>
          rw [located] at member
          cases member
      | some s =>
          rw [located] at member
          dsimp only at member
          split at member
          · rename_i accepted
            rcases List.mem_cons.mp member with rfl | member
            · exact Or.inl ⟨rfl, accepted.2⟩
            · rcases List.mem_append.mp member with callback | stored
              · exact Or.inr (checked_executionEvents _ _ _ event callback)
              · rw [List.mem_singleton.mp stored]
                exact Or.inr
                  ⟨_, rfl, (List.getElem?_eq_some_iff.mp located).1⟩
          · cases member

theorem inBounds_modifyEvents
    {m : Modify} {order : TOrder}
    (found : st.preModify[st.preModifyIdx]? = some order) :
    ∀ event ∈ modifyEvents st m, event.InBounds := by
  intro event member
  rcases mem_modifyEvents found event member with rfl | ⟨rfl, _⟩ | checked
  · exact (List.getElem?_eq_some_iff.mp found).1
  · trivial
  · exact checked.inBounds

/--
A step stops exactly at an access outside its array or at the price guard of a
modify.
-/
theorem step_eq_none_iff (m : Msg) :
    step st m = none ↔
      (∃ event ∈ events st m, ¬event.InBounds) ∨ AbortsAtPrice st m := by
  cases m with
  | newOrder o =>
      rw [AbortsAtPrice, or_false]
      cases found : st.pre[st.preIdx]? with
      | none =>
          refine ⟨fun _ => ⟨_, List.mem_cons_self, outOfBounds_of_none found⟩,
            fun _ => ?_⟩
          rw [step, engineOnNewOrder, found]
      | some order =>
          exact (newOrder_of_found found).1.trans
            (newOrderEvents_of_found found).symm
  | cancel c =>
      constructor
      · intro stopped
        cases stopped
      · rintro (⟨event, member, outside⟩ | aborts)
        · exact absurd (checked_findEvents _ _ event member).inBounds outside
        · exact aborts.elim
  | modify m =>
      cases found : st.preModify[st.preModifyIdx]? with
      | none =>
          refine ⟨fun _ => Or.inl
            ⟨_, List.mem_cons_self, outOfBounds_of_none found⟩, fun _ => ?_⟩
          rw [step, engineOnModify, found]
      | some order =>
          refine (modify_of_found found).1.trans ⟨Or.inr, ?_⟩
          rintro (⟨event, member, outside⟩ | aborts)
          · exact absurd (inBounds_modifyEvents found event member) outside
          · exact aborts

end Stops

/-! ## Alignment -/

/-- The order that `engine_prebuild` built for a message. -/
def prebuiltOf : Msg → Option TOrder
  | .newOrder o => some (prebuilt o.orderId o.side o.priceTicks o.quantity)
  | .cancel _ => none
  | .modify m =>
      some (prebuilt m.orderId m.side m.newPriceTicks m.newQuantity)

/-- A price that may index QuantCup's array. -/
def PriceInArray (order : TOrder) : Prop :=
  1 ≤ order.price.toNat ∧ order.price.toNat ≤ kNumPricePoints - 1

/-- What the dispatch of a message may touch. -/
structure Aligned (m : Msg) (event : Event) : Prop where
  bounds : event.InBounds
  own : ∀ order, event = .limit order → prebuiltOf m = some order
  price : ∀ order, event = .limit order → PriceInArray order

/-- What was prebuilt serves the messages still to come. -/
structure Supplied {core : Core} (rest : List Msg) (st : State core) :
    Prop where
  pre : st.pre.drop st.preIdx = newsOf rest
  preModify : st.preModify.drop st.preModifyIdx = modifiesOf rest
  slots : ∀ o, Msg.newOrder o ∈ rest → o.orderId + 1 ≠ 0 →
    o.orderId.toNat < st.orders.length
  prices : ∀ o, Msg.newOrder o ∈ rest → QcPrice o.priceTicks

/--
A new order with the largest identifier is to be stored: it is not
immediate-or-cancel and its call of `limit` leaves something of it.
-/
def StoresLargest {core : Core} (st : State core) : Msg → Prop
  | .newOrder o =>
      o.orderId + 1 = 0 ∧ o.ioc = 0 ∧
        leftOf st o
          (prebuilt o.orderId o.side o.priceTicks o.quantity) > 0
  | .cancel _ => False
  | .modify _ => False

section Alignment

variable {core : Core} {kMaxNumOrders : Nat} {st next : State core}
  {rest msgs : List Msg} {m : Msg}

theorem priceInArray_prebuilt
    {id : UInt64} {side : UInt8} {price : Int64} {qty : UInt32}
    (permitted : QcPrice price) :
    PriceInArray (prebuilt id side price qty) := by
  have ticks := (@prebuilt_ticks id side price qty permitted).2
  rcases permitted with ⟨low, high⟩
  simp only [kNumPricePoints] at high
  simp only [PriceInArray, kNumPricePoints]
  omega

/-- The prebuilt orders of the later messages stay where they are. -/
theorem Supplied.advance
    (supplied : Supplied (m :: rest) st) (advances : Advances m st next) :
    Supplied rest next := by
  rcases supplied with ⟨pre, preModify, slots, prices⟩
  rw [newsOf_cons] at pre
  rw [modifiesOf_cons] at preModify
  constructor
  · rw [advances.pre, advances.preIdx, ← List.drop_drop, pre,
      List.drop_left]
  · rw [advances.preModify, advances.preModifyIdx, ← List.drop_drop,
      preModify, List.drop_left]
  · rw [advances.size]
    exact fun o member => slots o (List.mem_cons_of_mem m member)
  · exact fun o member => prices o (List.mem_cons_of_mem m member)

theorem Checked.aligned
    {event : Event} {size : Nat} (checked : Checked size event) :
    Aligned m event where
  bounds := checked.inBounds
  own order same := absurd same (checked.ne_limit order)
  price order same := absurd same (checked.ne_limit order)

/-- Everything a step touches is as it should be. -/
theorem Supplied.aligned
    (supplied : Supplied (m :: rest) st) (small : ¬StoresLargest st m) :
    ∀ event ∈ events st m, Aligned m event := by
  intro event member
  cases m with
  | newOrder o =>
      have found := (drop_eq_cons supplied.pre).1
      rcases mem_newOrderEvents found event member with
        rfl | rfl | ⟨rfl, rests⟩ | checked
      · exact ⟨(List.getElem?_eq_some_iff.mp found).1, nofun, nofun⟩
      · refine ⟨trivial, ?_, ?_⟩
        · rintro order ⟨⟩
          rfl
        · rintro order ⟨⟩
          exact priceInArray_prebuilt
            (supplied.prices o List.mem_cons_self)
      · refine ⟨?_, nofun, nofun⟩
        by_cases largest : o.orderId + 1 = 0
        · exact absurd ⟨largest, rests⟩ small
        · exact supplied.slots o List.mem_cons_self largest
      · exact checked.aligned
  | cancel c =>
      exact (checked_findEvents _ _ event member).aligned
  | modify m =>
      have found := (drop_eq_cons supplied.preModify).1
      rcases mem_modifyEvents found event member with
        rfl | ⟨rfl, permitted⟩ | checked
      · exact ⟨(List.getElem?_eq_some_iff.mp found).1, nofun, nofun⟩
      · refine ⟨trivial, ?_, ?_⟩
        · rintro order ⟨⟩
          rfl
        · rintro order ⟨⟩
          exact priceInArray_prebuilt permitted
      · exact checked.aligned

end Alignment

/-! ## Prebuilding that did not abort -/

section Passed

variable {core : Core} {kMaxNumOrders : Nat} {st next : State core}
  {msgs : List Msg} {m : Msg}

/-- A message that `engine_prebuild` let through passed its guards. -/
theorem guards_of_enginePrebuild
    (passed : enginePrebuild kMaxNumOrders st m = some next) :
    (∀ o, m = .newOrder o → QcPrice o.priceTicks) ∧
      (orderCredit m = 0 ∨ st.limitCalls + orderCredit m < kMaxNumOrders) := by
  have room (full : ¬st.limitCalls + 1 < kMaxNumOrders) :
      checkQcArena kMaxNumOrders st = none :=
    if_pos (Nat.le_of_not_lt full)
  cases m with
  | cancel c => exact ⟨nofun, Or.inl rfl⟩
  | modify m =>
      refine ⟨nofun, Or.inr (Decidable.byContradiction fun full => ?_)⟩
      rw [enginePrebuild, room full] at passed
      cases passed
  | newOrder o =>
      rw [enginePrebuild] at passed
      split at passed
      · rename_i permitted
        constructor
        · rintro other ⟨⟩
          exact permitted
        · refine Or.inr (Decidable.byContradiction fun full => ?_)
          rw [room full] at passed
          cases passed
      · cases passed

/-- A workload that was passed completely fits the array and the arena. -/
theorem passed_prebuildAll
    (passed : prebuildAll kMaxNumOrders st msgs = some next) :
    Prebuilt msgs st next ∧
      (∀ o, Msg.newOrder o ∈ msgs → QcPrice o.priceTicks) ∧
      (orderCount msgs = 0 ∨ next.limitCalls < kMaxNumOrders) := by
  induction msgs generalizing st with
  | nil =>
      cases passed
      exact ⟨Prebuilt.nil _, nofun, Or.inl rfl⟩
  | cons m msgs induction =>
      rw [prebuildAll, Option.bind_eq_some_iff] at passed
      rcases passed with ⟨middle, first, later⟩
      rcases guards_of_enginePrebuild first with ⟨permitted, room⟩
      rcases enginePrebuild_prebuilt m permitted room with
        ⟨same, first', built⟩
      cases first.symm.trans first'
      rcases induction later with ⟨rest, prices, fits⟩
      refine ⟨built.cons rest, ?_, ?_⟩
      · intro o member
        rcases List.mem_cons.mp member with rfl | member
        · exact permitted o rfl
        · exact prices o member
      · have counted := rest.limitCalls
        have own := built.limitCalls
        rw [orderCount_cons, orderCount_nil] at own
        rw [orderCount_cons]
        rcases fits with none_ | fits
        · rcases room with free | room
          · exact Or.inl (by omega)
          · exact Or.inr (by omega)
        · exact Or.inr fits

theorem supplied_prebuilt
    (passed : prebuildAll kMaxNumOrders (engineInit core) msgs = some next) :
    Supplied msgs next := by
  rcases passed_prebuildAll passed with ⟨built, prices, _⟩
  constructor
  · rw [built.preIdx, built.pre]
    rfl
  · rw [built.preModifyIdx, built.preModify]
    rfl
  · exact built.slots
  · exact prices

theorem orderCount_lt_of_passed
    (passed : prebuildAll kMaxNumOrders (engineInit core) msgs = some next) :
    orderCount msgs ≤ kMaxNumOrders - 1 := by
  rcases passed_prebuildAll passed with ⟨built, _, fits⟩
  have counted := built.limitCalls
  rw [show (engineInit core).limitCalls = 0 from rfl] at counted
  omega

end Passed

/-! ## Runs -/

section Run

variable {core : Core} {kMaxNumOrders : Nat} {st : State core}

theorem countP_limit_events (st : State core) (m : Msg) :
    (events st m).countP Event.isLimit ≤ orderCredit m := by
  have free {size : Nat} {seen : List Event}
      (checked : ∀ event ∈ seen, Checked size event) :
      seen.countP Event.isLimit = 0 := by
    refine List.countP_eq_zero.mpr fun event member limits => ?_
    rcases checked event member with ⟨index, rfl, _⟩
    cases limits
  cases m with
  | newOrder o =>
      have callbacks (order : TOrder) :=
        free (checked_executionEvents o.side st.orders
          (core.limit st.book order).2.2)
      show (newOrderEvents st o).countP Event.isLimit ≤ 1
      unfold newOrderEvents
      split
      · exact Nat.zero_le 1
      · rw [List.countP_cons, List.cons_append, List.countP_cons,
          List.countP_append, callbacks]
        split <;> exact Nat.le_refl 1
  | cancel c => exact Nat.le_of_eq (free (checked_findEvents _ _))
  | modify m =>
      have callbacks (book : core.State) (order : TOrder) :=
        free (checked_executionEvents m.side st.orders
          (core.limit book order).2.2)
      show (modifyEvents st m).countP Event.isLimit ≤ 1
      unfold modifyEvents
      split
      · exact Nat.zero_le 1
      · rw [List.countP_cons, List.countP_append,
          free (checked_findEvents _ _)]
        split
        · exact Nat.zero_le 1
        · split
          · rw [List.cons_append, List.countP_cons, List.countP_append,
              callbacks]
            exact Nat.le_refl 1
          · exact Nat.zero_le 1

/-- The store of the largest identifier leaves every table. -/
theorem Supplied.not_storesLargest
    {m : Msg} {rest : List Msg} (supplied : Supplied (m :: rest) st)
    (fits : st.orders.length < 2 ^ 64)
    (aligned : ∀ event ∈ events st m, Aligned m event) :
    ¬StoresLargest st m := by
  intro stores
  cases m with
  | newOrder o =>
      have found := (drop_eq_cons supplied.pre).1
      rcases stores with ⟨largest, rests⟩
      have outside : ¬o.orderId.toNat < st.orders.length := by
        intro inside
        exact @succ_id_ne_zero o.orderId (by omega) largest
      rcases (newOrderEvents_of_found found).mpr ⟨rests, outside⟩ with
        ⟨event, member, bad⟩
      exact bad (aligned event member).bounds
  | cancel c => exact stores
  | modify m => exact stores

/--
A workload that `engine_prebuild` let through, and any part of it dispatched in
order: every call of `limit` gets the prebuilt order of the message that is
being dispatched, at a price of the array, the cursors and the accesses to the
order table stay within their arrays, and the arena has a slot for every call,
if and, the table having a size at all, only if no order with the largest
identifier is stored.
-/
theorem dispatch_aligned
    (msgs : List Msg)
    (passed : prebuildAll kMaxNumOrders (engineInit core) msgs = some st)
    (front : List Msg) (dispatched : front <+: msgs) :
    let touched := observed step events st front
    touched.countP (fun event => event.2.isLimit) ≤ kMaxNumOrders - 1 ∧
      (Guarded step (fun st m => ¬StoresLargest st m) st front →
        ∀ event ∈ touched, Aligned event.1 event.2) ∧
      (st.orders.length < 2 ^ 64 →
        (∀ event ∈ touched, Aligned event.1 event.2) →
          Guarded step (fun st m => ¬StoresLargest st m) st front) := by
  rcases dispatched with ⟨back, rfl⟩
  have supplied := supplied_prebuilt passed
  refine ⟨?_, ?_, ?_⟩
  · have calls := @countP_observed_le _ _ _ _ step _ _ _
      countP_limit_events st front
    have all := orderCount_lt_of_passed passed
    have front_le : orderCount front ≤ orderCount (front ++ back) := by
      rw [orderCount, orderCount, List.map_append, List.sum_append]
      exact Nat.le_add_right _ _
    exact calls.trans (front_le.trans all)
  · intro guarded
    refine @observed_forall _ _ _ _ _ _ Supplied _ _ ?_ back _ _ supplied
      guarded
    intro m rest st supplied small
    exact ⟨supplied.aligned small, fun next out stepped =>
      supplied.advance (step_advances stepped)⟩
  · intro fits aligned
    refine @guarded_of_observed _ _ _ _ _ _
      (fun rest reached => Supplied rest reached ∧
        reached.orders.length < 2 ^ 64)
      _ _ ?_ ?_ back _ _ ⟨supplied, fits⟩ aligned
    · rintro m rest st ⟨supplied, fits⟩ next out stepped
      have advances := step_advances stepped
      exact ⟨supplied.advance advances, advances.size ▸ fits⟩
    · rintro m rest st ⟨supplied, fits⟩ aligned
      exact supplied.not_storesLargest fits aligned

end Run

/-- A sell that is repriced, then met in part; a stale modify. -/
def repricedWorkload : List Msg :=
  [.newOrder { orderId := 1, sequenceNumber := 1, priceTicks := 100
               quantity := 5, side := 1, ioc := 0 },
   .modify { orderId := 1, sequenceNumber := 2, newPriceTicks := 99
             newQuantity := 6, side := 1 },
   .modify { orderId := 7, sequenceNumber := 3, newPriceTicks := 0
             newQuantity := 1, side := 0 },
   .newOrder { orderId := 2, sequenceNumber := 4, priceTicks := 99
               quantity := 9, side := 0, ioc := 0 }]

theorem dispatch_aligned_repriced :
    ∃ st, prebuildAll 10 (engineInit LadderCores.quantCup) repricedWorkload =
        some st ∧
      ∀ event ∈ observed step events st repricedWorkload,
        Aligned event.1 event.2 := by
  have news (o : NewOrder) (member : Msg.newOrder o ∈ repricedWorkload) :
      QcPrice o.priceTicks ∧ o.orderId + 1 ≠ 0 := by
    simp only [repricedWorkload, List.mem_cons, Msg.newOrder.injEq,
      reduceCtorEq, List.not_mem_nil, or_false, false_or] at member
    rcases member with rfl | rfl <;> decide
  rcases @prebuildAll_prebuilt LadderCores.quantCup 10
    (engineInit LadderCores.quantCup) repricedWorkload
    (fun o member => (news o member).1) (by decide) with ⟨st, passed, _⟩
  refine ⟨st, passed, ?_⟩
  apply (dispatch_aligned repricedWorkload passed repricedWorkload
    (List.prefix_refl _)).2.1
  refine Guarded.of_forall (fun m member reached stores => ?_) st
  cases m with
  | newOrder o => exact (news o member).2 stores.1
  | cancel c => exact stores
  | modify m => exact stores

/-- The order with the largest identifier is stored past the table's end. -/
theorem largest_stored_outside :
    ¬∀ (core : Core) (kMaxNumOrders : Nat) (msgs : List Msg) (st : State core),
      prebuildAll kMaxNumOrders (engineInit core) msgs = some st →
      ∀ front, front <+: msgs →
        ∀ event ∈ observed step events st front, Aligned event.1 event.2 := by
  intro aligned
  have beyond : largestOrder.orderId.toNat ≥
      (engineInit LadderCores.quantCup).orders.length := by
    rw [engineInit, length_resize]
    decide
  have passed : ∃ st, prebuildAll 10 (engineInit LadderCores.quantCup)
        [.newOrder largestOrder] = some st ∧
      st.book = (engineInit LadderCores.quantCup).book ∧
      st.orders.length = 2 ^ 22 := by
    rw [prebuildAll, enginePrebuild, if_pos (by decide),
      checkQcArena_of_lt (by decide), Option.map_some, Option.bind_some,
      prebuildAll]
    refine ⟨_, rfl, rfl, ?_⟩
    dsimp only
    rw [if_pos beyond, length_resize, engineInit, length_resize]
    decide
  rcases passed with ⟨st, passed, book, size⟩
  have found := (drop_eq_cons (supplied_prebuilt passed).pre).1
  have outside : ¬largestOrder.orderId.toNat < st.orders.length := by
    rw [size]
    decide
  have rests : leftOf st largestOrder (prebuilt largestOrder.orderId
      largestOrder.side largestOrder.priceTicks largestOrder.quantity) >
        0 := by
    unfold leftOf limit
    rw [book]
    exact (by decide : largestOrder.quantity > 0)
  rcases (newOrderEvents_of_found found).mpr ⟨⟨rfl, rests⟩, outside⟩ with
    ⟨event, member, bad⟩
  have touched : event ∈ events st (.newOrder largestOrder) := member
  exact bad (aligned _ _ _ st passed _ (List.prefix_refl _) _
    (mem_observed_head touched [])).bounds

end MatchingBench.Baselines.QuantCupAlignment
