import MatchingBench.Pgellert.FifoBookSpec
import MatchingBench.Lib.Runs

/-!
# Runs of the FIFO book

Any order of calls of the `Book` trait on an empty book: several crossing
orders may be applied before one check, and cancels come in between.  Which
orders stand is told by the calls and the trades they returned; the buckets,
the bounds and the index hold exactly those, and what a check then does is
stated on the book itself.  The ladders it represents appear in the proofs
only.
-/

set_option autoImplicit false

namespace MatchingBench.Pgellert.FifoBookRuns

open MatchingBench.Lib.Maps
open MatchingBench.Lib.PriceTime
open MatchingBench.Lib.Runs
open MatchingBench.Lib.Serving
open MatchingBench.Lib.Crossing (cross cut cross_served uncrossed_cross)
open MatchingBench.Pgellert.FifoBook
open MatchingBench.Pgellert.FifoBookSpec

/-! ## Calls -/

/-- A call of the `Book` trait. -/
inductive Call where
  | apply (order : Order)
  | cancel (orderId : OrderId) (side : Side)
  | checkForTrades
deriving DecidableEq, Repr

/-- The book after a call, and the call with the trades it returns. -/
def step (book : FIFOBook) (call : Call) :
    Option (FIFOBook × List (Call × List Trade)) :=
  match call with
  | .apply order => some (book.apply order, [(call, [])])
  | .cancel orderId side => some ((book.cancel orderId side).2, [(call, [])])
  | .checkForTrades =>
      book.checkForTrades.map fun result => (result.2, [(call, result.1)])

/-- The orders of all buckets of a side. -/
def live (book : FIFOBook) (side : Side) : List Order :=
  (book.buckets side).priceBuckets.entries.flatMap fun entry => entry.2

/-- What is asked of the callers: new ids and an order's own side. -/
def Permitted (book : FIFOBook) : Call → Prop
  | .apply order =>
      ∀ other ∈ live book .buy ++ live book .sell, other.id ≠ order.id
  | .cancel orderId side =>
      ∀ other ∈ live book side.opposite, other.id ≠ orderId
  | .checkForTrades => True

instance (book : FIFOBook) (call : Call) : Decidable (Permitted book call) :=
  match call with
  | .apply _ => List.decidableBAll _ _
  | .cancel _ _ => List.decidableBAll _ _
  | .checkForTrades => instDecidableTrue

/-! ## The orders that stand -/

/-- A trade's order on a side. -/
def party (side : Side) (trade : Trade) : Order :=
  match side with
  | .buy => trade.bid
  | .sell => trade.ask

/-- What is left of an order after trading an amount of it. -/
def reduce (order : Order) (amount : Nat) : Order :=
  { order with size := order.size - amount }

/-- What trades leave of an order. -/
def settle (trades : List Trade) (order : Order) : Option Order :=
  remainder Order.size reduce
    (amountsOf Order.id order.id
      (trades.map fun trade => (party order.side trade, trade.quantity)))
    order

/-- The orders that stand behind a call, in the order of their arrival. -/
def record (standing : List Order) : Call × List Trade → List Order
  | (.apply order, _) => standing ++ [order]
  | (.cancel orderId _, _) => standing.filter (·.id ≠ orderId)
  | (.checkForTrades, trades) => standing.filterMap (settle trades)

/-- The orders that were applied, and neither cancelled nor traded away. -/
def standing (history : List (Call × List Trade)) : List Order :=
  history.foldl record []

theorem standing_concat
    (history : List (Call × List Trade)) (last : Call × List Trade) :
    standing (history ++ [last]) = record (standing history) last :=
  List.foldl_concat _ _ _ _

/-- An order belongs into the queue of a side and a price. -/
def standsAt (side : Side) (price : Nat) (order : Order) : Bool :=
  order.side = side && order.price = price

/-! ## What the book keeps -/

/-- The bucket of a price. -/
def queue (book : FIFOBook) (side : Side) (price : Nat) : List Order :=
  ((book.buckets side).priceBuckets.get price).getD []

/-- The orders in the order in which pops meet them. -/
def inPriority (book : FIFOBook) (side : Side) : List Order :=
  ((book.buckets side).scan side).flatMap (queue book side)

/-- The quantity resting on a side. -/
def resting (book : FIFOBook) (side : Side) : Nat :=
  ((live book side).map Order.size).sum

/-- The representation of a book on which these orders stand. -/
structure Kept (standing : List Order) (book : FIFOBook) : Prop where
  /-- They and no others are live, with their sides, prices and sizes. -/
  orders : (live book .buy ++ live book .sell).Perm standing
  once : (standing.map Order.id).Nodup
  /-- They are queued on their sides and at their prices as they arrived. -/
  queues : ∀ side price,
    queue book side price = standing.filter (standsAt side price)
  /-- The stored bounds bracket every live order of their side. -/
  bracketed : ∀ side, ∀ order ∈ live book side,
    (book.buckets side).minPrice ≤ order.price ∧
      order.price ≤ (book.buckets side).maxPrice
  /-- The index holds exactly their ids, with their prices. -/
  indexed : ∀ id price, book.orders.get id = some price ↔
    ∃ order ∈ standing, order.id = id ∧ order.price = price
  /-- Pops meet every live order, the best price first. -/
  reached : ∀ side, (inPriority book side).Perm (live book side)
  prices : ∀ side,
    (inPriority book side).Pairwise fun a b => side.atLeast a.price b.price

/-! ## What a check does -/

/-- A check on a book made these trades and left that book. -/
structure Matched (book : FIFOBook) (trades : List Trade) (next : FIFOBook) :
    Prop where
  /-- Both sides are filled from the front, each order as it then stood. -/
  fills : ∀ side, Served Order.size reduce (inPriority book side)
    (trades.map fun trade => (party side trade, trade.quantity))
    (inPriority next side)
  /-- What rested still rests or was traded. -/
  conserved : ∀ side, resting book side =
    resting next side + (trades.map Trade.quantity).sum
  uncrossed : ∀ bid ∈ live next .buy, ∀ ask ∈ live next .sell,
    bid.price < ask.price
  /-- At every price the orders left are the last ones, in their old order. -/
  positions : ∀ side price,
    (queue next side price).map Order.id <:+
      (queue book side price).map Order.id

/-! ## Buckets that represent a ladder -/

section Holding

variable {buckets : Buckets} {side : Side} {ladder : List LadderOrder}

/-- The scanned buckets make up the ladder. -/
theorem scan_flatMap (holds : Holds buckets side ladder) :
    ((buckets.scan side).flatMap fun price =>
        (buckets.priceBuckets.get price).getD []) =
      ladder.map (orderOf side) := by
  have levels : ((buckets.scan side).flatMap fun price =>
      (buckets.priceBuckets.get price).getD []) =
        ((buckets.scan side).flatMap fun price =>
          level price ladder).map (orderOf side) := by
    rw [List.map_flatMap]
    exact List.flatMap_congr fun price _ => holds.levels price
  rw [levels, flatMap_level (scan_sorted buckets side) holds.sorted]
  intro o member
  exact mem_scan.mpr (holds.bounds o member)

/-- The stored buckets hold the orders of the ladder. -/
theorem entries_perm (holds : Holds buckets side ladder) :
    (buckets.priceBuckets.entries.flatMap fun entry => entry.2).Perm
      (ladder.map (orderOf side)) := by
  have stored : (buckets.priceBuckets.entries.flatMap
      fun entry => entry.2) =
        (buckets.priceBuckets.keys.flatMap fun price =>
          level price ladder).map (orderOf side) := by
    rw [List.map_flatMap, AList.keys, List.keys, List.flatMap_map]
    refine List.flatMap_congr fun entry member => ?_
    have whole := holds.levels entry.1
    rwa [(HashMap.mem_entries _ _ _).mp member, Option.getD_some] at whole
  rw [stored]
  refine (flatMap_level_perm buckets.priceBuckets.keys_nodup ?_).map _
  intro o member
  have inLevel : o ∈ level o.price ladder := by simp [level, member]
  have whole := holds.levels o.price
  rw [← AList.mem_keys, ← AList.lookup_isSome]
  cases found : buckets.priceBuckets.get o.price with
  | none =>
      rw [found, Option.getD_none] at whole
      rw [List.map_eq_nil_iff.mp whole.symm] at inLevel
      cases inLevel
  | some bucket =>
      rw [show buckets.priceBuckets.lookup o.price = some bucket from found]
      rfl

end Holding

/-! ## Books that represent two ladders -/

/-- The ladder of a side. -/
def ladderOf (bids asks : List LadderOrder) : Side → List LadderOrder
  | .buy => bids
  | .sell => asks

section Represented

variable {book : FIFOBook} {bids asks : List LadderOrder}

theorem holds_side (represents : Represents book bids asks) (side : Side) :
    Holds (book.buckets side) side (ladderOf bids asks side) := by
  cases side with
  | buy => exact represents.bid
  | sell => exact represents.ask

theorem live_perm (represents : Represents book bids asks) (side : Side) :
    (live book side).Perm ((ladderOf bids asks side).map (orderOf side)) :=
  entries_perm (holds_side represents side)

theorem mem_live (represents : Represents book bids asks) {side : Side}
    {order : Order} :
    order ∈ live book side ↔
      ∃ o ∈ ladderOf bids asks side, orderOf side o = order := by
  rw [(live_perm represents side).mem_iff, List.mem_map]

theorem queue_eq
    (represents : Represents book bids asks) (side : Side) (price : Nat) :
    queue book side price =
      (level price (ladderOf bids asks side)).map (orderOf side) :=
  (holds_side represents side).levels price

theorem inPriority_eq
    (represents : Represents book bids asks) (side : Side) :
    inPriority book side =
      (ladderOf bids asks side).map (orderOf side) :=
  scan_flatMap (holds_side represents side)

theorem queue_ids
    (represents : Represents book bids asks) (side : Side) (price : Nat) :
    (queue book side price).map Order.id =
      (level price (ladderOf bids asks side)).map Resting.id := by
  rw [queue_eq represents, List.map_map]
  rfl

theorem resting_eq (represents : Represents book bids asks) (side : Side) :
    resting book side =
      ((inPriority book side).map Order.size).sum := by
  rw [inPriority_eq represents]
  exact ((live_perm represents side).map Order.size).sum_eq

/-- The orders of both ladders. -/
def ladderOrders (bids asks : List LadderOrder) : List Order :=
  bids.map (orderOf .buy) ++ asks.map (orderOf .sell)

theorem mem_ladderOrders {order : Order} :
    order ∈ ladderOrders bids asks ↔
      ∃ side, ∃ o ∈ ladderOf bids asks side, orderOf side o = order := by
  rw [ladderOrders, List.mem_append, List.mem_map, List.mem_map]
  constructor
  · rintro (bid | ask)
    · exact ⟨.buy, bid⟩
    · exact ⟨.sell, ask⟩
  · rintro ⟨side, member⟩
    cases side with
    | buy => exact Or.inl member
    | sell => exact Or.inr member

theorem ids_ladderOrders (bids asks : List LadderOrder) :
    (ladderOrders bids asks).map Order.id = (bids ++ asks).map Resting.id := by
  rw [ladderOrders, List.map_append, List.map_append, List.map_map,
    List.map_map]
  rfl

/-- The live orders of both sides are those of the two ladders. -/
theorem live_ladderOrders (represents : Represents book bids asks) :
    (live book .buy ++ live book .sell).Perm (ladderOrders bids asks) :=
  (live_perm represents .buy).append (live_perm represents .sell)

/-- A level, in the book's own orders. -/
theorem map_level
    (side : Side) (price : Nat) (ladder : List LadderOrder) :
    (level price ladder).map (orderOf side) =
      (ladder.map (orderOf side)).filter (standsAt side price) := by
  have own : (standsAt side price ∘ orderOf side) =
      fun o => decide (o.price = price) := by
    funext o
    cases side <;> rfl
  rw [List.filter_map, own]
  rfl

/-- Orders of a side stand in no queue of the other one. -/
theorem filter_opposite
    (side : Side) (price : Nat) (ladder : List LadderOrder) :
    (ladder.map (orderOf side.opposite)).filter (standsAt side price) =
      [] := by
  rw [List.filter_eq_nil_iff]
  intro order member
  obtain ⟨o, -, rfl⟩ := List.mem_map.mp member
  cases side <;> exact Bool.false_ne_true

/-- Of the orders of both ladders a level has those of its side and price. -/
theorem filter_standsAt
    (bids asks : List LadderOrder) (side : Side) (price : Nat) :
    (ladderOrders bids asks).filter (standsAt side price) =
      (level price (ladderOf bids asks side)).map (orderOf side) := by
  rw [ladderOrders, List.filter_append, map_level]
  cases side with
  | buy =>
      have none_ := filter_opposite .buy price asks
      exact (congrArg _ none_).trans (List.append_nil _)
  | sell =>
      have none_ := filter_opposite .sell price bids
      exact (congrArg (· ++ _) none_).trans (List.nil_append _)

theorem indexed (represents : Represents book bids asks)
    (id : OrderId) (price : Nat) :
    book.orders.get id = some price ↔
      ∃ order ∈ ladderOrders bids asks,
        order.id = id ∧ order.price = price := by
  rw [represents.index id, Option.map_eq_some_iff]
  constructor
  · rintro ⟨o, found, rfl⟩
    have own := lookup_id found
    rcases List.mem_append.mp (mem_of_lookup found) with bid | ask
    · exact ⟨_, mem_ladderOrders.mpr ⟨.buy, o, bid, rfl⟩, own, rfl⟩
    · exact ⟨_, mem_ladderOrders.mpr ⟨.sell, o, ask, rfl⟩, own, rfl⟩
  · rintro ⟨order, member, rfl, rfl⟩
    obtain ⟨side, o, inLadder, rfl⟩ := mem_ladderOrders.mp member
    refine ⟨o, (lookup_eq_some_iff represents.distinct).mpr ⟨?_, rfl⟩, rfl⟩
    cases side with
    | buy => exact List.mem_append_left _ inLadder
    | sell => exact List.mem_append_right _ inLadder

/-- The levels of both ladders are the standing orders as they arrived. -/
def Queued
    (standing : List Order) (bids asks : List LadderOrder) : Prop :=
  ∀ side price, (level price (ladderOf bids asks side)).map (orderOf side) =
    standing.filter (standsAt side price)

variable {standing : List Order}

/-- Every standing order is on a ladder, and none else is. -/
theorem Queued.perm (queued : Queued standing bids asks) :
    (ladderOrders bids asks).Perm standing := by
  rw [List.perm_iff_count]
  intro order
  have own : standsAt order.side order.price order = true := by
    simp [standsAt]
  have split := List.count_filter (l := ladderOrders bids asks) own
  rw [filter_standsAt, queued, List.count_filter own] at split
  exact split.symm

/-- A book that represents the standing orders keeps its representation. -/
theorem kept
    (represents : Represents book bids asks)
    (queued : Queued standing bids asks) : Kept standing book where
  orders := (live_ladderOrders represents).trans queued.perm
  once := by
    rw [← (queued.perm.map Order.id).nodup_iff, ids_ladderOrders]
    exact represents.distinct
  queues side price := by
    rw [queue_eq represents]
    exact queued side price
  bracketed side order member := by
    rcases (mem_live represents).mp member with ⟨o, inLadder, rfl⟩
    exact (holds_side represents side).bounds o inLadder
  indexed id price := by
    rw [indexed represents]
    simp only [queued.perm.mem_iff]
  reached side := by
    rw [inPriority_eq represents]
    exact (live_perm represents side).symm
  prices side := by
    rw [inPriority_eq represents, List.pairwise_map]
    exact (holds_side represents side).sorted

end Represented

/-! ## One call -/

/-- A book that represents the standing orders. -/
def Follows (standing : List Order) (book : FIFOBook) : Prop :=
  ∃ bids asks, Represents book bids asks ∧ Queued standing bids asks

section Queues

variable {standing : List Order} {bids asks : List LadderOrder}
  {side : Side} {ladder : List LadderOrder} {price : Nat}

/-- A new order stands at the back of its level. -/
theorem level_arrived
    (own : (level price ladder).map (orderOf side) =
      standing.filter (standsAt side price))
    (sorted : Sorted side ladder) (o : LadderOrder) :
    (level price (enqueue side o ladder)).map (orderOf side) =
      (standing ++ [orderOf side o]).filter (standsAt side price) := by
  rw [List.filter_append, ← own, level_enqueue o sorted price]
  by_cases here : o.price = price
  · rw [if_pos here, List.map_append]
    simp [standsAt, FifoBookSpec.orderOf, here]
  · rw [if_neg here]
    simp [standsAt, FifoBookSpec.orderOf, here]

/-- A new order on the other side leaves a level alone. -/
theorem level_passed
    (own : (level price ladder).map (orderOf side) =
      standing.filter (standsAt side price))
    {order : Order} (other : order.side ≠ side) :
    (level price ladder).map (orderOf side) =
      (standing ++ [order]).filter (standsAt side price) := by
  rw [List.filter_append, ← own]
  simp [standsAt, other]

/-- A cancel takes the named order from its level. -/
theorem Queued.withdraw
    (queued : Queued standing bids asks) (id : OrderId) :
    Queued (standing.filter (·.id ≠ id)) (withdraw id bids)
      (withdraw id asks) := by
  intro side price
  have out : level price (ladderOf (Lib.PriceTime.withdraw id bids)
      (Lib.PriceTime.withdraw id asks) side) =
        (level price (ladderOf bids asks side)).filter (·.id ≠ id) := by
    cases side <;> exact List.filter_comm _ _ _
  rw [out, List.filter_comm _ _ standing, ← queued, List.filter_map]
  rfl

/-- An id that no ladder has is not withdrawn. -/
theorem withdraw_dead
    {id : OrderId} (dead : id ∉ (bids ++ asks).map Resting.id) :
    withdraw id bids = bids ∧ withdraw id asks = asks := by
  rw [List.map_append, List.mem_append, not_or] at dead
  exact ⟨withdraw_eq_self dead.1, withdraw_eq_self dead.2⟩

/-- At every price the orders left are the last ones. -/
theorem level_suffix
    {taken : List (LadderOrder × Nat)} {left : List LadderOrder}
    (served : Served Resting.qty cut ladder taken left) (price : Nat) :
    (level price left).map Resting.id <:+
      (level price ladder).map Resting.id :=
  @Served.suffix _ _ _ _ _ _ _ served Resting.id (fun _ _ => rfl)
    (fun o => decide (o.price = price)) fun _ _ => rfl

/-- Trades leave an order in its queue, if any of it. -/
theorem filter_settle
    (trades : List Trade) (side : Side) (price : Nat) (orders : List Order) :
    (orders.filterMap (settle trades)).filter (standsAt side price) =
      (orders.filter (standsAt side price)).filterMap (settle trades) := by
  rw [List.filter_filterMap, List.filterMap_filter]
  refine List.filterMap_congr fun order _ => ?_
  unfold settle remainder
  split
  · split <;> rfl
  · rw [Option.filter_some]
    rfl

/-- What is taken of an order adds up. -/
theorem additive_reduce : Additive Order.size reduce where
  zero _ := rfl
  add order a b := by
    unfold reduce
    rw [Nat.sub_sub]
  size_reduce _ _ := rfl

/-- A level behind a check is the level before it, settled. -/
theorem level_settled
    {trades : List Trade} {left : List LadderOrder}
    (fills : Served Order.size reduce (ladder.map (orderOf side))
      (trades.map fun trade => (party side trade, trade.quantity))
      (left.map (orderOf side)))
    (distinct : (ladder.map Resting.id).Nodup) (price : Nat) :
    (level price left).map (orderOf side) =
      ((level price ladder).map (orderOf side)).filterMap (settle trades) := by
  have ids : ((ladder.map (orderOf side)).map Order.id).Nodup := by
    rw [List.map_map]
    exact distinct
  have settled : left.map (orderOf side) =
      (ladder.map (orderOf side)).filterMap (settle trades) := by
    rw [fills.left_eq additive_reduce (fun _ _ => rfl) ids]
    refine List.filterMap_congr fun order member => ?_
    obtain ⟨o, -, rfl⟩ := List.mem_map.mp member
    rfl
  rw [map_level, map_level, settled, filter_settle]

end Queues

/-- The order without its side. -/
def bare (order : Order) : LadderOrder where
  id := order.id
  price := order.price
  qty := order.size

theorem orderOf_bare (order : Order) :
    orderOf order.side (bare order) = order :=
  rfl

section Stepping

variable {standing : List Order} {book : FIFOBook}
  {bids asks : List LadderOrder}

/-- The ids that no live order has are new to both ladders. -/
theorem not_mem_ladders (represents : Represents book bids asks)
    {id : OrderId}
    (unused : ∀ other ∈ live book .buy ++ live book .sell, other.id ≠ id) :
    id ∉ (bids ++ asks).map Resting.id := by
  rw [← ids_ladderOrders,
    ← ((live_ladderOrders represents).map Order.id).mem_iff]
  intro member
  rcases List.mem_map.mp member with ⟨other, inside, same⟩
  exact unused other inside same

theorem follows_apply (follows : Follows standing book) {order : Order}
    (unused : ∀ other ∈ live book .buy ++ live book .sell,
      other.id ≠ order.id) :
    Follows (standing ++ [order]) (book.apply order) := by
  rcases follows with ⟨bids, asks, represents, queued⟩
  have fresh := not_mem_ladders represents unused
  rw [← orderOf_bare order]
  cases order.side with
  | buy =>
      refine ⟨_, _, represents.applyBid (bare order) fresh, ?_⟩
      intro side price
      cases side with
      | buy =>
          exact level_arrived (queued .buy price) represents.bid.sorted
            (bare order)
      | sell => exact level_passed (queued .sell price) Side.noConfusion
  | sell =>
      refine ⟨_, _, represents.applyAsk (bare order) fresh, ?_⟩
      intro side price
      cases side with
      | buy => exact level_passed (queued .buy price) Side.noConfusion
      | sell =>
          exact level_arrived (queued .sell price) represents.ask.sorted
            (bare order)

/-- A cancel withdraws a live order of its side, or finds none. -/
theorem follows_cancel (follows : Follows standing book) {id : OrderId}
    {side : Side}
    (own : ∀ other ∈ live book side.opposite, other.id ≠ id) :
    Follows (standing.filter (·.id ≠ id)) (book.cancel id side).2 := by
  rcases follows with ⟨bids, asks, represents, queued⟩
  have withdrawn := queued.withdraw id
  by_cases resting : ∃ o ∈ ladderOf bids asks side, o.id = id
  · rcases resting with ⟨o, member, rfl⟩
    cases side with
    | buy =>
        rcases represents.cancelBid member with ⟨next, cancelled, left⟩
        rw [cancelled]
        exact ⟨_, _, left, withdrawn⟩
    | sell =>
        rcases represents.cancelAsk member with ⟨next, cancelled, left⟩
        rw [cancelled]
        exact ⟨_, _, left, withdrawn⟩
  · have dead : id ∉ (bids ++ asks).map Resting.id := by
      rw [← ids_ladderOrders]
      intro member
      rcases List.mem_map.mp member with ⟨order, inLadders, same⟩
      rcases mem_ladderOrders.mp inLadders with ⟨kind, o, inLadder, rfl⟩
      by_cases here : kind = side
      · exact resting ⟨o, here ▸ inLadder, same⟩
      · rw [Side.eq_opposite_of_ne here] at inLadder
        exact own (orderOf side.opposite o)
          ((mem_live represents).mpr ⟨o, inLadder, rfl⟩) same
    have ⟨bidsKept, asksKept⟩ := withdraw_dead dead
    rw [bidsKept, asksKept] at withdrawn
    rw [represents.cancel_dead dead side]
    exact ⟨bids, asks, represents, withdrawn⟩

/-- The ladders that a check leaves, each served from the front. -/
theorem crossed_served (bids asks : List LadderOrder) (side : Side) :
    let crossed := cross .buy bids asks
    Served Order.size reduce ((ladderOf bids asks side).map (orderOf side))
      ((crossed.trades.map tradeOf).map fun trade =>
        (party side trade, trade.quantity))
      ((ladderOf crossed.ours crossed.theirs side).map (orderOf side)) := by
  have both := cross_served Side.buy bids asks
  dsimp only at both ⊢
  rw [List.map_map]
  cases side with
  | buy =>
      have image := @Served.map _ _ _ _ _ _ _ Order.size reduce both.1
        (orderOf .buy) (fun _ => rfl) (fun _ _ => rfl)
      rwa [List.map_map] at image
  | sell =>
      have image := @Served.map _ _ _ _ _ _ _ Order.size reduce both.2
        (orderOf .sell) (fun _ => rfl) (fun _ _ => rfl)
      rwa [List.map_map] at image

/-- What a check leaves is what it did not take. -/
theorem reduce_size (order : Order) (amount : Nat)
    (less : amount < order.size) :
    (reduce order amount).size + amount = order.size :=
  Nat.sub_add_cancel (Nat.le_of_lt less)

/-- The identifiers of each ladder are unique. -/
theorem distinct_side (represents : Represents book bids asks) (side : Side) :
    ((ladderOf bids asks side).map Resting.id).Nodup := by
  have both := represents.distinct
  rw [Distinct, List.map_append] at both
  cases side with
  | buy => exact both.of_append_left
  | sell => exact both.of_append_right

/-- A check terminates without panicking, and what it does to the book. -/
theorem follows_check (follows : Follows standing book) :
    ∃ trades next, book.checkForTrades = some (trades, next) ∧
      Follows (standing.filterMap (settle trades)) next ∧
        Matched book trades next := by
  rcases follows with ⟨bids, asks, represents, queued⟩
  rcases represents.checkForTrades with ⟨next, checked, left⟩
  have served := cross_served Side.buy bids asks
  have fills := crossed_served bids asks
  have apart : Lib.OrderBook.Uncrossed Side.buy
      (cross Side.buy bids asks).ours (cross Side.buy bids asks).theirs :=
    uncrossed_cross represents.bid.sorted represents.ask.sorted
  dsimp only at served fills
  generalize cross Side.buy bids asks = crossed at *
  have sides : ∀ side, ∃ taken, Served Resting.qty cut
      (ladderOf bids asks side) taken
      (ladderOf crossed.ours crossed.theirs side) := by
    intro side
    cases side with
    | buy => exact ⟨_, served.1⟩
    | sell => exact ⟨_, served.2⟩
  refine ⟨_, next, checked, ⟨_, _, left, fun side price => ?_⟩, ?_⟩
  · rw [level_settled (fills side) (distinct_side represents side), queued,
      filter_settle]
  · simp only [← inPriority_eq represents, ← inPriority_eq left] at fills
    refine ⟨fills, ?_, ?_, ?_⟩
    · intro side
      have whole := (fills side).conserved reduce_size
      rwa [List.map_map, ← resting_eq represents, ← resting_eq left]
        at whole
    · intro bid inBids ask inAsks
      rcases (mem_live left).mp inBids with ⟨b, ours, rfl⟩
      rcases (mem_live left).mp inAsks with ⟨a, theirs, rfl⟩
      exact Nat.lt_of_not_le (apart b ours a theirs)
    · intro side price
      rcases sides side with ⟨taken, fromFront⟩
      rw [queue_ids represents, queue_ids left]
      exact level_suffix fromFront price

theorem follows_step {past : List (Call × List Trade)} {call : Call}
    (follows : Follows (FifoBookRuns.standing past) book)
    (permitted : Permitted book call) :
    ∃ next out, step book call = some (next, out) ∧
      Follows (FifoBookRuns.standing (past ++ out)) next := by
  cases call with
  | apply order =>
      refine ⟨_, _, rfl, ?_⟩
      rw [standing_concat]
      exact follows_apply follows permitted
  | cancel orderId side =>
      refine ⟨_, _, rfl, ?_⟩
      rw [standing_concat]
      exact follows_cancel follows permitted
  | checkForTrades =>
      rcases follows_check follows with ⟨trades, next, checked, left, _⟩
      refine ⟨next, [(.checkForTrades, trades)], ?_, ?_⟩
      · rw [step, checked]
        rfl
      · rw [standing_concat]
        exact left

end Stepping

/-! ## Runs -/

/-- Every call is in the history of its run. -/
theorem calls_of_run
    {book last : FIFOBook} {calls : List Call}
    {history : List (Call × List Trade)}
    (ran : run step book calls = some (last, history)) :
    history.map Prod.fst = calls := by
  induction calls generalizing book history with
  | nil =>
      cases ran
      rfl
  | cons call calls induction =>
      rw [run, Option.bind_eq_some_iff] at ran
      obtain ⟨⟨next, out⟩, stepped, rest⟩ := ran
      obtain ⟨⟨last, later⟩, ran, same⟩ := Option.map_eq_some_iff.mp rest
      cases same
      have own : out.map Prod.fst = [call] := by
        cases call with
        | apply order =>
            cases stepped
            rfl
        | cancel orderId side =>
            cases stepped
            rfl
        | checkForTrades =>
            obtain ⟨result, -, same⟩ := Option.map_eq_some_iff.mp stepped
            cases same
            rfl
      rw [List.map_append, own, induction ran]
      rfl

/--
After any permitted calls on an empty book it holds the orders that were
applied and neither cancelled nor traded away, each with its side, price and
what is left of it, in the order of arrival; and a check terminates, fills in
price then arrival order, conserves the quantity of each side, leaves no
crossing and keeps the queue positions.
-/
theorem calls_kept {calls : List Call}
    (permitted : Guarded step Permitted FIFOBook.new calls) :
    ∃ book history, run step FIFOBook.new calls = some (book, history) ∧
      history.map Prod.fst = calls ∧ Kept (standing history) book ∧
      ∃ trades next, book.checkForTrades = some (trades, next) ∧
        Matched book trades next := by
  have initial : Follows (standing []) FIFOBook.new :=
    ⟨[], [], represents_new, fun side price => by cases side <;> rfl⟩
  have ends := @run_history _ _ _ step Permitted
    (fun past book => Follows (standing past) book)
    (fun _ _ _ => follows_step) calls [] FIFOBook.new initial permitted
  rcases ends with ⟨book, history, ran, follows⟩
  rcases follows_check follows with ⟨trades, next, checked, _, matched⟩
  rcases follows with ⟨bids, asks, represents, queued⟩
  exact ⟨book, history, ran, calls_of_run ran, kept represents queued, trades,
    next, checked, matched⟩

/--
Two bids and two asks that cross, a cancel, and then one check: the check fills
one bid and one ask, and of the other bid four are left.
-/
theorem calls_kept_crossing :
    let calls : List Call :=
      [.apply ⟨1, 1, 100, 5, .buy⟩, .apply ⟨1, 2, 102, 3, .buy⟩,
        .apply ⟨2, 1, 99, 4, .sell⟩, .apply ⟨2, 2, 101, 6, .sell⟩,
        .cancel (2, 2) .sell, .checkForTrades]
    ∃ book history, run step FIFOBook.new calls = some (book, history) ∧
      Kept [⟨1, 1, 100, 4, .buy⟩] book ∧
      ∃ trades next, book.checkForTrades = some (trades, next) ∧
        Matched book trades next := by
  intro calls
  have ends : (run step FIFOBook.new calls).map (standing ·.2) =
      some [⟨1, 1, 100, 4, .buy⟩] := by
    decide +kernel
  obtain ⟨book, history, ran, -, holds, checks⟩ := @calls_kept calls (by
    refine ⟨by decide, ?_⟩
    rintro _ _ ⟨⟩
    refine ⟨by decide, ?_⟩
    rintro _ _ ⟨⟩
    refine ⟨by decide, ?_⟩
    rintro _ _ ⟨⟩
    refine ⟨by decide, ?_⟩
    rintro _ _ ⟨⟩
    refine ⟨by decide, ?_⟩
    rintro _ _ ⟨⟩
    exact ⟨trivial, fun _ _ _ => trivial⟩)
  rw [ran, Option.map_some, Option.some.injEq] at ends
  exact ⟨book, history, ran, ends ▸ holds, checks⟩

end MatchingBench.Pgellert.FifoBookRuns
