import MatchingBench.Pgellert.FifoBook
import MatchingBench.Lib.Crossing

/-!
# What the FIFO book does

The buckets of a side represent a price-time ladder, the index holds exactly
the live orders, and `check_for_trades` crosses the two ladders.  Nothing is
assumed about how many crossing orders were applied before the check.
-/

set_option autoImplicit false

namespace MatchingBench.Pgellert.FifoBookSpec

open MatchingBench.Lib.Maps
open MatchingBench.Lib.PriceTime
open MatchingBench.Lib.Crossing (cross Crossed)
open MatchingBench.Pgellert.FifoBook

/-- An order of a ladder, without its side. -/
abbrev LadderOrder := Resting OrderId Nat

/-- The book's record of a ladder order. -/
def orderOf (side : Side) (o : LadderOrder) : Order where
  clientId := o.id.1
  seqNumber := o.id.2
  price := o.price
  size := o.qty
  side := side

/-- The book's record of a trade. -/
def tradeOf (trade : Lib.Crossing.Trade OrderId Nat) : Trade where
  quantity := trade.qty
  ask := orderOf .sell trade.theirs
  bid := orderOf .buy trade.ours

@[simp]
theorem id_orderOf (side : Side) (o : LadderOrder) :
    (orderOf side o).id = o.id :=
  rfl

/-! ## One side -/

/--
The buckets of a side represent a ladder: each bucket is the level at its
price, and the bounds bracket every live order.
-/
structure Holds
    (buckets : Buckets) (side : Side) (ladder : List LadderOrder) :
    Prop where
  sorted : Sorted side ladder
  levels : ∀ price, (buckets.priceBuckets.get price).getD [] =
    (level price ladder).map (orderOf side)
  bounds : ∀ o ∈ ladder,
    buckets.minPrice ≤ o.price ∧ o.price ≤ buckets.maxPrice

/-- The buckets represent a ladder whose first order has been popped. -/
structure InHand
    (buckets : Buckets) (side : Side) (o : LadderOrder)
    (ladder : List LadderOrder) : Prop where
  holds : Holds buckets side ladder
  first : ∀ r ∈ ladder, side.atLeast o.price r.price
  bounds : buckets.minPrice ≤ o.price ∧ o.price ≤ buckets.maxPrice

theorem holds_new (side : Side) : Holds Buckets.new side [] where
  sorted := List.Pairwise.nil
  levels price := by simp [Buckets.new, level]
  bounds o member := absurd member List.not_mem_nil

theorem mem_scan {buckets : Buckets} {side : Side} {price : Nat} :
    price ∈ buckets.scan side ↔
      buckets.minPrice ≤ price ∧ price ≤ buckets.maxPrice := by
  cases side <;>
    simp only [Buckets.scan, List.mem_reverse, List.mem_range'_1] <;>
    omega

/-- A scan goes from the best price to the worst. -/
theorem scan_sorted (buckets : Buckets) (side : Side) :
    (buckets.scan side).Pairwise fun p q => ¬side.atLeast q p := by
  have ascending : (List.range' buckets.minPrice
      (buckets.maxPrice + 1 - buckets.minPrice)).Pairwise (· < ·) :=
    List.pairwise_lt_range'
  cases side with
  | buy =>
      refine List.pairwise_reverse.mpr (ascending.imp ?_)
      intro p q less
      exact Nat.not_le_of_lt less
  | sell =>
      refine ascending.imp ?_
      intro p q less
      exact Nat.not_le_of_lt less

/-- An empty level has no front. -/
theorem Holds.front_of_level_nil
    {buckets : Buckets} {side : Side} {ladder : List LadderOrder}
    (holds : Holds buckets side ladder) {price : Nat}
    (empty : level price ladder = []) : buckets.front price = none := by
  have whole := holds.levels price
  rw [empty, List.map_nil] at whole
  unfold Buckets.front
  cases found : buckets.priceBuckets.get price with
  | none => rfl
  | some bucket =>
      rw [found, Option.getD_some] at whole
      rw [whole]

/-- The front of a level is its first order. -/
theorem Holds.front_of_level_cons
    {buckets : Buckets} {side : Side} {ladder : List LadderOrder}
    (holds : Holds buckets side ladder) {price : Nat} {o : LadderOrder}
    {later : List LadderOrder} (here : level price ladder = o :: later) :
    buckets.front price =
      some (price, orderOf side o, later.map (orderOf side)) := by
  have whole := holds.levels price
  rw [here, List.map_cons] at whole
  unfold Buckets.front
  cases found : buckets.priceBuckets.get price with
  | none =>
      rw [found, Option.getD_none] at whole
      cases whole
  | some bucket =>
      rw [found, Option.getD_some] at whole
      rw [whole]

/-- A pop from an empty ladder finds nothing and commits nothing. -/
theorem Holds.pop_nil
    {buckets : Buckets} {side : Side} (holds : Holds buckets side []) :
    buckets.pop side = (none, buckets) := by
  have nothing : (buckets.scan side).findSome? buckets.front = none := by
    rw [List.findSome?_eq_none_iff]
    intro price _
    exact holds.front_of_level_nil rfl
  rw [Buckets.pop, nothing]

/-- A pop takes the first order of the ladder. -/
theorem Holds.pop_cons
    {buckets : Buckets} {side : Side} {o : LadderOrder}
    {ladder : List LadderOrder} (holds : Holds buckets side (o :: ladder)) :
    ∃ next, buckets.pop side = (some (orderOf side o), next) ∧
      InHand next side o ladder := by
  have tail := List.pairwise_cons.mp holds.sorted
  have here :
      level o.price (o :: ladder) = o :: level o.price ladder := by
    simp [level]
  have found :
      (buckets.scan side).findSome? buckets.front =
        some (o.price, orderOf side o,
          (level o.price ladder).map (orderOf side)) := by
    obtain ⟨better, worse, split⟩ := List.append_of_mem
      (mem_scan.mpr (holds.bounds o List.mem_cons_self) :
        o.price ∈ buckets.scan side)
    rw [List.findSome?_eq_some_iff]
    refine ⟨better, o.price, worse, split,
      holds.front_of_level_cons here, ?_⟩
    intro price before
    have scanned := scan_sorted buckets side
    rw [split, List.pairwise_append] at scanned
    have above := scanned.2.2 price before o.price List.mem_cons_self
    refine holds.front_of_level_nil
      (level_eq_nil fun r member equal => above ?_)
    rw [← equal]
    rcases List.mem_cons.mp member with rfl | member
    · exact Side.atLeast_refl side r.price
    · exact tail.1 r member
  refine ⟨_, by rw [Buckets.pop, found], ?_⟩
  have inside := holds.bounds o List.mem_cons_self
  constructor
  · constructor
    · exact tail.2
    · intro price
      simp only [HashMap.get_set]
      by_cases same : price = o.price
      · subst same
        rw [Function.update_self, Option.getD_some]
      · rw [Function.update_of_ne same, holds.levels price]
        have other : ¬o.price = price := fun equal => same equal.symm
        simp [level, other]
    · intro r member
      have bounds := holds.bounds r (List.mem_cons_of_mem _ member)
      have behind := tail.1 r member
      cases side with
      | buy => exact ⟨bounds.1, behind⟩
      | sell => exact ⟨behind, bounds.2⟩
  · exact tail.1
  · cases side with
    | buy => exact ⟨inside.1, Nat.le_refl _⟩
    | sell => exact ⟨Nat.le_refl _, inside.2⟩

/-- Putting a popped order back restores the ladder. -/
theorem InHand.pushFront
    {buckets : Buckets} {side : Side} {o : LadderOrder}
    {ladder : List LadderOrder} (hand : InHand buckets side o ladder) :
    Holds (buckets.pushFront (orderOf side o)) side (o :: ladder) where
  sorted := List.pairwise_cons.mpr ⟨hand.first, hand.holds.sorted⟩
  levels price := by
    simp only [Buckets.pushFront, HashMap.get_set]
    by_cases same : price = (orderOf side o).price
    · subst same
      rw [Function.update_self, Option.getD_some, hand.holds.levels]
      simp [level, orderOf]
    · rw [Function.update_of_ne same, hand.holds.levels price]
      have other : ¬o.price = price := fun equal => same equal.symm
      simp [level, other]
  bounds r member := by
    rcases List.mem_cons.mp member with rfl | member
    · exact hand.bounds
    · exact hand.holds.bounds r member

/-- A partial fill leaves the popped order at the front. -/
theorem InHand.withQty
    {buckets : Buckets} {side : Side} {o : LadderOrder}
    {ladder : List LadderOrder} (hand : InHand buckets side o ladder)
    (qty : Nat) : InHand buckets side { o with qty := qty } ladder :=
  ⟨hand.holds, hand.first, hand.bounds⟩

/-- `apply` queues the order behind those of its price. -/
theorem Holds.apply
    {buckets : Buckets} {side : Side} {ladder : List LadderOrder}
    (holds : Holds buckets side ladder) (o : LadderOrder) :
    Holds (buckets.apply (orderOf side o)) side
      (enqueue side o ladder) where
  sorted := sorted_enqueue o holds.sorted
  levels price := by
    rw [level_enqueue o holds.sorted price]
    simp only [Buckets.apply, HashMap.get_set]
    have whole := holds.levels price
    by_cases same : o.price = price
    · rw [if_pos same, List.map_append, ← whole]
      subst same
      rw [show (orderOf side o).price = o.price from rfl,
        Function.update_self, Option.getD_some]
      cases buckets.priceBuckets.get o.price <;> rfl
    · have other : price ≠ (orderOf side o).price :=
        fun equal => same equal.symm
      rw [if_neg same, ← whole, Function.update_of_ne other]
  bounds r member := by
    simp only [Buckets.apply]
    rcases mem_enqueue.mp member with rfl | member
    · exact ⟨Nat.min_le_right _ _, Nat.le_max_right _ _⟩
    · have bounds := holds.bounds r member
      exact ⟨Nat.le_trans (Nat.min_le_left _ _) bounds.1,
        Nat.le_trans bounds.2 (Nat.le_max_left _ _)⟩

/-! ## The index -/

/-- The index holds exactly the live orders, with their prices. -/
def Indexes (orders : HashMap OrderId Nat) (live : List LadderOrder) :
    Prop :=
  ∀ id, orders.get id = (lookup live id).map Resting.price

theorem Indexes.perm
    {orders : HashMap OrderId Nat} {live other : List LadderOrder}
    (indexes : Indexes orders live) (same : live.Perm other)
    (distinct : Distinct live) : Indexes orders other := by
  intro id
  rw [indexes id, lookup_perm same distinct]

/-- A finished order leaves the index. -/
theorem Indexes.remove
    {orders : HashMap OrderId Nat} {live : List LadderOrder}
    {o : LadderOrder} (indexes : Indexes orders (o :: live))
    (fresh : o.id ∉ live.map Resting.id) :
    Indexes (orders.remove o.id) live := by
  intro id
  rw [HashMap.get_remove]
  by_cases same : id = o.id
  · subst same
    rw [Function.update_self, lookup_eq_none_iff.mpr fresh]
    rfl
  · rw [Function.update_of_ne same, indexes id, lookup_cons,
      Function.update_of_ne same]

/-- A new order joins the index. -/
theorem Indexes.insert
    {orders : HashMap OrderId Nat} {live : List LadderOrder}
    (indexes : Indexes orders live) (o : LadderOrder) :
    Indexes (orders.set o.id o.price) (o :: live) := by
  intro id
  rw [HashMap.get_set, lookup_cons]
  by_cases same : id = o.id
  · subst same
    rw [Function.update_self, Function.update_self]
    rfl
  · rw [Function.update_of_ne same, Function.update_of_ne same, indexes id]

/-- The index does not record quantities. -/
theorem Indexes.withQty
    {orders : HashMap OrderId Nat} {live : List LadderOrder}
    {o : LadderOrder} (indexes : Indexes orders (o :: live)) (qty : Nat) :
    Indexes orders ({ o with qty := qty } :: live) := by
  intro id
  rw [indexes id, lookup_cons, lookup_cons]
  by_cases same : id = o.id
  · subst same
    rw [Function.update_self, Function.update_self]
    rfl
  · rw [Function.update_of_ne same, Function.update_of_ne same]

/-- The index has one entry for each live order. -/
theorem Indexes.length
    {orders : HashMap OrderId Nat} {live : List LadderOrder}
    (indexes : Indexes orders live) (distinct : Distinct live) :
    orders.entries.length = live.length := by
  have keys : orders.keys.Perm (live.map Resting.id) := by
    rw [List.perm_ext_iff_of_nodup orders.keys_nodup distinct]
    intro id
    rw [← AList.mem_keys, ← AList.lookup_isSome,
      show orders.lookup id = orders.get id from rfl, indexes id,
      Option.isSome_map]
    cases found : lookup live id with
    | none => simpa using lookup_eq_none_iff.mp found
    | some o =>
        simp only [Option.isSome_some, true_iff]
        exact lookup_id found ▸ List.mem_map_of_mem (mem_of_lookup found)
  have lengths := keys.length_eq
  rwa [List.length_map, AList.keys, List.keys, List.length_map] at lengths

/-! ## Both sides -/

/-- The book represents two ladders. -/
structure Represents
    (book : FIFOBook) (bids asks : List LadderOrder) : Prop where
  bid : Holds book.bid .buy bids
  ask : Holds book.ask .sell asks
  index : Indexes book.orders (bids ++ asks)
  distinct : Distinct (bids ++ asks)

/-- The book represents two ladders whose first orders are in hand. -/
structure PairInHand
    (book : FIFOBook) (bid ask : LadderOrder)
    (bids asks : List LadderOrder) : Prop where
  bidHeld : InHand book.bid .buy bid bids
  askHeld : InHand book.ask .sell ask asks
  index : Indexes book.orders (bid :: ask :: (bids ++ asks))
  distinct : Distinct (bid :: ask :: (bids ++ asks))

theorem represents_new : Represents FIFOBook.new [] [] where
  bid := holds_new .buy
  ask := holds_new .sell
  index id := by simp [FIFOBook.new]
  distinct := List.nodup_nil

/-- The first orders in front of their ladders, or in hand. -/
theorem pair_perm (bid ask : LadderOrder) (bids asks : List LadderOrder) :
    (bid :: ask :: (bids ++ asks)).Perm (bid :: bids ++ ask :: asks) := by
  rw [List.cons_append]
  exact (List.perm_middle.symm).cons bid

theorem Distinct.perm
    {left right : List LadderOrder} (distinct : Distinct left)
    (same : left.Perm right) : Distinct right :=
  (same.map Resting.id).nodup distinct

/-- Both orders in hand go back to the front of their ladders. -/
theorem PairInHand.unpop
    {book : FIFOBook} {bid ask : LadderOrder}
    {bids asks : List LadderOrder}
    (hand : PairInHand book bid ask bids asks) :
    Represents ((book.unpop (orderOf .buy bid)).unpop (orderOf .sell ask))
      (bid :: bids) (ask :: asks) where
  bid := hand.bidHeld.pushFront
  ask := hand.askHeld.pushFront
  index := hand.index.perm (pair_perm bid ask bids asks) hand.distinct
  distinct := Distinct.perm hand.distinct (pair_perm bid ask bids asks)

/-- `popPair` takes both first orders or leaves the book as it was. -/
theorem Represents.popPair
    {book : FIFOBook} {bids asks : List LadderOrder}
    (represents : Represents book bids asks) :
    (∃ bid bidsLater ask asksLater next,
      bids = bid :: bidsLater ∧ asks = ask :: asksLater ∧
        book.popPair =
          (some (orderOf .buy bid, orderOf .sell ask), next) ∧
        PairInHand next bid ask bidsLater asksLater) ∨
    ((bids = [] ∨ asks = []) ∧
      ∃ next, book.popPair = (none, next) ∧ Represents next bids asks) := by
  cases bids with
  | nil =>
      have noBid := represents.bid.pop_nil
      refine Or.inr ⟨Or.inl rfl, ?_⟩
      cases asks with
      | nil =>
          have noAsk := represents.ask.pop_nil
          refine ⟨book, ?_, represents⟩
          simp only [FIFOBook.popPair, FIFOBook.popBid, FIFOBook.popAsk,
            noBid, noAsk]
      | cons ask asks =>
          obtain ⟨next, popped, hand⟩ := represents.ask.pop_cons
          refine ⟨({ book with ask := next }).unpop (orderOf .sell ask),
            ?_, ?_⟩
          · simp only [FIFOBook.popPair, FIFOBook.popBid,
              FIFOBook.popAsk, noBid, popped]
          · exact ⟨represents.bid, hand.pushFront, represents.index,
              represents.distinct⟩
  | cons bid bids =>
      obtain ⟨nextBid, poppedBid, bidHand⟩ := represents.bid.pop_cons
      cases asks with
      | nil =>
          have noAsk := represents.ask.pop_nil
          refine Or.inr ⟨Or.inr rfl,
            ({ book with bid := nextBid }).unpop (orderOf .buy bid), ?_, ?_⟩
          · simp only [FIFOBook.popPair, FIFOBook.popBid,
              FIFOBook.popAsk, poppedBid, noAsk]
          · exact ⟨bidHand.pushFront, represents.ask, represents.index,
              represents.distinct⟩
      | cons ask asks =>
          obtain ⟨nextAsk, poppedAsk, askHand⟩ := represents.ask.pop_cons
          have order := (pair_perm bid ask bids asks).symm
          refine Or.inl ⟨bid, bids, ask, asks,
            { book with bid := nextBid, ask := nextAsk }, rfl, rfl, ?_,
            bidHand, askHand,
            represents.index.perm order represents.distinct,
            Distinct.perm represents.distinct order⟩
          simp only [FIFOBook.popPair, FIFOBook.popBid, FIFOBook.popAsk,
            poppedBid, poppedAsk]

/-! ## Merging the pair in hand -/

section Merging

variable {book : FIFOBook} {bid ask : LadderOrder}

/-- An exact fill finishes both orders. -/
theorem merge_exact
    (crosses : ask.price ≤ bid.price) (same : ask.qty = bid.qty) :
    book.merge (orderOf .sell ask) (orderOf .buy bid) =
      (some (tradeOf { ours := bid, theirs := ask, qty := ask.qty }, none),
        { book with orders := (book.orders.remove ask.id).remove bid.id }) := by
  simp [FIFOBook.merge, Order.merge, Order.askAndBid, orderOf, tradeOf,
    Order.id, Nat.not_lt.mpr crosses, same]

/-- A larger ask finishes the bid. -/
theorem merge_askRemains
    (crosses : ask.price ≤ bid.price) (more : bid.qty < ask.qty)
    (different : ask.id ≠ bid.id) :
    book.merge (orderOf .sell ask) (orderOf .buy bid) =
      (some (tradeOf { ours := bid, theirs := ask, qty := bid.qty },
          some (orderOf .sell { ask with qty := ask.qty - bid.qty })),
        { book with orders := book.orders.remove bid.id }) := by
  rcases ask with ⟨⟨askClient, askSeq⟩, askPrice, askQty⟩
  rcases bid with ⟨⟨bidClient, bidSeq⟩, bidPrice, bidQty⟩
  dsimp only at crosses more different ⊢
  rw [ne_eq, Prod.mk.injEq] at different
  have unequal : ¬askQty = bidQty := Nat.ne_of_gt more
  simp [FIFOBook.merge, Order.merge, Order.askAndBid, orderOf, tradeOf,
    Order.id, Order.hasId, Nat.not_lt.mpr crosses, more, unequal, different]

/-- A larger bid finishes the ask. -/
theorem merge_bidRemains
    (crosses : ask.price ≤ bid.price) (more : ask.qty < bid.qty)
    (different : ask.id ≠ bid.id) :
    book.merge (orderOf .sell ask) (orderOf .buy bid) =
      (some (tradeOf { ours := bid, theirs := ask, qty := ask.qty },
          some (orderOf .buy { bid with qty := bid.qty - ask.qty })),
        { book with orders := book.orders.remove ask.id }) := by
  rcases ask with ⟨⟨askClient, askSeq⟩, askPrice, askQty⟩
  rcases bid with ⟨⟨bidClient, bidSeq⟩, bidPrice, bidQty⟩
  dsimp only at crosses more different ⊢
  have other := different.symm
  rw [ne_eq, Prod.mk.injEq] at other
  have unequal : ¬askQty = bidQty := Nat.ne_of_lt more
  simp [FIFOBook.merge, Order.merge, Order.askAndBid, orderOf, tradeOf,
    Order.id, Order.hasId, Nat.not_lt.mpr crosses, unequal, other,
    Nat.not_lt_of_lt more]

end Merging

/-! ## The matching loop -/

section Loop

variable {book : FIFOBook} {bid ask : LadderOrder}
  {bids asks : List LadderOrder}

theorem PairInHand.bid_fresh (hand : PairInHand book bid ask bids asks) :
    bid.id ∉ (ask :: (bids ++ asks)).map Resting.id :=
  (List.nodup_cons.mp hand.distinct).1

theorem PairInHand.ask_fresh (hand : PairInHand book bid ask bids asks) :
    ask.id ∉ (bid :: (bids ++ asks)).map Resting.id := by
  have swapped := Distinct.perm hand.distinct
    (List.Perm.swap ask bid (bids ++ asks))
  exact (List.nodup_cons.mp swapped).1

theorem PairInHand.different (hand : PairInHand book bid ask bids asks) :
    ask.id ≠ bid.id :=
  fun equal => hand.ask_fresh (equal ▸ List.mem_cons_self)

/-- After an exact fill neither order is live. -/
theorem PairInHand.exact (hand : PairInHand book bid ask bids asks) :
    Represents
      { book with orders := (book.orders.remove ask.id).remove bid.id }
      bids asks where
  bid := hand.bidHeld.holds
  ask := hand.askHeld.holds
  index := by
    have swapped := hand.index.perm (List.Perm.swap ask bid (bids ++ asks))
      hand.distinct
    have without := swapped.remove hand.ask_fresh
    refine without.remove fun member => hand.bid_fresh ?_
    exact List.mem_cons_of_mem _ member
  distinct := hand.distinct.tail.tail

/-- The bid is finished and the ask keeps the rest. -/
theorem PairInHand.askRemains
    (hand : PairInHand book bid ask bids asks) (qty : Nat) :
    InHand book.ask .sell { ask with qty := qty } asks ∧
      Holds book.bid .buy bids ∧
      Indexes (book.orders.remove bid.id)
        ({ ask with qty := qty } :: (bids ++ asks)) ∧
      Distinct ({ ask with qty := qty } :: (bids ++ asks)) :=
  ⟨hand.askHeld.withQty qty, hand.bidHeld.holds,
    (hand.index.remove hand.bid_fresh).withQty qty, hand.distinct.tail⟩

/-- The ask is finished and the bid keeps the rest. -/
theorem PairInHand.bidRemains
    (hand : PairInHand book bid ask bids asks) (qty : Nat) :
    InHand book.bid .buy { bid with qty := qty } bids ∧
      Holds book.ask .sell asks ∧
      Indexes (book.orders.remove ask.id)
        ({ bid with qty := qty } :: (bids ++ asks)) ∧
      Distinct ({ bid with qty := qty } :: (bids ++ asks)) := by
  have swap := List.Perm.swap ask bid (bids ++ asks)
  have swapped := hand.index.perm swap hand.distinct
  exact ⟨hand.bidHeld.withQty qty, hand.askHeld.holds,
    (swapped.remove hand.ask_fresh).withQty qty,
    (Distinct.perm hand.distinct swap).tail⟩

/--
What one iteration leads to: the end of the crossing, or a shorter pair of
ladders with one trade done.
-/
def Advances
    (bid ask : LadderOrder) (bids asks : List LadderOrder)
    (trades : List Trade) : Iteration → Prop
  | .returned traded next =>
      let crossed := cross .buy (bid :: bids) (ask :: asks)
      traded = trades ++ crossed.trades.map tradeOf ∧
        Represents next crossed.ours crossed.theirs
  | .again next bidNew askNew traded =>
      ∃ bidHead askHead bidsLater asksLater trade,
        bidNew = orderOf .buy bidHead ∧ askNew = orderOf .sell askHead ∧
          traded = trades ++ [tradeOf trade] ∧
          PairInHand next bidHead askHead bidsLater asksLater ∧
          bidsLater.length + asksLater.length <
            bids.length + asks.length ∧
          cross .buy (bid :: bids) (ask :: asks) =
            let later :=
              cross .buy (bidHead :: bidsLater) (askHead :: asksLater)
            { later with trades := trade :: later.trades }
  | .panicked => False

/-- The bid remains in hand and the next ask, if any, joins it. -/
theorem PairInHand.advances_bidRemains
    (hand : PairInHand book bid ask bids asks)
    (crosses : ask.price ≤ bid.price) (more : ask.qty < bid.qty)
    (trades : List Trade) :
    Advances bid ask bids asks trades
      (book.matchOnce (orderOf .buy bid) (orderOf .sell ask) trades) := by
  obtain ⟨held, holds, index, distinct⟩ :=
    hand.bidRemains (bid.qty - ask.qty)
  have crossed :
      cross .buy (bid :: bids) (ask :: asks) =
        let later :=
          cross .buy ({ bid with qty := bid.qty - ask.qty } :: bids) asks
        { later with
          trades := { ours := bid, theirs := ask, qty := ask.qty } ::
            later.trades } := by
    rw [cross, if_pos (show Side.buy.atLeast bid.price ask.price from crosses),
      if_neg (Nat.ne_of_lt more), if_neg (Nat.not_lt_of_lt more)]
  rw [FIFOBook.matchOnce,
    if_neg (show ¬(orderOf .sell ask).price > (orderOf .buy bid).price
      from Nat.not_lt.mpr crosses),
    merge_bidRemains crosses more hand.different]
  cases asks with
  | nil =>
      simp only [FIFOBook.popAsk, holds.pop_nil]
      refine ⟨by rw [crossed]; simp [cross], ?_⟩
      rw [crossed]
      simp only [cross]
      exact ⟨held.pushFront, holds, index, distinct⟩
  | cons askNew asks =>
      obtain ⟨next, popped, askHeld⟩ := holds.pop_cons
      simp only [FIFOBook.popAsk, popped]
      have order :
          ({ bid with qty := bid.qty - ask.qty } ::
            (bids ++ askNew :: asks)).Perm
          ({ bid with qty := bid.qty - ask.qty } ::
            askNew :: (bids ++ asks)) :=
        List.perm_middle.cons _
      refine ⟨_, askNew, bids, asks, _, rfl, rfl, rfl,
        ⟨held, askHeld, index.perm order distinct,
          Distinct.perm distinct order⟩, ?_, crossed⟩
      simp

/-- The ask remains in hand and the next bid, if any, joins it. -/
theorem PairInHand.advances_askRemains
    (hand : PairInHand book bid ask bids asks)
    (crosses : ask.price ≤ bid.price) (more : bid.qty < ask.qty)
    (trades : List Trade) :
    Advances bid ask bids asks trades
      (book.matchOnce (orderOf .buy bid) (orderOf .sell ask) trades) := by
  obtain ⟨held, holds, index, distinct⟩ :=
    hand.askRemains (ask.qty - bid.qty)
  have crossed :
      cross .buy (bid :: bids) (ask :: asks) =
        let later :=
          cross .buy bids ({ ask with qty := ask.qty - bid.qty } :: asks)
        { later with
          trades := { ours := bid, theirs := ask, qty := bid.qty } ::
            later.trades } := by
    rw [cross, if_pos (show Side.buy.atLeast bid.price ask.price from crosses),
      if_neg (Nat.ne_of_gt more), if_pos more]
  rw [FIFOBook.matchOnce,
    if_neg (show ¬(orderOf .sell ask).price > (orderOf .buy bid).price
      from Nat.not_lt.mpr crosses),
    merge_askRemains crosses more hand.different]
  cases bids with
  | nil =>
      simp only [FIFOBook.popBid, holds.pop_nil]
      refine ⟨by rw [crossed]; simp [cross], ?_⟩
      rw [crossed]
      simp only [cross]
      exact ⟨holds, held.pushFront, index, distinct⟩
  | cons bidNew bids =>
      obtain ⟨next, popped, bidHeld⟩ := holds.pop_cons
      simp only [FIFOBook.popBid, popped]
      have order :
          ({ ask with qty := ask.qty - bid.qty } ::
            (bidNew :: bids ++ asks)).Perm
          (bidNew ::
            { ask with qty := ask.qty - bid.qty } :: (bids ++ asks)) :=
        List.Perm.swap _ _ _
      refine ⟨bidNew, _, bids, asks, _, rfl, rfl, rfl,
        ⟨bidHeld, held, index.perm order distinct,
          Distinct.perm distinct order⟩, ?_, crossed⟩
      simp only [List.length_cons]
      omega

/-- Both orders are finished and the next pair, if any, is popped. -/
theorem PairInHand.advances_exact
    (hand : PairInHand book bid ask bids asks)
    (crosses : ask.price ≤ bid.price) (same : ask.qty = bid.qty)
    (trades : List Trade) :
    Advances bid ask bids asks trades
      (book.matchOnce (orderOf .buy bid) (orderOf .sell ask) trades) := by
  have crossed :
      cross .buy (bid :: bids) (ask :: asks) =
        let later := cross .buy bids asks
        { later with
          trades := { ours := bid, theirs := ask, qty := ask.qty } ::
            later.trades } := by
    rw [cross, if_pos (show Side.buy.atLeast bid.price ask.price from crosses),
      if_pos same]
  rw [FIFOBook.matchOnce,
    if_neg (show ¬(orderOf .sell ask).price > (orderOf .buy bid).price
      from Nat.not_lt.mpr crosses),
    merge_exact crosses same]
  rcases hand.exact.popPair with
    ⟨bidNew, bidsLater, askNew, asksLater, next, rfl, rfl, popped, held⟩ |
      ⟨oneSided, next, popped, represents⟩
  · simp only [popped]
    refine ⟨bidNew, askNew, bidsLater, asksLater, _, rfl, rfl, rfl, held,
      ?_, crossed⟩
    simp only [List.length_cons]
    omega
  · simp only [popped]
    have nothing :
        cross .buy bids asks =
          { trades := [], ours := bids, theirs := asks } := by
      rcases oneSided with rfl | rfl
      · simp [cross]
      · cases bids <;> simp [cross]
    rw [nothing] at crossed
    refine ⟨by rw [crossed]; rfl, ?_⟩
    rw [crossed]
    exact represents

theorem PairInHand.advances
    (hand : PairInHand book bid ask bids asks) (trades : List Trade) :
    Advances bid ask bids asks trades
      (book.matchOnce (orderOf .buy bid) (orderOf .sell ask) trades) := by
  by_cases crosses : ask.price ≤ bid.price
  · rcases Nat.lt_trichotomy ask.qty bid.qty with more | same | more
    · exact hand.advances_bidRemains crosses more trades
    · exact hand.advances_exact crosses same trades
    · exact hand.advances_askRemains crosses more trades
  · rw [FIFOBook.matchOnce,
      if_pos (show (orderOf .sell ask).price > (orderOf .buy bid).price
        from Nat.lt_of_not_le crosses)]
    have crossed :
        cross .buy (bid :: bids) (ask :: asks) =
          { trades := [], ours := bid :: bids, theirs := ask :: asks } := by
      rw [cross, if_neg
        (show ¬Side.buy.atLeast bid.price ask.price from crosses)]
    refine ⟨by rw [crossed]; simp, ?_⟩
    rw [crossed]
    exact hand.unpop

/--
From a pair in hand the loop crosses the two ladders, in at most one
iteration per order.
-/
theorem PairInHand.matchLoop
    {fuel : Nat} (hand : PairInHand book bid ask bids asks)
    (enough : bids.length + asks.length < fuel) (trades : List Trade) :
    let crossed := cross .buy (bid :: bids) (ask :: asks)
    ∃ next,
      FIFOBook.matchLoop fuel book (orderOf .buy bid) (orderOf .sell ask)
          trades =
        some (trades ++ crossed.trades.map tradeOf, next) ∧
      Represents next crossed.ours crossed.theirs := by
  induction fuel generalizing book bid ask bids asks trades with
  | zero => exact absurd enough (Nat.not_lt_zero _)
  | succ fuel induction =>
      have advances := hand.advances trades
      rw [FIFOBook.matchLoop]
      cases iteration :
          book.matchOnce (orderOf .buy bid) (orderOf .sell ask) trades with
      | panicked =>
          rw [iteration] at advances
          exact advances.elim
      | returned traded next =>
          rw [iteration] at advances
          obtain ⟨rfl, represents⟩ := advances
          exact ⟨next, rfl, represents⟩
      | again next bidNew askNew traded =>
          rw [iteration] at advances
          obtain ⟨bidHead, askHead, bidsLater, asksLater, trade, rfl, rfl,
            rfl, held, shorter, crossed⟩ := advances
          obtain ⟨last, looped, represents⟩ :=
            induction held (by omega) (trades ++ [tradeOf trade])
          refine ⟨last, ?_, ?_⟩
          · rw [crossed]
            simpa using looped
          · rw [crossed]
            exact represents

end Loop

/-! ## The operations -/

section Operations

variable {book : FIFOBook} {bids asks : List LadderOrder}

/--
`check_for_trades` terminates without panicking and crosses the ladders: the
same trades in the same order, and the same orders left in the same places.
-/
theorem Represents.checkForTrades
    (represents : Represents book bids asks) :
    let crossed := cross .buy bids asks
    ∃ next,
      book.checkForTrades = some (crossed.trades.map tradeOf, next) ∧
        Represents next crossed.ours crossed.theirs := by
  rw [FIFOBook.checkForTrades]
  split
  · rename_i apart
    have uncrossed : Lib.OrderBook.Uncrossed .buy bids asks := by
      intro bid inBids ask inAsks crosses
      have below := (represents.bid.bounds bid inBids).2
      have above := (represents.ask.bounds ask inAsks).1
      have reaches : ask.price ≤ bid.price := crosses
      omega
    rw [Lib.Crossing.cross_uncrossed uncrossed]
    exact ⟨book, rfl, represents⟩
  · rcases represents.popPair with
      ⟨bid, bidsLater, ask, asksLater, next, rfl, rfl, popped, held⟩ |
        ⟨oneSided, next, popped, kept⟩
    · have live := held.index.length held.distinct
      simp only [List.length_cons, List.length_append] at live
      simp only [popped]
      obtain ⟨last, looped, left⟩ := held.matchLoop
        (show bidsLater.length + asksLater.length <
          next.orders.entries.length by omega) []
      exact ⟨last, by simpa using looped, left⟩
    · simp only [popped]
      have nothing :
          cross .buy bids asks =
            { trades := [], ours := bids, theirs := asks } := by
        rcases oneSided with rfl | rfl
        · simp [cross]
        · cases bids <;> simp [cross]
      rw [nothing]
      exact ⟨next, rfl, kept⟩

/-- `apply` of a new bid. -/
theorem Represents.applyBid
    (represents : Represents book bids asks) (o : LadderOrder)
    (fresh : o.id ∉ (bids ++ asks).map Resting.id) :
    Represents (book.apply (orderOf .buy o)) (enqueue .buy o bids) asks := by
  have order : (o :: (bids ++ asks)).Perm (enqueue .buy o bids ++ asks) :=
    ((enqueue_perm .buy o bids).append_right asks).symm
  have distinct : Distinct (o :: (bids ++ asks)) :=
    List.nodup_cons.mpr ⟨fresh, represents.distinct⟩
  exact
    { bid := represents.bid.apply o
      ask := represents.ask
      index := (represents.index.insert o).perm order distinct
      distinct := Distinct.perm distinct order }

/-- `apply` of a new ask. -/
theorem Represents.applyAsk
    (represents : Represents book bids asks) (o : LadderOrder)
    (fresh : o.id ∉ (bids ++ asks).map Resting.id) :
    Represents (book.apply (orderOf .sell o)) bids
      (enqueue .sell o asks) := by
  have order : (o :: (bids ++ asks)).Perm (bids ++ enqueue .sell o asks) :=
    (List.perm_middle.symm).trans
      ((enqueue_perm .sell o asks).symm.append_left bids)
  have distinct : Distinct (o :: (bids ++ asks)) :=
    List.nodup_cons.mpr ⟨fresh, represents.distinct⟩
  exact
    { bid := represents.bid
      ask := represents.ask.apply o
      index := (represents.index.insert o).perm order distinct
      distinct := Distinct.perm distinct order }

/-- Removing the first order with an identifier withdraws it. -/
theorem eraseIdx_findIdx
    {orders : List LadderOrder} (distinct : Distinct orders)
    (side : Side) {id : OrderId} (member : id ∈ orders.map Resting.id) :
    ∃ index,
      (orders.map (orderOf side)).findIdx?
          (fun order => (order.clientId, order.seqNumber) = id) =
        some index ∧
      (orders.map (orderOf side)).eraseIdx index =
        (withdraw id orders).map (orderOf side) := by
  induction orders with
  | nil => simp at member
  | cons o orders induction =>
      have unique := List.nodup_cons.mp distinct
      by_cases here : o.id = id
      · subst here
        have first : ((orderOf side o).clientId,
            (orderOf side o).seqNumber) = o.id := rfl
        have rest : withdraw o.id (o :: orders) = orders := by
          rw [withdraw, List.filter_cons_of_neg (by simp)]
          exact withdraw_eq_self unique.1
        refine ⟨0, ?_, ?_⟩
        · simp only [List.map_cons, List.findIdx?_cons, first, decide_true,
            if_true]
        · rw [rest, List.map_cons, List.eraseIdx_cons_zero]
      · have later : id ∈ orders.map Resting.id := by
          rcases List.mem_cons.mp member with equal | later
          · exact absurd equal.symm here
          · exact later
        obtain ⟨index, found, erased⟩ := induction unique.2 later
        refine ⟨index + 1, ?_, ?_⟩
        · have other : ¬((orderOf side o).clientId,
              (orderOf side o).seqNumber) = id := here
          simp only [List.map_cons, List.findIdx?_cons, other,
            decide_false, Bool.false_eq_true, if_false, found]
          rfl
        · rw [List.map_cons, List.eraseIdx_cons_succ, erased]
          simp [withdraw, here]

/-- Removing an order from its bucket withdraws it from its ladder. -/
theorem Holds.withdraw
    {buckets : Buckets} {side : Side} {ladder : List LadderOrder}
    (holds : Holds buckets side ladder) (distinct : Distinct ladder)
    {o : LadderOrder} (member : o ∈ ladder) :
    ∃ bucket index,
      buckets.priceBuckets.get o.price = some bucket ∧
      bucket.findIdx?
          (fun order => (order.clientId, order.seqNumber) = o.id) =
        some index ∧
      Holds
        { buckets with
          priceBuckets :=
            buckets.priceBuckets.set o.price (bucket.eraseIdx index) }
        side (Lib.PriceTime.withdraw o.id ladder) := by
  have inLevel : o ∈ level o.price ladder := by
    simp [level, member]
  have distinctLevel : Distinct (level o.price ladder) :=
    (List.filter_sublist.map Resting.id).nodup distinct
  obtain ⟨index, found, erased⟩ := eraseIdx_findIdx distinctLevel side
    (List.mem_map_of_mem inLevel)
  have bucket :
      buckets.priceBuckets.get o.price =
        some ((level o.price ladder).map (orderOf side)) := by
    have whole := holds.levels o.price
    cases stored : buckets.priceBuckets.get o.price with
    | none =>
        rw [stored, Option.getD_none] at whole
        rw [List.map_eq_nil_iff.mp whole.symm] at inLevel
        cases inLevel
    | some orders =>
        rw [stored, Option.getD_some] at whole
        rw [whole]
  refine ⟨_, index, bucket, found, ?_, ?_, ?_⟩
  · exact holds.sorted.filter _
  · intro price
    simp only [HashMap.get_set]
    by_cases same : price = o.price
    · subst same
      rw [Function.update_self, Option.getD_some, erased]
      simp only [level, Lib.PriceTime.withdraw, List.filter_filter]
      congr 1
      exact List.filter_congr fun _ _ => Bool.and_comm _ _
    · rw [Function.update_of_ne same, holds.levels price]
      congr 1
      simp only [level, Lib.PriceTime.withdraw, List.filter_filter]
      refine List.filter_congr fun r inLadder => ?_
      by_cases here : r.price = price
      · have other : r.id ≠ o.id := by
          intro equal
          have identical :=
            List.inj_on_of_nodup_map distinct inLadder member equal
          exact same (here.symm.trans (congrArg Resting.price identical))
        simp [here, other]
      · simp [here]
  · intro r inRest
    exact holds.bounds r (List.mem_of_mem_filter inRest)

/-- Withdrawing one side's order leaves the other side alone. -/
theorem distinct_withdraw
    {left right : List LadderOrder} (distinct : Distinct (left ++ right))
    (id : OrderId) :
    Distinct (withdraw id left ++ withdraw id right) := by
  rw [withdraw, withdraw, ← List.filter_append]
  exact (List.filter_sublist.map Resting.id).nodup distinct

theorem Indexes.withdraw
    {orders : HashMap OrderId Nat} {left right : List LadderOrder}
    (indexes : Indexes orders (left ++ right)) (id : OrderId) :
    Indexes (orders.remove id)
      (Lib.PriceTime.withdraw id left ++
        Lib.PriceTime.withdraw id right) := by
  intro other
  rw [Lib.PriceTime.withdraw, Lib.PriceTime.withdraw,
    ← List.filter_append, HashMap.get_remove]
  rw [show (left ++ right).filter (·.id ≠ id) =
    Lib.PriceTime.withdraw id (left ++ right) from rfl, lookup_withdraw]
  by_cases same : other = id
  · subst same
    rw [Function.update_self, Function.update_self]
    rfl
  · rw [Function.update_of_ne same, Function.update_of_ne same,
      indexes other]

/-- `cancel` of an order on its own side withdraws it. -/
theorem Represents.cancelBid
    (represents : Represents book bids asks) {o : LadderOrder}
    (member : o ∈ bids) :
    ∃ next, book.cancel o.id .buy = (true, next) ∧
      Represents next (withdraw o.id bids) (withdraw o.id asks) := by
  have both := represents.distinct
  rw [Distinct, List.map_append] at both
  have found := (lookup_eq_some_iff represents.distinct).mpr
    ⟨List.mem_append_left asks member, rfl⟩
  have indexed : book.orders.get o.id = some o.price := by
    rw [represents.index o.id, found]
    rfl
  have absent : o.id ∉ asks.map Resting.id :=
    List.disjoint_of_nodup_append both (List.mem_map_of_mem member)
  obtain ⟨bucket, index, stored, position, holds⟩ :=
    represents.bid.withdraw (List.Nodup.of_append_left both) member
  refine ⟨
    { book with
      bid :=
        { book.bid with
          priceBuckets :=
            book.bid.priceBuckets.set o.price (bucket.eraseIdx index) }
      orders := book.orders.remove o.id }, ?_, ?_⟩
  · simp only [FIFOBook.cancel, indexed, FIFOBook.buckets, stored, position]
    rfl
  · exact
      { bid := holds
        ask := by
          rw [withdraw_eq_self absent]
          exact represents.ask
        index := represents.index.withdraw o.id
        distinct := distinct_withdraw represents.distinct o.id }

theorem Represents.cancelAsk
    (represents : Represents book bids asks) {o : LadderOrder}
    (member : o ∈ asks) :
    ∃ next, book.cancel o.id .sell = (true, next) ∧
      Represents next (withdraw o.id bids) (withdraw o.id asks) := by
  have both := represents.distinct
  rw [Distinct, List.map_append] at both
  have found := (lookup_eq_some_iff represents.distinct).mpr
    ⟨List.mem_append_right bids member, rfl⟩
  have indexed : book.orders.get o.id = some o.price := by
    rw [represents.index o.id, found]
    rfl
  have absent : o.id ∉ bids.map Resting.id := fun inBids =>
    List.disjoint_of_nodup_append both inBids (List.mem_map_of_mem member)
  obtain ⟨bucket, index, stored, position, holds⟩ :=
    represents.ask.withdraw (List.Nodup.of_append_right both) member
  refine ⟨
    { book with
      ask :=
        { book.ask with
          priceBuckets :=
            book.ask.priceBuckets.set o.price (bucket.eraseIdx index) }
      orders := book.orders.remove o.id }, ?_, ?_⟩
  · simp only [FIFOBook.cancel, indexed, FIFOBook.buckets, stored, position]
    rfl
  · exact
      { bid := by
          rw [withdraw_eq_self absent]
          exact represents.bid
        ask := holds
        index := represents.index.withdraw o.id
        distinct := distinct_withdraw represents.distinct o.id }

/-- `cancel` of an order that is not live changes nothing. -/
theorem Represents.cancel_dead
    (represents : Represents book bids asks) {id : OrderId}
    (dead : id ∉ (bids ++ asks).map Resting.id) (side : Side) :
    book.cancel id side = (false, book) := by
  have indexed : book.orders.get id = none := by
    rw [represents.index id, lookup_eq_none_iff.mpr dead]
    rfl
  rw [FIFOBook.cancel, indexed]

end Operations

/-! ## Submitting an aggressor -/

/-- The book represents the ladders of a side and of its opposite. -/
def RepresentsSides
    (book : FIFOBook) (side : Side) (ours theirs : List LadderOrder) :
    Prop :=
  match side with
  | .buy => Represents book ours theirs
  | .sell => Represents book theirs ours

/-- The book's record of a trade of an aggressor on `side`. -/
def tradeOfSide
    (side : Side) (trade : Lib.Crossing.Trade OrderId Nat) : Trade :=
  match side with
  | .buy => tradeOf trade
  | .sell => tradeOf trade.swap

theorem tradeOfSide_quantity
    (side : Side) (trade : Lib.Crossing.Trade OrderId Nat) :
    (tradeOfSide side trade).quantity = trade.qty := by
  cases side <;> rfl

section Submitting

variable {book : FIFOBook} {side : Side} {ours theirs : List LadderOrder}

/--
On a book that does not cross, applying a new order and checking for trades
is submitting it: the fills of its sweep, and its remainder in the ladder.
-/
theorem RepresentsSides.submit
    (represents : RepresentsSides book side ours theirs) (o : LadderOrder)
    (positive : 0 < o.qty)
    (uncrossed : Lib.OrderBook.Uncrossed side ours theirs)
    (fresh : o.id ∉ (ours ++ theirs).map Resting.id) :
    let swept := sweep side o.price theirs o.qty
    ∃ (next : FIFOBook) (trades : List (Lib.Crossing.Trade OrderId Nat)),
      (book.apply (orderOf side o)).checkForTrades =
          some (trades.map (tradeOfSide side), next) ∧
        trades.map Lib.Crossing.Trade.fill = swept.fills ∧
        (∀ trade ∈ trades, trade.ours.id = o.id) ∧
        RepresentsSides next side
          (Lib.OrderBook.settled side o swept.left true ours) swept.rest := by
  have sweeps := Lib.Crossing.cross_enqueue o positive uncrossed
  obtain ⟨fills, ids, oursLeft, theirsLeft⟩ := sweeps
  have rests :
      Lib.OrderBook.settled side o (sweep side o.price theirs o.qty).left
          true ours =
        (cross side (enqueue side o ours) theirs).ours := by
    rw [oursLeft]
    simp [Lib.OrderBook.settled]
  dsimp only
  rw [rests, ← theirsLeft]
  cases side with
  | buy =>
      obtain ⟨next, checked, left⟩ :=
        (Represents.applyBid represents o fresh).checkForTrades
      exact ⟨next, _, checked, fills, ids, left⟩
  | sell =>
      have freshToo : o.id ∉ (theirs ++ ours).map Resting.id := by
        rw [List.map_append, List.mem_append, or_comm, ← List.mem_append,
          ← List.map_append]
        exact fresh
      obtain ⟨next, checked, left⟩ :=
        (Represents.applyAsk represents o freshToo).checkForTrades
      have swapped :=
        Lib.Crossing.cross_swap .sell (enqueue .sell o ours) theirs
      rw [show Side.sell.opposite = .buy from rfl] at swapped
      rw [swapped] at checked left
      refine ⟨next, _, ?_, fills, ids, left⟩
      rw [checked, List.map_map]
      rfl

/-- `cancel` of a live order, given its own side, withdraws it. -/
theorem RepresentsSides.cancel
    (represents : RepresentsSides book side ours theirs) {o : LadderOrder}
    (member : o ∈ ours) :
    ∃ next, book.cancel o.id side = (true, next) ∧
      RepresentsSides next side (withdraw o.id ours)
        (withdraw o.id theirs) := by
  cases side with
  | buy => exact Represents.cancelBid represents member
  | sell => exact Represents.cancelAsk represents member

end Submitting

/-! ## The queries -/

section Queries

variable {buckets : Buckets} {side : Side} {ladder : List LadderOrder}

/-- The live prices are the prices of the ladder's orders. -/
theorem Holds.mem_livePrices
    (holds : Holds buckets side ladder) (price : Nat) :
    price ∈ buckets.livePrices ↔ ∃ o ∈ ladder, o.price = price := by
  have whole := holds.levels price
  simp only [Buckets.livePrices, List.mem_map, List.mem_filter]
  constructor
  · rintro ⟨⟨_, bucket⟩, ⟨stored, live⟩, rfl⟩
    rw [(HashMap.mem_entries _ _ _).mp stored, Option.getD_some] at whole
    have nonempty : bucket ≠ [] := by simpa using live
    rw [whole] at nonempty
    obtain ⟨o, inLevel⟩ := List.exists_mem_of_ne_nil _
      (fun empty => nonempty (by rw [empty]; rfl) :
        level _ ladder ≠ [])
    rw [level, List.mem_filter] at inLevel
    exact ⟨o, inLevel.1, by simpa using inLevel.2⟩
  · rintro ⟨o, member, rfl⟩
    have inLevel : o ∈ level o.price ladder := by
      simp [level, member]
    cases stored : buckets.priceBuckets.get o.price with
    | none =>
        rw [stored, Option.getD_none] at whole
        rw [List.map_eq_nil_iff.mp whole.symm] at inLevel
        cases inLevel
    | some bucket =>
        rw [stored, Option.getD_some] at whole
        refine ⟨⟨o.price, bucket⟩,
          ⟨(HashMap.mem_entries _ _ _).mpr stored, ?_⟩, rfl⟩
        have inBucket : orderOf side o ∈ bucket :=
          whole ▸ List.mem_map_of_mem inLevel
        cases bucket with
        | nil => cases inBucket
        | cons _ _ => rfl

/-- The live prices of an empty ladder. -/
theorem Holds.livePrices_nil
    (holds : Holds buckets side []) : buckets.livePrices = [] := by
  rw [List.eq_nil_iff_forall_not_mem]
  intro price live
  obtain ⟨o, member, _⟩ := (holds.mem_livePrices price).mp live
  cases member

/-- `best_bid` is the first bid's price. -/
theorem Holds.max_livePrices (holds : Holds buckets .buy ladder) :
    buckets.livePrices.max? = ladder.head?.map Resting.price := by
  cases ladder with
  | nil => rw [holds.livePrices_nil]; rfl
  | cons o ladder =>
      have tail := List.pairwise_cons.mp holds.sorted
      refine List.max?_eq_some_iff.mpr ⟨?_, ?_⟩
      · exact (holds.mem_livePrices o.price).mpr ⟨o, List.mem_cons_self, rfl⟩
      · intro price live
        obtain ⟨r, member, rfl⟩ := (holds.mem_livePrices price).mp live
        rcases List.mem_cons.mp member with rfl | member
        · exact Nat.le_refl _
        · exact tail.1 r member

/-- `best_ask` is the first ask's price. -/
theorem Holds.min_livePrices (holds : Holds buckets .sell ladder) :
    buckets.livePrices.min? = ladder.head?.map Resting.price := by
  cases ladder with
  | nil => rw [holds.livePrices_nil]; rfl
  | cons o ladder =>
      have tail := List.pairwise_cons.mp holds.sorted
      refine List.min?_eq_some_iff.mpr ⟨?_, ?_⟩
      · exact (holds.mem_livePrices o.price).mpr ⟨o, List.mem_cons_self, rfl⟩
      · intro price live
        obtain ⟨r, member, rfl⟩ := (holds.mem_livePrices price).mp live
        rcases List.mem_cons.mp member with rfl | member
        · exact Nat.le_refl _
        · exact tail.1 r member

/-- The bucket of a price, if any, is the level there. -/
theorem Holds.sum_sizes
    (holds : Holds buckets side ladder) (price : Nat) :
    (((buckets.priceBuckets.get price).getD []).map Order.size).sum =
      ((level price ladder).map Resting.qty).sum := by
  rw [holds.levels price, List.map_map]
  rfl

end Queries

end MatchingBench.Pgellert.FifoBookSpec
