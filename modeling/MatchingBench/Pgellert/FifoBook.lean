import MatchingBench.Lib.Maps
import MatchingBench.Lib.PriceTime

/-!
# The patched FIFO book

`algos/book.rs` and `algos/optimised_fifo.rs` of the pgellert adapter: price
buckets with cached scan bounds, an index of live orders, and a matcher that
pops the heads of both sides and puts back what does not trade.  Sizes and
prices are the values of `u64`s.
-/

set_option autoImplicit false

namespace MatchingBench.Pgellert.FifoBook

open MatchingBench.Lib.Maps
open MatchingBench.Lib.PriceTime

/-! ## Orders -/

/-- `OrderId = (ClientId, SequenceNum)`. -/
abbrev OrderId := UInt64 × UInt64

/-- `u64::MAX`. -/
def u64Max : Nat := 2 ^ 64 - 1

/-- `Order`. -/
structure Order where
  clientId : UInt64
  seqNumber : UInt64
  price : Nat
  size : Nat
  side : Side
deriving DecidableEq, Repr

/-- `Order::id`. -/
def Order.id (order : Order) : OrderId :=
  (order.clientId, order.seqNumber)

/-- `Order::has_id`. -/
def Order.hasId (order : Order) (orderId : OrderId) : Bool :=
  (order.clientId, order.seqNumber) = orderId

/-- `Trade`: the orders as they were before the trade. -/
structure Trade where
  quantity : Nat
  ask : Order
  bid : Order
deriving DecidableEq, Repr

/-- The `(ask, bid)` pair of two orders of opposite sides. -/
def Order.askAndBid (self other : Order) : Option (Order × Order) :=
  match self.side, other.side with
  | .buy, .sell => some (other, self)
  | .sell, .buy => some (self, other)
  | _, _ => none

/-- `Order::merge`: the trade of two orders and what remains of one. -/
def Order.merge (self other : Order) : Option (Trade × Option Order) :=
  match self.askAndBid other with
  | none => none
  | some (ask, bid) =>
      if ask.price > bid.price then
        none
      else if ask.size = bid.size then
        some ({ quantity := ask.size, ask := ask, bid := bid }, none)
      else if ask.size > bid.size then
        some ({ quantity := bid.size, ask := ask, bid := bid },
          some { ask with size := ask.size - bid.size })
      else
        some ({ quantity := ask.size, ask := ask, bid := bid },
          some { bid with size := bid.size - ask.size })

/-! ## The book -/

/-- The buckets of one side with their cached scan bounds. -/
structure Buckets where
  priceBuckets : HashMap Nat (List Order)
  minPrice : Nat
  maxPrice : Nat

/-- `FIFOBook`, its fields grouped by side. -/
structure FIFOBook where
  ask : Buckets
  bid : Buckets
  orders : HashMap OrderId Nat

/-- A side's fields in `FIFOBook::new`. -/
def Buckets.new : Buckets where
  priceBuckets := ∅
  minPrice := u64Max
  maxPrice := 0

/-- `FIFOBook::new`. -/
def FIFOBook.new : FIFOBook where
  ask := Buckets.new
  bid := Buckets.new
  orders := ∅

/-- The fields of one side. -/
def FIFOBook.buckets (book : FIFOBook) : Side → Buckets
  | .buy => book.bid
  | .sell => book.ask

/-- Replace the fields of one side. -/
def FIFOBook.withBuckets
    (book : FIFOBook) (side : Side) (buckets : Buckets) : FIFOBook :=
  match side with
  | .buy => { book with bid := buckets }
  | .sell => { book with ask := buckets }

/-- The prices a pop scans: `min..=max`, downwards for bids. -/
def Buckets.scan (buckets : Buckets) (side : Side) : List Nat :=
  let prices := List.range' buckets.minPrice
    (buckets.maxPrice + 1 - buckets.minPrice)
  match side with
  | .buy => prices.reverse
  | .sell => prices

/-- Commit the scan bound to the price of the popped order. -/
def Buckets.commit (buckets : Buckets) (side : Side) (price : Nat) :
    Buckets :=
  match side with
  | .buy => { buckets with maxPrice := price }
  | .sell => { buckets with minPrice := price }

/-- The front of the bucket at a price, and the rest of that bucket. -/
def Buckets.front (buckets : Buckets) (price : Nat) :
    Option (Nat × Order × List Order) :=
  match buckets.priceBuckets.get price with
  | some (order :: orders) => some (price, order, orders)
  | _ => none

/-- Pop the front of the first scanned bucket that holds an order. -/
def Buckets.pop (buckets : Buckets) (side : Side) :
    Option Order × Buckets :=
  match (buckets.scan side).findSome? buckets.front with
  | some (price, order, orders) =>
      (some order,
        { buckets.commit side price with
          priceBuckets := buckets.priceBuckets.set price orders })
  | none => (none, buckets)

/-- `pop_bid`. -/
def FIFOBook.popBid (book : FIFOBook) : Option Order × FIFOBook :=
  let (order, bid) := book.bid.pop .buy
  (order, { book with bid := bid })

/-- `pop_ask`. -/
def FIFOBook.popAsk (book : FIFOBook) : Option Order × FIFOBook :=
  let (order, ask) := book.ask.pop .sell
  (order, { book with ask := ask })

/-- `FIFOBook::merge`: `Order::merge`, and finished orders leave the index. -/
def FIFOBook.merge (book : FIFOBook) (ask bid : Order) :
    Option (Trade × Option Order) × FIFOBook :=
  let result := ask.merge bid
  match result with
  | none => (none, book)
  | some (_, remainder) =>
      let finished (id : OrderId) : Bool :=
        remainder.elim true fun rem => !rem.hasId id
      let orders :=
        if finished ask.id then book.orders.remove ask.id else book.orders
      let orders :=
        if finished bid.id then orders.remove bid.id else orders
      (result, { book with orders := orders })

/-- Put an order at the front of its bucket. -/
def Buckets.pushFront (buckets : Buckets) (order : Order) : Buckets :=
  { buckets with
    priceBuckets := buckets.priceBuckets.set order.price
      (order :: (buckets.priceBuckets.get order.price).getD []) }

/-- `unpop`. -/
def FIFOBook.unpop (book : FIFOBook) (order : Order) : FIFOBook :=
  book.withBuckets order.side
    ((book.buckets order.side).pushFront order)

/-- One side's arm of `apply`: refresh the bounds and queue the order. -/
def Buckets.apply (buckets : Buckets) (order : Order) : Buckets where
  minPrice := min buckets.minPrice order.price
  maxPrice := max buckets.maxPrice order.price
  priceBuckets := buckets.priceBuckets.set order.price
    (match buckets.priceBuckets.get order.price with
    | none => [order]
    | some bucket => bucket ++ [order])

/-- `apply`. -/
def FIFOBook.apply (book : FIFOBook) (order : Order) : FIFOBook :=
  let indexed :=
    { book with
      orders :=
        book.orders.set (order.clientId, order.seqNumber) order.price }
  indexed.withBuckets order.side
    ((indexed.buckets order.side).apply order)

/--
The pair of pops before the loop and after an exact fill.  Without a pair, a
one-sided survivor is put back.
-/
def FIFOBook.popPair (book : FIFOBook) :
    Option (Order × Order) × FIFOBook :=
  let (bid, book) := book.popBid
  let (ask, book) := book.popAsk
  match bid, ask with
  | some bidNew, some askNew => (some (bidNew, askNew), book)
  | some bidNew, none => (none, book.unpop bidNew)
  | none, some askNew => (none, book.unpop askNew)
  | none, none => (none, book)

/-- How one iteration of the loop of `check_for_trades` ends. -/
inductive Iteration where
  | returned (trades : List Trade) (book : FIFOBook)
  | again (book : FIFOBook) (bid ask : Order) (trades : List Trade)
  /-- The `expect` on `merge` failed. -/
  | panicked

/-- One iteration of the loop of `check_for_trades`. -/
def FIFOBook.matchOnce
    (book : FIFOBook) (bid ask : Order) (trades : List Trade) : Iteration :=
  if ask.price > bid.price then
    .returned trades ((book.unpop bid).unpop ask)
  else
    match book.merge ask bid with
    | (none, _) => .panicked
    | (some (trade, remainder), book) =>
        let trades := trades ++ [trade]
        match remainder with
        | some rem =>
            match rem.side with
            | .buy =>
                match book.popAsk with
                | (some askNew, book) => .again book rem askNew trades
                | (none, book) => .returned trades (book.unpop rem)
            | .sell =>
                match book.popBid with
                | (some bidNew, book) => .again book bidNew rem trades
                | (none, book) => .returned trades (book.unpop rem)
        | none =>
            match book.popPair with
            | (some (bidNew, askNew), book) =>
                .again book bidNew askNew trades
            | (none, book) => .returned trades book

/--
The loop of `check_for_trades`, for at most `fuel` iterations.  `none` is a
panic or an exhausted fuel.
-/
def FIFOBook.matchLoop :
    Nat → FIFOBook → Order → Order → List Trade →
      Option (List Trade × FIFOBook)
  | 0, _, _, _, _ => none
  | fuel + 1, book, bid, ask, trades =>
      match book.matchOnce bid ask trades with
      | .returned trades book => some (trades, book)
      | .again book bid ask trades => matchLoop fuel book bid ask trades
      | .panicked => none

/-- `check_for_trades`, whose loop runs at most once per live order. -/
def FIFOBook.checkForTrades (book : FIFOBook) :
    Option (List Trade × FIFOBook) :=
  if book.bid.maxPrice < book.ask.minPrice then
    some ([], book)
  else
    match book.popPair with
    | (some (bid, ask), book) =>
        matchLoop book.orders.entries.length book bid ask []
    | (none, book) => some ([], book)

/-- `cancel`. -/
def FIFOBook.cancel (book : FIFOBook) (orderId : OrderId) (side : Side) :
    Bool × FIFOBook :=
  match book.orders.get orderId with
  | none => (false, book)
  | some price =>
      let book := { book with orders := book.orders.remove orderId }
      let sideBuckets := book.buckets side
      match sideBuckets.priceBuckets.get price with
      | none => (false, book)
      | some bucket =>
          match bucket.findIdx?
            fun order => (order.clientId, order.seqNumber) = orderId with
          | none => (false, book)
          | some index =>
              (true, book.withBuckets side
                { sideBuckets with
                  priceBuckets := sideBuckets.priceBuckets.set price
                    (bucket.eraseIdx index) })

/-! ## Queries -/

/-- The prices of the buckets that hold an order. -/
def Buckets.livePrices (buckets : Buckets) : List Nat :=
  (buckets.priceBuckets.entries.filter fun entry =>
    !entry.2.isEmpty).map Sigma.fst

/-- `best_bid`. -/
def FIFOBook.bestBid (book : FIFOBook) : Option Nat :=
  book.bid.livePrices.max?

/-- `best_ask`. -/
def FIFOBook.bestAsk (book : FIFOBook) : Option Nat :=
  book.ask.livePrices.min?

/-- `depth_at`; the sum of `u64`s wraps. -/
def FIFOBook.depthAt (book : FIFOBook) (price : Nat) (side : Side) :
    UInt64 :=
  match (book.buckets side).priceBuckets.get price with
  | some bucket => UInt64.ofNat (bucket.map Order.size).sum
  | none => 0

end MatchingBench.Pgellert.FifoBook
