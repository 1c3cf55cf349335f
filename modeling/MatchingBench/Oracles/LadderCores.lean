import MatchingBench.Oracles.CppOrderbook
import MatchingBench.Oracles.HroptatyrClob
import MatchingBench.Oracles.Llc993

/-!
# Engines that are their books

The least engines that satisfy what the three oracle adapters assume of
theirs.  Two of them are books under the client's identifiers; the third holds
ladders under handles it gives out once.
-/

set_option autoImplicit false

namespace MatchingBench.Oracles.LadderCores

open MatchingBench.Lib.PriceTime
open MatchingBench.Lib.OrderBook
open MatchingBench.Lib.Correspondence
open MatchingBench.Lib.Ladders
open MatchingBench.Lib.Levels
open MatchingBench.Reference

/-! ## cpp-orderbook -/

/-- A level of the engine in whole ticks. -/
def unscaledLevel (level : Nat × Nat) : Nat × Nat :=
  (level.1 / CppOrderbook.scale, level.2 / CppOrderbook.scale)

theorem unscaledLevel_scaledLevel (level : Nat × Nat) :
    unscaledLevel (CppOrderbook.scaledLevel level) = level :=
  Prod.ext (Nat.mul_div_cancel_left _ (by decide))
    (Nat.mul_div_cancel_left _ (by decide))

/-- A cpp-orderbook engine. -/
def cppOrderbook : CppOrderbook.Core where
  State := Book UInt64 Nat
  init := Book.empty
  addOrder book id side qty price flag :=
    if fresh : book.lookup (CppOrderbook.restingOrder id qty price).id = none
    then
      let submitted := book.submit side
        (CppOrderbook.restingOrder id qty price) (flag = .none) fresh
      (submitted.book,
        .new :: submitted.fills.map (CppOrderbook.tradeOf id))
    else
      (book, [.rejected])
  cancelOrder book id :=
    match book.lookup id with
    | some (_, o) => (book.withdraw id, [.canceled (UInt64.ofNat o.qty)])
    | none => (book, [.rejected])
  toString book :=
    BookDump.dump ((levels (book.ladder .buy)).map unscaledLevel)
      ((levels (book.ladder .sell)).map unscaledLevel)

theorem cppOrderbook_correct :
    cppOrderbook.Correct fun book => book.ladder where
  ladders_init := rfl
  addOrder book id side qty price flag absent _ _ := by
    have fresh :
        Book.lookup book (CppOrderbook.restingOrder id qty price).id = none :=
      not_not.mp (rests_ladder_iff.not.mp absent)
    dsimp only [cppOrderbook]
    rw [dif_pos fresh]
    exact ⟨ladder_submit fresh, rfl⟩
  cancelOrder book side o member := by
    have found := Book.lookup_eq_some_iff.mpr ⟨member, rfl⟩
    dsimp only [cppOrderbook]
    rw [found]
    exact ⟨rfl, rfl⟩
  cancelUnknown book id absent := by
    have missing := not_not.mp (rests_ladder_iff.not.mp absent)
    dsimp only [cppOrderbook]
    rw [missing]
    exact ⟨rfl, rfl⟩
  toString book bids asks buy sell _ := by
    dsimp only [cppOrderbook]
    rw [buy, sell, List.map_map, List.map_map]
    have whole : unscaledLevel ∘ CppOrderbook.scaledLevel = id :=
      funext unscaledLevel_scaledLevel
    rw [whole, List.map_id, List.map_id]

/-! ## hroptatyr/clob -/

/-- Ladders whose handles were all given out. -/
structure GivenLadders where
  ladders : Sides HroptatyrClob.Oid Int
  next : Nat
  given : ∀ oid, Rests ladders oid → oid.qid < next

/-- Trade an order. -/
def GivenLadders.cross
    (st : GivenLadders) (o : HroptatyrClob.Ord) : GivenLadders where
  ladders := crossed st.ladders o.sid o.lmt o.qty.dis.toNat
  next := st.next
  given oid rests := st.given oid (rests_crossed rests)

/-- The next handle, stamped with an order. -/
def GivenLadders.handle
    (st : GivenLadders) (o : HroptatyrClob.Ord) : HroptatyrClob.Oid where
  sid := o.sid
  prc := o.lmt
  qid := st.next
  usr := o.usr

/-- Queue an order under the next handle. -/
def GivenLadders.add
    (st : GivenLadders) (o : HroptatyrClob.Ord) : GivenLadders where
  ladders := queue st.ladders o.sid (o.resting (st.handle o))
  next := st.next + 1
  given oid rests := by
    rcases rests_queue rests with rfl | old
    · exact Nat.lt_succ_self _
    · exact Nat.lt_succ_of_lt (st.given oid old)

/-- Withdraw a handle. -/
def GivenLadders.del
    (st : GivenLadders) (oid : HroptatyrClob.Oid) : GivenLadders where
  ladders := withdrawn st.ladders oid
  next := st.next
  given other rests := by
    rcases rests with ⟨side, o, member, named⟩
    exact st.given other ⟨side, o, List.mem_of_mem_filter member, named⟩

/-- A hroptatyr/clob engine. -/
def hroptatyrClob : HroptatyrClob.Core where
  State := GivenLadders
  sizeofShadow := 48
  init :=
    { ladders := fun _ => []
      next := 0
      given := fun _ rests => by
        rcases rests with ⟨_, _, member, _⟩
        cases member }
  unxsOrder st o :=
    let swept := cross st.ladders o.sid o.lmt o.qty.dis.toNat
    (st.cross o, { o with qty := { dis := swept.left, hid := 0 } },
      swept.fills.map HroptatyrClob.executionOf)
  clobAdd st o := (st.add o, st.handle o)
  clobDel st oid := (st.del oid, 0)
  aggiter st side :=
    (levels (st.ladders side)).map fun entry =>
      (entry.1, { dis := entry.2, hid := 0 })

theorem hroptatyrClob_correct :
    hroptatyrClob.Correct GivenLadders.ladders where
  sizeofShadow := by decide
  ladders_init := rfl
  unxsOrder _ _ _ _ _ := ⟨rfl, rfl, rfl⟩
  clobAdd st _ _ _ :=
    ⟨fun rests => Nat.lt_irrefl _ (st.given _ rests), rfl, rfl, rfl, rfl⟩
  clobDel _ _ _ := ⟨rfl, Int.le_refl 0⟩
  aggiter _ _ _ := rfl

/-! ## llc993 -/

/-- A llc993 engine. -/
def llc993 : Llc993.Core where
  State := Book UInt64 Int64
  init := Book.empty
  newOrder book cmd :=
    if fresh : book.lookup cmd.resting.id = none then
      let submitted := book.submit cmd.action.side cmd.resting
        (cmd.orderType = .gtc) fresh
      (submitted.book, submitted.fills.map Llc993.tradeEvent)
    else
      (book, [])
  cancelOrder book orderId := book.withdraw orderId
  getOrderById book orderId :=
    (book.lookup orderId).map fun entry =>
      (entry.2.price, Llc993.actionOf entry.1)
  getL2Data book depth :=
    let bids := Llc993.l2Side depth (levels (book.ladder .buy))
    let asks := Llc993.l2Side depth (levels (book.ladder .sell))
    { bidPrices := bids.1
      bidVolumes := bids.2
      askPrices := asks.1
      askVolumes := asks.2 }

theorem llc993_correct : llc993.Correct fun book => book.ladder where
  ladders_init := rfl
  newOrder book cmd absent _ _ := by
    have fresh : Book.lookup book cmd.resting.id = none :=
      not_not.mp (rests_ladder_iff.not.mp absent)
    dsimp only [llc993]
    rw [dif_pos fresh]
    refine ⟨ladder_submit fresh, ?_⟩
    exact List.filter_eq_self.mpr fun ev member => by
      rcases List.mem_map.mp member with ⟨fill, _, rfl⟩
      rfl
  cancelOrder _ _ _ := rfl
  getOrderById book side o member := by
    have found := Book.lookup_eq_some_iff.mpr ⟨member, rfl⟩
    dsimp only [llc993]
    rw [found]
    rfl
  getOrderUnknown book orderId absent := by
    have missing := not_not.mp (rests_ladder_iff.not.mp absent)
    dsimp only [llc993]
    rw [missing]
    rfl
  getL2Data _ _ _ := ⟨rfl, rfl⟩

end MatchingBench.Oracles.LadderCores
