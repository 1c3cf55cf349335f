import MatchingBench.Baselines.ExchangeCoreStage
import MatchingBench.Lib.Ladders
import MatchingBench.Reference
import Mathlib.Algebra.Order.BigOperators.Group.List

/-!
# A price-time book behind the adapter

An order book that behaves as the one the adapter is written for: it matches
by price and time, answers a cancel with the removed order and drops what an
IOC order leaves.  The results about all books are applied to it.
-/

set_option autoImplicit false

namespace MatchingBench.Baselines.ExchangeCorePriceTime

open MatchingBench.Api
open MatchingBench.Lib.PriceTime
open MatchingBench.Lib.OrderBook
open MatchingBench.Lib.Ladders
open MatchingBench.Lib.Runs
open MatchingBench.Baselines.ExchangeCore
open MatchingBench.Baselines.ExchangeCoreStage

/-- The side of an action. -/
def sideOfAction : OrderAction → Side
  | .bid => .buy
  | .ask => .sell

/-- The action of a side. -/
def actionOfSide : Side → OrderAction
  | .buy => .bid
  | .sell => .ask

/-- A command as it rests. -/
def restingOf (cmd : OrderCommand) : Resting Int64 Int64 where
  id := cmd.orderId
  price := cmd.price
  qty := cmd.size.toInt.toNat

/-- The event of a fill. -/
def tradeEvent (fill : Fill Int64 Int64) : MatcherTradeEvent where
  eventType := .trade
  price := fill.maker.price
  size := Int64.ofNat fill.qty
  matchedOrderId := fill.maker.id

/-- The event of what is dropped. -/
def rejectEvent (cmd : OrderCommand) (left : Nat) : MatcherTradeEvent where
  eventType := .reject
  price := cmd.price
  size := Int64.ofNat left
  matchedOrderId := 0

/-- What an order meets on the other side. -/
def swept (book : Book Int64 Int64) (cmd : OrderCommand) : Sweep Int64 Int64 :=
  sweep (sideOfAction cmd.action) cmd.price
    (book.ladder (sideOfAction cmd.action).opposite) cmd.size.toInt.toNat

/-- The events of an order with a new identifier. -/
def placedEvents (book : Book Int64 Int64) (cmd : OrderCommand) :
    List MatcherTradeEvent :=
  (swept book cmd).fills.map tradeEvent ++
    if cmd.orderType = .ioc ∧ (swept book cmd).left ≠ 0 then
      [rejectEvent cmd (swept book cmd).left]
    else []

/-- The book as the adapter sees it; a repeated identifier is rejected. -/
def priceTimeCore : Core where
  State := Book Int64 Int64
  newOrder book cmd :=
    if fresh : book.lookup (restingOf cmd).id = none then
      ((book.submit (sideOfAction cmd.action) (restingOf cmd)
          (cmd.orderType = .gtc) fresh).book,
        { cmd with
          resultCode := .success
          matcherEvent := placedEvents book cmd })
    else
      (book,
        { cmd with
          resultCode := .success
          matcherEvent := [rejectEvent cmd cmd.size.toInt.toNat] })
  cancelOrder book cmd :=
    match book.lookup cmd.orderId with
    | none => (book, { cmd with resultCode := .failure }, .failure)
    | some (side, order) =>
        (book.withdraw cmd.orderId,
          { cmd with
            action := actionOfSide side
            resultCode := .success
            matcherEvent :=
              [{ eventType := .reduce
                 price := order.price
                 size := Int64.ofNat order.qty
                 matchedOrderId := 0 }] },
          .success)

theorem tradesOf_placedEvents (book : Book Int64 Int64) (cmd : OrderCommand) :
    tradesOf (placedEvents book cmd) =
      (swept book cmd).fills.map tradeEvent := by
  have trades :
      ∀ evt ∈ (swept book cmd).fills.map tradeEvent,
        evt.eventType = .trade := by
    intro evt member
    obtain ⟨fill, -, rfl⟩ := List.mem_map.mp member
    rfl
  rw [placedEvents, tradesOf, List.filter_append,
    List.filter_eq_self.mpr (by simpa using trades)]
  split
  · exact List.append_nil _
  · exact List.append_nil _

section NewOrder

variable {book : Book Int64 Int64} {cmd : OrderCommand}
  (fresh : book.lookup (restingOf cmd).id = none)
include fresh

/-- The book behind an order with a new identifier. -/
theorem ladder_newOrder :
    Book.ladder (priceTimeCore.newOrder book cmd).1 =
      submitted book.ladder (sideOfAction cmd.action) (restingOf cmd)
        (cmd.orderType = .gtc) := by
  dsimp only [priceTimeCore]
  rw [dif_pos fresh]
  exact ladder_submit fresh

/-- Its trades. -/
theorem tradesOf_newOrder :
    tradesOf (priceTimeCore.newOrder book cmd).2.matcherEvent =
      (swept book cmd).fills.map tradeEvent := by
  dsimp only [priceTimeCore]
  rw [dif_pos fresh]
  exact tradesOf_placedEvents book cmd

end NewOrder

theorem priceTimeCore_reduces : Reduces priceTimeCore := by
  intro book cmd
  simp only [priceTimeCore]
  split
  · intro failed
    exact absurd failed CommandResultCode.noConfusion
  · intro _
    exact List.cons_ne_nil _ _

/-- The trades of an order add up to what it met. -/
theorem total_fills
    {fills : List (Fill Int64 Int64)} {bound : Nat} (small : bound < 2 ^ 63)
    (conserved : (fills.map Fill.qty).sum ≤ bound) :
    (∀ evt ∈ fills.map tradeEvent, 0 ≤ evt.size.toInt) ∧
      total (fills.map tradeEvent) = (fills.map Fill.qty).sum := by
  have size (fill : Fill Int64 Int64) (member : fill ∈ fills) :
      (tradeEvent fill).size.toInt = fill.qty := by
    have le : fill.qty ≤ (fills.map Fill.qty).sum :=
      List.le_sum_of_mem (List.mem_map_of_mem member)
    exact Int64.toInt_ofNat_of_lt (by omega)
  constructor
  · intro evt member
    obtain ⟨fill, inside, rfl⟩ := List.mem_map.mp member
    rw [size fill inside]
    exact Int.natCast_nonneg _
  · rw [total, List.map_map]
    congr 1
    apply List.map_congr_left
    intro fill member
    rw [Function.comp_apply, size fill member, Int.toNat_natCast]

theorem priceTimeCore_conserves : Conserves priceTimeCore := by
  intro book cmd nonneg
  have conserved := @sweep_conserves Int64 Int64 _
    (sideOfAction cmd.action) cmd.price
    (Book.ladder book (sideOfAction cmd.action).opposite)
    cmd.size.toInt.toNat
  have upper := cmd.size.toInt_lt
  by_cases fresh : Book.lookup book (restingOf cmd).id = none
  · obtain ⟨sizes, sum⟩ :=
      @total_fills (swept book cmd).fills cmd.size.toInt.toNat (by omega)
        (by simp only [swept]; omega)
    rw [tradesOf_newOrder fresh]
    refine ⟨sizes, ?_⟩
    rw [sum]
    simp only [swept]
    omega
  · dsimp only [priceTimeCore]
    rw [dif_neg fresh]
    exact ⟨List.forall_mem_nil _, Nat.zero_le _⟩

end MatchingBench.Baselines.ExchangeCorePriceTime
