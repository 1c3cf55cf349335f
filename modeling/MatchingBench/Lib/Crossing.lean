import MatchingBench.Lib.OrderBook
import MatchingBench.Lib.Serving

/-!
# Crossing two ladders

A matcher that first queues an order and then trades the heads of the two
ladders against each other until they no longer cross.  On a book that was
uncrossed before the order came in, this is the order's sweep.
-/

set_option autoImplicit false

namespace MatchingBench.Lib.Crossing

open MatchingBench.Lib.PriceTime
open MatchingBench.Lib.OrderBook
open MatchingBench.Lib.Serving

variable {ι π : Type} [LinearOrder π]

/-- A trade between the heads of two ladders, as they stood before it. -/
structure Trade (ι π : Type) where
  ours : Resting ι π
  theirs : Resting ι π
  qty : Nat
deriving DecidableEq, Repr

/-- The trades of two crossing ladders and what is left of each. -/
structure Crossed (ι π : Type) where
  trades : List (Trade ι π)
  ours : List (Resting ι π)
  theirs : List (Resting ι π)
deriving DecidableEq, Repr

/-- Trade the heads of two ladders until they do not cross. -/
def cross (side : Side) :
    List (Resting ι π) → List (Resting ι π) → Crossed ι π
  | [], theirs => { trades := [], ours := [], theirs := theirs }
  | o :: ours, [] => { trades := [], ours := o :: ours, theirs := [] }
  | o :: ours, t :: theirs =>
      if side.atLeast o.price t.price then
        if t.qty = o.qty then
          let later := cross side ours theirs
          { later with
            trades := { ours := o, theirs := t, qty := t.qty } ::
              later.trades }
        else if o.qty < t.qty then
          let later :=
            cross side ours ({ t with qty := t.qty - o.qty } :: theirs)
          { later with
            trades := { ours := o, theirs := t, qty := o.qty } ::
              later.trades }
        else
          let later :=
            cross side ({ o with qty := o.qty - t.qty } :: ours) theirs
          { later with
            trades := { ours := o, theirs := t, qty := t.qty } ::
              later.trades }
      else
        { trades := [], ours := o :: ours, theirs := t :: theirs }
termination_by ours theirs => ours.length + theirs.length

/-- The same trade seen from the other side. -/
def Trade.swap (trade : Trade ι π) : Trade ι π where
  ours := trade.theirs
  theirs := trade.ours
  qty := trade.qty

/-- Crossing is symmetric. -/
theorem cross_swap
    (side : Side) (ours theirs : List (Resting ι π)) :
    cross side.opposite theirs ours =
      { trades := (cross side ours theirs).trades.map Trade.swap
        ours := (cross side ours theirs).theirs
        theirs := (cross side ours theirs).ours } := by
  fun_induction cross side ours theirs with
  | case1 theirs => cases theirs <;> simp [cross]
  | case2 o ours => simp [cross]
  | case3 o ours t theirs crosses same later induction =>
      have sameQty : o.qty = t.qty := same.symm
      rw [cross, if_pos (Side.opposite_atLeast.mpr crosses),
        if_pos sameQty, induction]
      simp [Trade.swap, sameQty, later]
  | case4 o ours t theirs crosses different fewer later induction =>
      have flipped : ¬o.qty = t.qty := fun equal => different equal.symm
      rw [cross, if_pos (Side.opposite_atLeast.mpr crosses),
        if_neg flipped, if_neg (Nat.not_lt_of_lt fewer), induction]
      simp [Trade.swap, later]
  | case5 o ours t theirs crosses different more later induction =>
      have flipped : ¬o.qty = t.qty := fun equal => different equal.symm
      have fewer : t.qty < o.qty := by omega
      rw [cross, if_pos (Side.opposite_atLeast.mpr crosses),
        if_neg flipped, if_pos fewer, induction]
      simp [Trade.swap, later]
  | case6 o ours t theirs apart =>
      have apartToo : ¬side.opposite.atLeast t.price o.price :=
        fun crosses => apart (Side.opposite_atLeast.mp crosses)
      rw [cross, if_neg apartToo]
      rfl

/-- Ladders that do not cross trade nothing. -/
theorem cross_uncrossed
    {side : Side} {ours theirs : List (Resting ι π)}
    (uncrossed : Uncrossed side ours theirs) :
    cross side ours theirs =
      { trades := [], ours := ours, theirs := theirs } := by
  cases ours with
  | nil => simp [cross]
  | cons o ours =>
      cases theirs with
      | nil => simp [cross]
      | cons t theirs =>
          rw [cross, if_neg
            (uncrossed o List.mem_cons_self t List.mem_cons_self)]

/-- What is left of an order after trading an amount of it. -/
def cut (o : Resting ι π) (amount : Nat) : Resting ι π :=
  { o with qty := o.qty - amount }

/-- Both ladders are served from the front. -/
theorem cross_served (side : Side) (ours theirs : List (Resting ι π)) :
    let crossed := cross side ours theirs
    Served Resting.qty cut ours
        (crossed.trades.map fun trade => (trade.ours, trade.qty))
        crossed.ours ∧
      Served Resting.qty cut theirs
        (crossed.trades.map fun trade => (trade.theirs, trade.qty))
        crossed.theirs := by
  fun_induction cross side ours theirs with
  | case1 theirs => exact ⟨Served.idle _, Served.idle _⟩
  | case2 o ours => exact ⟨Served.idle _, Served.idle _⟩
  | case3 o ours t theirs crosses same later induction =>
      have first := @Served.whole _ Resting.qty cut o _ _ _ induction.1
      rw [← same] at first
      exact ⟨first, Served.whole induction.2⟩
  | case4 o ours t theirs crosses different fewer later induction =>
      exact ⟨Served.whole induction.1, Served.part fewer induction.2⟩
  | case5 o ours t theirs crosses different more later induction =>
      have fewer := Nat.lt_of_le_of_ne (Nat.le_of_not_lt more) different
      exact ⟨Served.part fewer induction.1, Served.whole induction.2⟩
  | case6 o ours t theirs apart =>
      exact ⟨Served.idle _, Served.idle _⟩

/-- A change of quantity leaves a ladder sorted. -/
theorem sorted_withQty
    {side : Side} {o : Resting ι π} {orders : List (Resting ι π)}
    (sorted : Sorted side (o :: orders)) (qty : Nat) :
    Sorted side ({ o with qty := qty } :: orders) := by
  have parts := List.pairwise_cons.mp sorted
  exact List.pairwise_cons.mpr ⟨parts.1, parts.2⟩

/-- What is left of two sorted ladders does not cross. -/
theorem uncrossed_cross
    {side : Side} {ours theirs : List (Resting ι π)}
    (sortedOurs : Sorted side ours)
    (sortedTheirs : Sorted side.opposite theirs) :
    Uncrossed side (cross side ours theirs).ours
      (cross side ours theirs).theirs := by
  fun_induction cross side ours theirs with
  | case1 theirs => exact List.forall_mem_nil _
  | case2 o ours => exact fun _ _ => List.forall_mem_nil _
  | case3 o ours t theirs crosses same later induction =>
      exact induction sortedOurs.of_cons sortedTheirs.of_cons
  | case4 o ours t theirs crosses different fewer later induction =>
      exact induction sortedOurs.of_cons (sorted_withQty sortedTheirs _)
  | case5 o ours t theirs crosses different more later induction =>
      exact induction (sorted_withQty sortedOurs _) sortedTheirs.of_cons
  | case6 o ours t theirs apart =>
      intro other inOurs opponent inTheirs crosses
      have ahead : side.atLeast o.price other.price := by
        rcases List.mem_cons.mp inOurs with rfl | later
        · exact Side.atLeast_refl side _
        · exact (List.pairwise_cons.mp sortedOurs).1 other later
      have behind : side.atLeast opponent.price t.price := by
        rcases List.mem_cons.mp inTheirs with rfl | later
        · exact Side.atLeast_refl side _
        · exact Side.opposite_atLeast.mp
            ((List.pairwise_cons.mp sortedTheirs).1 opponent later)
      exact apart (Side.atLeast_trans ahead
        (Side.atLeast_trans crosses behind))

/-- The maker's part of a trade. -/
def Trade.fill (trade : Trade ι π) : Fill ι π where
  maker := trade.theirs
  qty := trade.qty

/--
An order at the head of a ladder that is otherwise uncrossed trades as a
sweep.
-/
theorem cross_head
    {side : Side} (order : Resting ι π) {ours makers : List (Resting ι π)}
    (positive : 0 < order.qty) (uncrossed : Uncrossed side ours makers) :
    let crossed := cross side (order :: ours) makers
    let swept := sweep side order.price makers order.qty
    crossed.trades.map Trade.fill = swept.fills ∧
      (∀ trade ∈ crossed.trades, trade.ours.id = order.id) ∧
      crossed.ours =
        (if swept.left ≠ 0 then { order with qty := swept.left } :: ours
        else ours) ∧
      crossed.theirs = swept.rest := by
  induction makers generalizing order with
  | nil => simp [cross, sweep, Nat.ne_of_gt positive]
  | cons maker makers induction =>
      have later : Uncrossed side ours makers := fun o inOurs t inMakers =>
        uncrossed o inOurs t (List.mem_cons_of_mem _ inMakers)
      by_cases crosses : side.atLeast order.price maker.price
      · have goes :
            ¬(order.qty = 0 ∨ ¬side.atLeast order.price maker.price) := by
          simp [crosses, Nat.ne_of_gt positive]
        rcases Nat.lt_trichotomy maker.qty order.qty with less | same | more
        · obtain ⟨fills, ids, oursLeft, theirsLeft⟩ := induction
            { order with qty := order.qty - maker.qty } (Nat.sub_pos_of_lt less)
            later
          rw [cross, if_pos crosses, if_neg (Nat.ne_of_lt less),
            if_neg (Nat.not_lt_of_lt less), sweep, if_neg goes,
            if_pos (Nat.le_of_lt less)]
          refine ⟨?_, ?_, oursLeft, theirsLeft⟩
          · simp only [List.map_cons, fills]
            rfl
          · intro trade member
            rcases List.mem_cons.mp member with rfl | member
            · rfl
            · exact ids trade member
        · rw [cross, if_pos crosses, if_pos same, cross_uncrossed later,
            sweep, if_neg goes, if_pos (Nat.le_of_eq same), same,
            Nat.sub_self, sweep_zero]
          simp [Trade.fill]
        · have still : Uncrossed side ours
              ({ maker with qty := maker.qty - order.qty } :: makers) := by
            intro o inOurs t inMakers
            rcases List.mem_cons.mp inMakers with rfl | inMakers
            · exact uncrossed o inOurs maker List.mem_cons_self
            · exact later o inOurs t inMakers
          rw [cross, if_pos crosses, if_neg (Nat.ne_of_gt more),
            if_pos more, cross_uncrossed still, sweep, if_neg goes,
            if_neg (Nat.not_le_of_lt more)]
          simp [Trade.fill]
      · rw [cross, if_neg crosses, sweep, if_pos (Or.inr crosses)]
        simp [Nat.ne_of_gt positive]

/--
Queueing an order on an uncrossed book and crossing the ladders is submitting
it: the same fills, and the remainder where the order was queued.
-/
theorem cross_enqueue
    {side : Side} (order : Resting ι π) {ours makers : List (Resting ι π)}
    (positive : 0 < order.qty) (uncrossed : Uncrossed side ours makers) :
    let crossed := cross side (enqueue side order ours) makers
    let swept := sweep side order.price makers order.qty
    crossed.trades.map Trade.fill = swept.fills ∧
      (∀ trade ∈ crossed.trades, trade.ours.id = order.id) ∧
      crossed.ours =
        (if swept.left ≠ 0 then
          enqueue side { order with qty := swept.left } ours
        else
          ours) ∧
      crossed.theirs = swept.rest := by
  cases ours with
  | nil => exact cross_head order positive uncrossed
  | cons first later =>
      by_cases behind : side.atLeast first.price order.price
      · -- The order queues behind one that does not cross, so nothing trades.
        have apart : ∀ t ∈ makers, ¬side.atLeast order.price t.price :=
          fun t member crosses =>
            uncrossed first List.mem_cons_self t member
              (Side.atLeast_trans behind crosses)
        have still : Uncrossed side (enqueue side order (first :: later))
            makers := by
          intro o inOurs t inMakers
          rcases mem_enqueue.mp inOurs with rfl | inOurs
          · exact apart t inMakers
          · exact uncrossed o inOurs t inMakers
        rw [cross_uncrossed still, sweep_blocked apart]
        simp [Nat.ne_of_gt positive]
      · have head : ∀ qty, enqueue side { order with qty := qty }
            (first :: later) =
              { order with qty := qty } :: first :: later :=
          fun qty => if_neg behind
        have whole : enqueue side order (first :: later) =
            order :: first :: later :=
          head order.qty
        rw [whole]
        simp only [head]
        exact cross_head order positive uncrossed

end MatchingBench.Lib.Crossing
