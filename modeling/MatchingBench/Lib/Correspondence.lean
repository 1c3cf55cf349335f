import MatchingBench.Lib.OrderBook
import Mathlib.Data.List.Forall2

/-!
# Corresponding ladders

Two ladders that hold the same orders under different names, in different
price units and with scaled quantities.  Queueing, sweeping and withdrawing
keep the correspondence, so a matcher over its own representation can be
compared with one over client orders.
-/

set_option autoImplicit false

namespace MatchingBench.Lib.Correspondence

open MatchingBench.Lib.PriceTime
open MatchingBench.Lib.OrderBook

variable {ι κ π ρ : Type} [LinearOrder π] [LinearOrder ρ]

/-- Corresponding prices compare alike. -/
def OrderCompatible (same : π → ρ → Prop) : Prop :=
  ∀ a a' b b', same a a' → same b b' → (a ≤ b ↔ a' ≤ b')

/--
Two orders are alike: corresponding names and prices, and quantities in the
ratio of the units.
-/
structure Alike
    (link : ι → κ → Prop) (same : π → ρ → Prop) (unit : Nat)
    (o : Resting ι π) (r : Resting κ ρ) : Prop where
  id : link o.id r.id
  price : same o.price r.price
  qty : r.qty = unit * o.qty

/-- Fills of alike makers, in the same ratio. -/
structure AlikeFill
    (link : ι → κ → Prop) (same : π → ρ → Prop) (unit : Nat)
    (fill : Fill ι π) (filled : Fill κ ρ) : Prop where
  maker : Alike link same unit fill.maker filled.maker
  qty : filled.qty = unit * fill.qty

section Same

variable {o r : Resting ι π} {fill filled : Fill ι π}

omit [LinearOrder π] in
/-- In the same names, prices and units alike orders are equal. -/
theorem Alike.eq (paired : Alike Eq Eq 1 o r) : r = o := by
  have qty := paired.qty.trans (Nat.one_mul _)
  cases o
  cases r
  cases paired.id
  cases paired.price
  cases qty
  rfl

omit [LinearOrder π] in
theorem AlikeFill.eq (paired : AlikeFill Eq Eq 1 fill filled) :
    filled = fill := by
  have qty := paired.qty.trans (Nat.one_mul _)
  have maker := paired.maker.eq
  cases fill
  cases filled
  cases maker
  cases qty
  rfl

omit [LinearOrder π] in
theorem eq_of_alikeFills
    {fills others : List (Fill ι π)}
    (alike : List.Forall₂ (AlikeFill Eq Eq 1) fills others) :
    others = fills := by
  induction alike with
  | nil => rfl
  | cons head _ induction => rw [head.eq, induction]

end Same

/-- Corresponding ladders. -/
abbrev AlikeLadders
    (link : ι → κ → Prop) (same : π → ρ → Prop) (unit : Nat) :
    List (Resting ι π) → List (Resting κ ρ) → Prop :=
  List.Forall₂ (Alike link same unit)

omit [LinearOrder ρ] in
theorem orderCompatible_eq : OrderCompatible (@Eq π) := by
  rintro a _ b _ rfl rfl
  exact Iff.rfl

section Compare

variable {same : π → ρ → Prop} {a b : π} {a' b' : ρ}

theorem OrderCompatible.atLeast_iff
    (compatible : OrderCompatible same) (first : same a a')
    (second : same b b') (side : Side) :
    side.atLeast a b ↔ side.atLeast a' b' := by
  cases side with
  | buy => exact compatible b b' a a' second first
  | sell => exact compatible a a' b b' first second

theorem OrderCompatible.eq_iff
    (compatible : OrderCompatible same) (first : same a a')
    (second : same b b') : a = b ↔ a' = b' := by
  rw [le_antisymm_iff, le_antisymm_iff,
    compatible a a' b b' first second, compatible b b' a a' second first]

end Compare

section Ladders

variable {link : ι → κ → Prop} {same : π → ρ → Prop} {unit : Nat}
  {orders : List (Resting ι π)} {others : List (Resting κ ρ)}

omit [LinearOrder π] [LinearOrder ρ] in
theorem AlikeLadders.weaken
    {wider : ι → κ → Prop} (alike : AlikeLadders link same unit orders others)
    (implies : ∀ o ∈ orders, ∀ r ∈ others, link o.id r.id → wider o.id r.id) :
    AlikeLadders wider same unit orders others := by
  induction alike with
  | nil => exact List.Forall₂.nil
  | cons head _ induction =>
      refine List.Forall₂.cons ⟨?_, head.price, head.qty⟩ ?_
      · exact implies _ List.mem_cons_self _ List.mem_cons_self head.id
      · exact induction fun o inOrders r inOthers =>
          implies o (List.mem_cons_of_mem _ inOrders) r
            (List.mem_cons_of_mem _ inOthers)

omit [LinearOrder π] [LinearOrder ρ] in
theorem AlikeLadders.exists_left
    (alike : AlikeLadders link same unit orders others)
    {r : Resting κ ρ} (member : r ∈ others) :
    ∃ o ∈ orders, Alike link same unit o r := by
  induction alike with
  | nil => cases member
  | cons head _ induction =>
      rcases List.mem_cons.mp member with rfl | member
      · exact ⟨_, List.mem_cons_self, head⟩
      · obtain ⟨o, found, paired⟩ := induction member
        exact ⟨o, List.mem_cons_of_mem _ found, paired⟩

omit [LinearOrder π] [LinearOrder ρ] in
theorem AlikeLadders.exists_right
    (alike : AlikeLadders link same unit orders others)
    {o : Resting ι π} (member : o ∈ orders) :
    ∃ r ∈ others, Alike link same unit o r := by
  induction alike with
  | nil => cases member
  | cons head _ induction =>
      rcases List.mem_cons.mp member with rfl | member
      · exact ⟨_, List.mem_cons_self, head⟩
      · obtain ⟨r, found, paired⟩ := induction member
        exact ⟨r, List.mem_cons_of_mem _ found, paired⟩

/-- Queueing alike orders. -/
theorem AlikeLadders.enqueue
    (alike : AlikeLadders link same unit orders others)
    (compatible : OrderCompatible same) (side : Side)
    {o : Resting ι π} {r : Resting κ ρ} (new : Alike link same unit o r) :
    AlikeLadders link same unit (enqueue side o orders)
      (PriceTime.enqueue side r others) := by
  induction alike with
  | nil => exact List.Forall₂.cons new List.Forall₂.nil
  | cons head tail induction =>
      unfold PriceTime.enqueue
      have ahead := compatible.atLeast_iff head.price new.price side
      split
      · rename_i first
        rw [if_pos (ahead.mp first)]
        exact List.Forall₂.cons head induction
      · rename_i last
        rw [if_neg fun first => last (ahead.mpr first)]
        exact List.Forall₂.cons new (List.Forall₂.cons head tail)

/-- Sweeping alike makers up to corresponding limits. -/
theorem AlikeLadders.sweep
    (alike : AlikeLadders link same unit orders others)
    (compatible : OrderCompatible same) (positive : 0 < unit)
    (side : Side) {limit : π} {limit' : ρ} (limits : same limit limit')
    (qty : Nat) :
    let swept := sweep side limit orders qty
    let swept' := PriceTime.sweep side limit' others (unit * qty)
    List.Forall₂ (AlikeFill link same unit) swept.fills swept'.fills ∧
      swept'.left = unit * swept.left ∧
      AlikeLadders link same unit swept.rest swept'.rest := by
  induction alike generalizing qty with
  | nil => exact ⟨List.Forall₂.nil, rfl, List.Forall₂.nil⟩
  | @cons maker maker' makers makers' head tail induction =>
      have crosses := compatible.atLeast_iff limits head.price side
      have whole : maker'.qty ≤ unit * qty ↔ maker.qty ≤ qty := by
        rw [head.qty]
        exact Nat.mul_le_mul_left_iff positive
      have nothing : unit * qty = 0 ↔ qty = 0 := by
        rw [Nat.mul_eq_zero]
        exact or_iff_right (Nat.ne_of_gt positive)
      unfold PriceTime.sweep
      by_cases stops : qty = 0 ∨ ¬side.atLeast limit maker.price
      · have stops' : unit * qty = 0 ∨ ¬side.atLeast limit' maker'.price := by
          rwa [nothing, ← crosses]
        rw [if_pos stops, if_pos stops']
        exact ⟨List.Forall₂.nil, rfl, List.Forall₂.cons head tail⟩
      · have goes' :
            ¬(unit * qty = 0 ∨ ¬side.atLeast limit' maker'.price) := by
          rwa [nothing, ← crosses]
        rw [if_neg stops, if_neg goes']
        by_cases finished : maker.qty ≤ qty
        · obtain ⟨fills, left, rest⟩ := induction (qty - maker.qty)
          rw [if_pos finished, if_pos (whole.mpr finished), head.qty,
            ← Nat.mul_sub]
          exact ⟨List.Forall₂.cons ⟨head, rfl⟩ fills, left, rest⟩
        · rw [if_neg finished, if_neg fun done => finished (whole.mp done)]
          refine ⟨List.Forall₂.cons ⟨head, rfl⟩ List.Forall₂.nil, rfl,
            List.Forall₂.cons ⟨head.id, head.price, ?_⟩ tail⟩
          rw [head.qty, Nat.mul_sub]

/-- The levels at corresponding prices. -/
theorem AlikeLadders.level
    (alike : AlikeLadders link same unit orders others)
    (compatible : OrderCompatible same) {price : π} {price' : ρ}
    (prices : same price price') :
    AlikeLadders link same unit (level price orders)
      (PriceTime.level price' others) := by
  refine List.rel_filter (fun o r paired => ?_) alike
  simp only [decide_eq_true_eq]
  exact compatible.eq_iff paired.price prices

omit [LinearOrder π] [LinearOrder ρ] in
/-- The open quantities add up in the same ratio. -/
theorem AlikeLadders.sum_qty
    (alike : AlikeLadders link same unit orders others) :
    (others.map Resting.qty).sum =
      unit * (orders.map Resting.qty).sum := by
  induction alike with
  | nil => rfl
  | cons head _ induction =>
      rw [List.map_cons, List.map_cons, List.sum_cons, List.sum_cons,
        induction, head.qty, Nat.mul_add]

omit [LinearOrder π] [LinearOrder ρ] in
/-- The best prices correspond. -/
theorem AlikeLadders.head_price
    (alike : AlikeLadders link same unit orders others) :
    Option.Rel same (orders.head?.map Resting.price)
      (others.head?.map Resting.price) := by
  cases alike with
  | nil => exact Option.Rel.none
  | cons head _ => exact Option.Rel.some head.price

omit [LinearOrder π] [LinearOrder ρ] in
/-- Withdrawing corresponding names. -/
theorem AlikeLadders.withdraw
    [DecidableEq ι] [DecidableEq κ] {id : ι} {id' : κ}
    (alike : AlikeLadders link same unit orders others)
    (names : ∀ o ∈ orders, ∀ r ∈ others, link o.id r.id →
      (o.id = id ↔ r.id = id')) :
    AlikeLadders link same unit (withdraw id orders)
      (PriceTime.withdraw id' others) := by
  induction alike with
  | nil => exact List.Forall₂.nil
  | @cons o r orders others head tail induction =>
      have here := names o List.mem_cons_self r List.mem_cons_self head.id
      have rest := induction fun o inOrders r inOthers =>
        names o (List.mem_cons_of_mem _ inOrders) r
          (List.mem_cons_of_mem _ inOthers)
      unfold PriceTime.withdraw at rest ⊢
      by_cases gone : o.id = id
      · rw [List.filter_cons_of_neg (by simpa using gone),
          List.filter_cons_of_neg (by simpa using here.mp gone)]
        exact rest
      · rw [List.filter_cons_of_pos (by simpa using gone),
          List.filter_cons_of_pos
            (by simpa using fun equal => gone (here.mpr equal))]
        exact List.Forall₂.cons head rest

/-- The submitted order's own ladder. -/
theorem AlikeLadders.settled
    (alike : AlikeLadders link same unit orders others)
    (compatible : OrderCompatible same) (positive : 0 < unit) (side : Side)
    {o : Resting ι π} {r : Resting κ ρ} (id : link o.id r.id)
    (price : same o.price r.price) (left : Nat) (rests : Bool) :
    AlikeLadders link same unit (settled side o left rests orders)
      (OrderBook.settled side r (unit * left) rests others) := by
  have something : unit * left ≠ 0 ↔ left ≠ 0 := by
    rw [Nat.mul_ne_zero_iff]
    exact and_iff_right (Nat.ne_of_gt positive)
  unfold OrderBook.settled
  simp only [something]
  split
  · exact alike.enqueue compatible side ⟨id, price, rfl⟩
  · exact alike

end Ladders

end MatchingBench.Lib.Correspondence
