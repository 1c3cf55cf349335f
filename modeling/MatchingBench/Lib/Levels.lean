import MatchingBench.Lib.Correspondence
import Mathlib.Data.List.Nodup

/-!
# Price levels

A ladder seen level by level: each price once, best first, with the open
quantity at it.  Matchers that only publish their levels answer the same
queries, and corresponding ladders have corresponding levels.
-/

set_option autoImplicit false

namespace MatchingBench.Lib.Levels

open MatchingBench.Lib.PriceTime
open MatchingBench.Lib.Correspondence

variable {ι κ π ρ : Type} [LinearOrder π] [LinearOrder ρ]

/-- Put an order in front of levels, into the first one if the price is its. -/
def join (order : Resting ι π) : List (π × Nat) → List (π × Nat)
  | [] => [(order.price, order.qty)]
  | first :: later =>
      if order.price = first.1 then (first.1, order.qty + first.2) :: later
      else (order.price, order.qty) :: first :: later

theorem join_cons
    (order : Resting ι π) (first : π × Nat) (later : List (π × Nat)) :
    join order (first :: later) =
      if order.price = first.1 then (first.1, order.qty + first.2) :: later
      else (order.price, order.qty) :: first :: later :=
  rfl

/-- The levels of a ladder: a price and the open quantity at it. -/
def levels (orders : List (Resting ι π)) : List (π × Nat) :=
  orders.foldr join []

@[simp]
theorem levels_nil : levels ([] : List (Resting ι π)) = [] :=
  rfl

theorem levels_cons (order : Resting ι π) (orders : List (Resting ι π)) :
    levels (order :: orders) = join order (levels orders) :=
  rfl

/-! ## Prices -/

/-- The first level is at the price of the first order. -/
theorem head_join (order : Resting ι π) (rest : List (π × Nat)) :
    (join order rest).head?.map Prod.fst = some order.price := by
  cases rest with
  | nil => rfl
  | cons first later =>
      rw [join_cons]
      split
      · rename_i same
        exact congrArg some same.symm
      · rfl

theorem head_levels (orders : List (Resting ι π)) :
    (levels orders).head?.map Prod.fst =
      orders.head?.map Resting.price := by
  cases orders with
  | nil => rfl
  | cons order orders => exact head_join order (levels orders)

theorem mem_join
    {order : Resting ι π} {rest : List (π × Nat)} {price : π}
    (member : price ∈ (join order rest).map Prod.fst) :
    price = order.price ∨ price ∈ rest.map Prod.fst := by
  cases rest with
  | nil => exact Or.inl (List.mem_singleton.mp member)
  | cons first later =>
      rw [join_cons] at member
      split at member
      · exact Or.inr member
      · exact List.mem_cons.mp member

/-- Every level is at the price of some order. -/
theorem exists_of_mem_levels
    {orders : List (Resting ι π)} {price : π}
    (member : price ∈ (levels orders).map Prod.fst) :
    ∃ o ∈ orders, o.price = price := by
  induction orders with
  | nil => cases member
  | cons order orders induction =>
      rcases mem_join member with rfl | later
      · exact ⟨order, List.mem_cons_self, rfl⟩
      · rcases induction later with ⟨o, inside, same⟩
        exact ⟨o, List.mem_cons_of_mem _ inside, same⟩

/-- There are no more levels than orders. -/
theorem length_levels_le (orders : List (Resting ι π)) :
    (levels orders).length ≤ orders.length := by
  induction orders with
  | nil => exact Nat.le_refl 0
  | cons order orders induction =>
      rw [levels_cons, List.length_cons]
      cases grouped : levels orders with
      | nil => exact Nat.succ_le_succ (Nat.zero_le _)
      | cons first later =>
          rw [grouped, List.length_cons] at induction
          rw [join_cons]
          split <;> simp only [List.length_cons] <;> omega

/-- Each price of a sorted ladder has one level. -/
theorem nodup_levels
    {side : Side} {orders : List (Resting ι π)}
    (sorted : Sorted side orders) :
    ((levels orders).map Prod.fst).Nodup := by
  induction orders with
  | nil => exact List.nodup_nil
  | cons order orders induction =>
      have tail := List.pairwise_cons.mp sorted
      have rest := induction tail.2
      have first := head_levels orders
      have prices := @exists_of_mem_levels ι π _ orders
      rw [levels_cons]
      cases grouped : levels orders with
      | nil => exact List.nodup_singleton _
      | cons level later =>
          rw [grouped] at rest first prices
          rw [join_cons]
          split
          · exact rest
          · rename_i other
            refine List.nodup_cons.mpr ⟨fun again => other ?_, rest⟩
            cases orders with
            | nil => cases first
            | cons next orders =>
                have here : level.1 = next.price := Option.some.inj first
                have behind := List.pairwise_cons.mp tail.2
                have ahead := tail.1 next List.mem_cons_self
                rcases prices again with ⟨o, inside, same⟩
                rw [here]
                refine Side.atLeast_antisymm ahead ?_
                rw [← show o.price = order.price from same]
                rcases List.mem_cons.mp inside with rfl | inside
                · exact side.atLeast_refl _
                · exact behind.1 o inside

/-! ## Quantities -/

/-- The quantity at a price, from the levels. -/
theorem sum_join
    (order : Resting ι π) (rest : List (π × Nat)) (price : π) :
    (((join order rest).filter (·.1 = price)).map Prod.snd).sum =
      (if order.price = price then order.qty else 0) +
        ((rest.filter (·.1 = price)).map Prod.snd).sum := by
  cases rest with
  | nil => by_cases here : order.price = price <;> simp [join, here]
  | cons first later =>
      rw [join_cons]
      split
      · rename_i same
        by_cases here : first.1 = price <;>
          simp [same, here, Nat.add_assoc]
      · by_cases here : order.price = price <;>
          simp [here]

theorem sum_levels (orders : List (Resting ι π)) (price : π) :
    (((levels orders).filter (·.1 = price)).map Prod.snd).sum =
      ((level price orders).map Resting.qty).sum := by
  induction orders with
  | nil => rfl
  | cons order orders induction =>
      rw [levels_cons, sum_join, induction]
      by_cases here : order.price = price <;> simp [here, level]

/-- All levels together hold what all orders hold. -/
theorem sum_snd_levels (orders : List (Resting ι π)) :
    ((levels orders).map Prod.snd).sum = (orders.map Resting.qty).sum := by
  induction orders with
  | nil => rfl
  | cons order orders induction =>
      rw [levels_cons, List.map_cons, List.sum_cons, ← induction]
      cases levels orders with
      | nil => rfl
      | cons first later =>
          rw [join_cons]
          split
          · simp only [List.map_cons, List.sum_cons]
            omega
          · rfl

/-- Looking up a key that occurs once finds the sum at the key. -/
theorem find?_of_nodup
    {entries : List (π × Nat)} (distinct : (entries.map Prod.fst).Nodup)
    (key : π) :
    ((entries.find? (·.1 = key)).map Prod.snd).getD 0 =
      ((entries.filter (·.1 = key)).map Prod.snd).sum := by
  induction entries with
  | nil => rfl
  | cons entry entries induction =>
      have unique := List.nodup_cons.mp distinct
      by_cases here : entry.1 = key
      · have absent : entries.filter (·.1 = key) = [] := by
          rw [List.filter_eq_nil_iff]
          intro other member
          rw [decide_eq_true_eq]
          intro again
          exact unique.1 (here.trans again.symm ▸
            List.mem_map_of_mem member)
        simp [here, absent]
      · simpa [here] using induction unique.2

/-- The first level at a price of a sorted ladder holds all of it. -/
theorem find?_levels
    {side : Side} {orders : List (Resting ι π)}
    (sorted : Sorted side orders) (price : π) :
    (((levels orders).find? (·.1 = price)).map Prod.snd).getD 0 =
      ((level price orders).map Resting.qty).sum := by
  rw [find?_of_nodup (nodup_levels sorted), sum_levels]

/-! ## Corresponding levels -/

/-- Levels at corresponding prices, quantities in the ratio of the units. -/
structure AlikeLevel
    (same : π → ρ → Prop) (unit : Nat) (entry : π × Nat) (other : ρ × Nat) :
    Prop where
  price : same entry.1 other.1
  qty : other.2 = unit * entry.2

variable {link : ι → κ → Prop} {same : π → ρ → Prop} {unit : Nat}

theorem alike_join
    (compatible : OrderCompatible same) {o : Resting ι π} {r : Resting κ ρ}
    (paired : Alike link same unit o r) {left : List (π × Nat)}
    {right : List (ρ × Nat)}
    (alike : List.Forall₂ (AlikeLevel same unit) left right) :
    List.Forall₂ (AlikeLevel same unit) (join o left) (join r right) := by
  cases alike with
  | nil =>
      exact List.Forall₂.cons ⟨paired.price, paired.qty⟩ List.Forall₂.nil
  | cons head tail =>
      have equal := compatible.eq_iff paired.price head.price
      rw [join_cons, join_cons]
      split
      · rename_i here
        rw [if_pos (equal.mp here)]
        refine List.Forall₂.cons ⟨head.price, ?_⟩ tail
        dsimp only
        rw [paired.qty, head.qty, Nat.mul_add]
      · rename_i other
        rw [if_neg fun here => other (equal.mpr here)]
        exact List.Forall₂.cons ⟨paired.price, paired.qty⟩
          (List.Forall₂.cons head tail)

/-- Corresponding ladders have corresponding levels. -/
theorem alike_levels
    (compatible : OrderCompatible same) {orders : List (Resting ι π)}
    {others : List (Resting κ ρ)}
    (alike : AlikeLadders link same unit orders others) :
    List.Forall₂ (AlikeLevel same unit) (levels orders) (levels others) := by
  induction alike with
  | nil => exact List.Forall₂.nil
  | cons head _ induction => exact alike_join compatible head induction

end MatchingBench.Lib.Levels
