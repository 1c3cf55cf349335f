import MatchingBench.Lib.PriceTime

/-!
# Scans

Queries answered by going through all orders in no particular order, instead of
looking at the head or at one level of a sorted ladder.
-/

set_option autoImplicit false

namespace MatchingBench.Lib.Scans

open MatchingBench.Lib.PriceTime

variable {ι π : Type} [LinearOrder π]

/-- The best price of a scan; a tie keeps the earlier one. -/
def bestOf (side : Side) (start : π) (prices : List π) : π :=
  prices.foldl
    (fun best price => if side.atLeast best price then best else price) start

variable {side : Side}

/-- A scan returns its start or a price it saw. -/
theorem bestOf_mem (start : π) (prices : List π) :
    bestOf side start prices = start ∨ bestOf side start prices ∈ prices := by
  induction prices generalizing start with
  | nil => exact Or.inl rfl
  | cons price prices induction =>
      unfold bestOf at induction ⊢
      rw [List.foldl_cons]
      split
      · rcases induction start with same | found
        · exact Or.inl same
        · exact Or.inr (List.mem_cons_of_mem _ found)
      · rcases induction price with same | found
        · rw [same]
          exact Or.inr List.mem_cons_self
        · exact Or.inr (List.mem_cons_of_mem _ found)

/-- A scan's result is as good as its start and every price it saw. -/
theorem bestOf_atLeast (start : π) (prices : List π) :
    side.atLeast (bestOf side start prices) start ∧
      ∀ price ∈ prices, side.atLeast (bestOf side start prices) price := by
  induction prices generalizing start with
  | nil => exact ⟨side.atLeast_refl start, fun _ member => by cases member⟩
  | cons price prices induction =>
      unfold bestOf at induction ⊢
      rw [List.foldl_cons]
      split
      · rename_i ahead
        have ⟨beats, rest⟩ := induction start
        refine ⟨beats, fun other member => ?_⟩
        rcases List.mem_cons.mp member with rfl | member
        · exact Side.atLeast_trans beats ahead
        · exact rest other member
      · rename_i worse
        have ⟨beats, rest⟩ := induction price
        refine ⟨Side.atLeast_trans beats (Side.atLeast_of_not worse),
          fun other member => ?_⟩
        rcases List.mem_cons.mp member with rfl | member
        · exact beats
        · exact rest other member

/-- Scanning the orders of a ladder in any order finds its head. -/
theorem bestOf_ladder
    {start : π} {found ladder : List (Resting ι π)}
    (same : found.Perm ladder) (sorted : Sorted side ladder)
    (worst : ∀ price, side.atLeast price start) :
    bestOf side start (found.map Resting.price) =
      (ladder.head?.map Resting.price).getD start := by
  have ⟨_, beats⟩ :=
    @bestOf_atLeast π _ side start (found.map Resting.price)
  apply @Side.atLeast_antisymm π _ side
  · cases ladder with
    | nil => exact worst _
    | cons best later =>
        exact beats best.price
          (List.mem_map_of_mem (same.mem_iff.mpr List.mem_cons_self))
  · rcases @bestOf_mem π _ side start (found.map Resting.price) with
      none | seen
    · rw [none]
      exact worst _
    · rcases List.mem_map.mp seen with ⟨o, inFound, price⟩
      rw [← price]
      have inside := same.mem_iff.mp inFound
      cases ladder with
      | nil => cases inside
      | cons best later =>
          rcases List.mem_cons.mp inside with rfl | behind
          · exact side.atLeast_refl _
          · exact List.rel_of_pairwise_cons sorted behind

/-- Adding up the orders at a price in any order gives the level's total. -/
theorem sum_level
    {found ladder : List (Resting ι π)} (same : found.Perm ladder)
    (price : π) :
    ((level price found).map Resting.qty).sum =
      ((level price ladder).map Resting.qty).sum :=
  ((same.filter _).map Resting.qty).sum_nat

end MatchingBench.Lib.Scans
