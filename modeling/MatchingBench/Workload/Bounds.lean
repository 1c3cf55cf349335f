import MatchingBench.Harness.Contract
import MatchingBench.Workload.Loaded
import Mathlib.Algebra.Order.BigOperators.Group.List

/-!
# How large the book of a run gets

Orders of few lots at prices of a narrow range make a book whose levels are
few and can be written down in few digits, whatever the messages are.
-/

set_option autoImplicit false

namespace MatchingBench.Workload.Bounds

open MatchingBench.Api
open MatchingBench.Adapters
open MatchingBench.Harness.Contract
open MatchingBench.Harness.Marshalling (workloadMax)
open MatchingBench.Lib.Draws
open MatchingBench.Lib.Levels
open MatchingBench.Lib.OrderBook
open MatchingBench.Lib.PriceTime
open MatchingBench.Lib.Runs
open MatchingBench.Reference
open MatchingBench.Workload.Arrivals (tapeOf)
open MatchingBench.Workload.Generator (Numerics Request Uniform generate)
open MatchingBench.Workload.Loaded

/-- Every resting order is at a price of the range and of few lots. -/
structure Modest (low high : Int) (most : Nat) (book : LiveBook) : Prop where
  priced : book.All fun _ _ price => Between low high price
  below : book.Below (most + 1)

section Modest

variable {low high : Int} {most : Nat} {book : LiveBook}

/-- Submitting an order of few lots at such a price keeps that. -/
theorem Modest.submit
    (modest : Modest low high most book) {side : Side}
    {order : Resting UInt64 Int64} {rests : Bool}
    (fresh : book.lookup order.id = none)
    (permitted : Between low high order.price) (few : order.qty ≤ most) :
    Modest low high most (book.submit side order rests fresh).book :=
  ⟨modest.priced.submit fun _ => permitted,
    modest.below.submit (Nat.lt_succ_of_le few)⟩

theorem Modest.withdraw
    (modest : Modest low high most book) (id : UInt64) :
    Modest low high most (book.withdraw id) :=
  ⟨modest.priced.withdraw id, modest.below.withdraw id⟩

/-- So does every message. -/
theorem Modest.step
    (modest : Modest low high most book) {m : Msg}
    (legal : Legal (Between low high) book m) (few : lots m ≤ most) :
    Modest low high most (Reference.step book m).1 := by
  cases m with
  | newOrder o =>
      obtain ⟨fresh, -, -, permitted⟩ := legal
      rw [Reference.step, Reference.newOrder, dif_pos fresh]
      exact @Modest.submit _ _ _ _ modest _ (submittedOrder o) _ fresh permitted
        few
  | cancel c =>
      rw [Reference.step, Reference.cancel]
      split
      · exact modest.withdraw c.orderId
      · exact modest
  | modify m =>
      obtain ⟨-, -, permitted, -⟩ := legal
      rw [Reference.step, Reference.modify]
      split
      · exact @Modest.submit _ _ _ _ (modest.withdraw m.orderId) _
          (modifiedOrder m) _ (book.lookup_withdraw_self m.orderId) permitted
          few
      · exact modest

/-- So does a run. -/
theorem Modest.run
    (modest : Modest low high most book) {msgs : List Msg}
    (legal : Admitted Reference.step (Legal (Between low high)) book msgs)
    (few : ∀ m ∈ msgs, lots m ≤ most) :
    Modest low high most (final Reference.step book msgs) := by
  induction msgs generalizing book with
  | nil => exact modest
  | cons m msgs induction =>
      rw [List.forall_mem_cons] at few
      exact induction (modest.step legal.1 few.1) legal.2 few.2

theorem modest_bookAfter
    {msgs : List Msg} (legal : LegalRun (Between low high) msgs)
    (few : ∀ m ∈ msgs, lots m ≤ most) :
    Modest low high most (bookAfter msgs) :=
  Modest.run ⟨Book.all_empty, Book.below_empty⟩ legal few

/-- A side has at most one level for each price of the range. -/
theorem Modest.levels_le
    (modest : Modest low high most book) (side : Side) :
    (levels (book.ladder side)).length ≤ (high - low + 1).toNat := by
  let index (price : Int64) : Nat := (price.toInt - low).toNat
  have inRange : ∀ price ∈ (levels (book.ladder side)).map Prod.fst,
      Between low high price := by
    intro price member
    obtain ⟨o, inside, rfl⟩ := exists_of_mem_levels member
    exact modest.priced o.id side o
      (Book.lookup_eq_some_iff.mpr ⟨inside, rfl⟩)
  have distinct :
      (((levels (book.ladder side)).map Prod.fst).map index).Nodup := by
    refine (nodup_levels (book.sorted side)).map_on ?_
    intro a aInside b bInside same
    obtain ⟨lowA, -⟩ := inRange a aInside
    obtain ⟨lowB, -⟩ := inRange b bInside
    refine Int64.toInt.inj ?_
    simp only [index] at same
    omega
  have within :
      ((levels (book.ladder side)).map Prod.fst).map index ⊆
        List.range (high - low + 1).toNat := by
    intro i member
    obtain ⟨price, inside, rfl⟩ := List.mem_map.mp member
    obtain ⟨least, greatest⟩ := inRange price inside
    rw [List.mem_range]
    simp only [index]
    omega
  have few := (List.subperm_of_subset distinct within).length_le
  rwa [List.length_map, List.length_map, List.length_range] at few

/-- A level holds no more than all orders may. -/
theorem Modest.level_le
    (modest : Modest low high most book) {side : Side} {entry : Int64 × Nat}
    (member : entry ∈ levels (book.ladder side)) :
    entry.2 ≤ book.size * most := by
  have total : ((book.ladder side).map Resting.qty).sum ≤
      ((book.ladder side).map Resting.qty).length • most := by
    refine List.sum_le_card_nsmul _ _ fun qty inside => ?_
    obtain ⟨o, resting, rfl⟩ := List.mem_map.mp inside
    exact Nat.le_of_lt_succ (modest.below side o resting)
  have part := List.single_le_sum (fun _ _ => Nat.zero_le _) entry.2
    (List.mem_map_of_mem member)
  rw [sum_snd_levels] at part
  rw [List.length_map, nsmul_eq_mul] at total
  refine (part.trans total).trans (Nat.mul_le_mul_right _ ?_)
  rw [Book.size_eq book side]
  exact Nat.le_add_right _ _

end Modest

/-- Few orders of few lots make a bounded book. -/
theorem bounded_bookAfter
    {high : Int} (narrow : high < 2 ^ 20) {most : Nat} {msgs : List Msg}
    (legal : LegalRun (Between 1 high) msgs) (few : ∀ m ∈ msgs, lots m ≤ most)
    (total : 2 * msgs.length * most < 10 ^ 11) : Bounded (bookAfter msgs) := by
  have modest := modest_bookAfter legal few
  constructor
  · intro side entry member
    calc
      entry.2 ≤ (bookAfter msgs).size * most := modest.level_le member
      _ ≤ 2 * msgs.length * most :=
        Nat.mul_le_mul_right most (size_bookAfter_le msgs)
      _ < 10 ^ 11 := total
  · intro side
    have levels := modest.levels_le side
    omega

/-- Every book of a generated workload of prices below `2 ^ 20`. -/
theorem bounded_generated
    {high : Int} (narrow : high < 2 ^ 20) {num : Numerics} {request : Request}
    {stream : Nat → Uniform}
    (capped : ((generate num request).run stream).length ≤ workloadMax)
    (priced : ∀ m ∈ (generate num request).run stream,
      Between 1 high m.priceTicks)
    {front : List Msg}
    (reached : front <+: tapeOf ((generate num request).run stream)) :
    Bounded (bookAfter front) := by
  have shorter := reached.length_le
  rw [tapeOf, List.length_mapIdx] at shorter
  unfold workloadMax at capped
  refine bounded_bookAfter narrow
    (LegalRun.of_prefix (legalRun_generated priced) reached)
    (fun m member => (lots_generated (reached.subset member)).2) ?_
  omega

end MatchingBench.Workload.Bounds
