import Mathlib.Algebra.BigOperators.Group.List.Basic
import Mathlib.Algebra.GroupWithZero.Nat
import Mathlib.Data.List.Nodup
import Mathlib.Logic.Function.Basic
import Mathlib.Order.Basic
import Mathlib.Order.Lattice

/-!
# Price-time priority

One side of an order book: the resting orders in matching order, best price
first and first come first served within a price.  An aggressor sweeps the
ladder of the opposite side up to its limit.  Identifiers and prices are
arbitrary; quantities are natural numbers.
-/

set_option autoImplicit false

namespace MatchingBench.Lib.PriceTime

/-! ## Sides -/

/-- The side of an order. -/
inductive Side where
  | buy
  | sell
deriving DecidableEq, Repr, Inhabited

/-- The side an order trades against. -/
def Side.opposite : Side → Side
  | .buy => .sell
  | .sell => .buy

@[simp]
theorem Side.opposite_opposite (side : Side) :
    side.opposite.opposite = side := by
  cases side <;> rfl

theorem Side.opposite_ne (side : Side) : side.opposite ≠ side := by
  cases side <;> decide

theorem Side.eq_opposite_of_ne {a b : Side} (different : a ≠ b) :
    a = b.opposite := by
  cases a <;> cases b <;> first | rfl | exact absurd rfl different

section Prices

variable {π : Type} [LinearOrder π]

/--
Price `a` is at least as good as `b` for an order on this side.  With a limit
`a` and a maker's price `b` of the opposite side: the two cross.
-/
def Side.atLeast (side : Side) (a b : π) : Prop :=
  match side with
  | .buy => b ≤ a
  | .sell => a ≤ b

instance (side : Side) (a b : π) : Decidable (side.atLeast a b) :=
  match side with
  | .buy => inferInstanceAs (Decidable (b ≤ a))
  | .sell => inferInstanceAs (Decidable (a ≤ b))

theorem Side.atLeast_refl (side : Side) (a : π) : side.atLeast a a := by
  cases side <;> exact le_refl a

theorem Side.atLeast_trans
    {side : Side} {a b c : π}
    (first : side.atLeast a b) (second : side.atLeast b c) :
    side.atLeast a c := by
  cases side with
  | buy => exact le_trans second first
  | sell => exact le_trans first second

theorem Side.atLeast_antisymm
    {side : Side} {a b : π}
    (first : side.atLeast a b) (second : side.atLeast b a) : a = b := by
  cases side with
  | buy => exact le_antisymm second first
  | sell => exact le_antisymm first second

theorem Side.atLeast_of_not
    {side : Side} {a b : π} (worse : ¬side.atLeast a b) :
    side.atLeast b a := by
  cases side with
  | buy => exact (not_le.mp worse).le
  | sell => exact (not_le.mp worse).le

theorem Side.opposite_atLeast {side : Side} {a b : π} :
    side.opposite.atLeast a b ↔ side.atLeast b a := by
  cases side <;> exact Iff.rfl

end Prices

/-! ## Ladders -/

/-- A resting order with its open quantity. -/
structure Resting (ι π : Type) where
  id : ι
  price : π
  qty : Nat
deriving DecidableEq, Repr

variable {ι π : Type} [LinearOrder π]

/-- Orders from the best price to the worst. -/
def Sorted (side : Side) (orders : List (Resting ι π)) : Prop :=
  orders.Pairwise fun a b => side.atLeast a.price b.price

/-- The orders at one price, in arrival order. -/
def level (price : π) (orders : List (Resting ι π)) :
    List (Resting ι π) :=
  orders.filter (·.price = price)

/-- Queue an order behind all orders whose price is as good. -/
def enqueue (side : Side) (order : Resting ι π) :
    List (Resting ι π) → List (Resting ι π)
  | [] => [order]
  | first :: later =>
      if side.atLeast first.price order.price then
        first :: enqueue side order later
      else
        order :: first :: later

theorem enqueue_perm
    (side : Side) (order : Resting ι π) (orders : List (Resting ι π)) :
    (enqueue side order orders).Perm (order :: orders) := by
  induction orders with
  | nil => exact List.Perm.refl _
  | cons first later induction =>
      unfold enqueue
      split
      · exact (induction.cons first).trans (List.Perm.swap _ _ _)
      · exact List.Perm.refl _

@[simp]
theorem mem_enqueue
    {side : Side} {order : Resting ι π} {orders : List (Resting ι π)}
    {o : Resting ι π} :
    o ∈ enqueue side order orders ↔ o = order ∨ o ∈ orders := by
  rw [(enqueue_perm side order orders).mem_iff, List.mem_cons]

theorem sorted_enqueue
    {side : Side} (order : Resting ι π) {orders : List (Resting ι π)}
    (sorted : Sorted side orders) :
    Sorted side (enqueue side order orders) := by
  induction orders with
  | nil => exact List.pairwise_singleton _ _
  | cons first later induction =>
      have tail := List.pairwise_cons.mp sorted
      unfold enqueue
      split
      · rename_i ahead
        refine List.pairwise_cons.mpr ⟨?_, induction tail.2⟩
        intro o member
        rcases mem_enqueue.mp member with rfl | member
        · exact ahead
        · exact tail.1 o member
      · rename_i behind
        refine List.pairwise_cons.mpr ⟨?_, sorted⟩
        intro o member
        have better := Side.atLeast_of_not behind
        rcases List.mem_cons.mp member with rfl | member
        · exact better
        · exact Side.atLeast_trans better (tail.1 o member)

/-- Levels at prices better than every order are empty. -/
theorem level_eq_nil
    {price : π} {orders : List (Resting ι π)}
    (absent : ∀ o ∈ orders, o.price ≠ price) :
    level price orders = [] := by
  rw [level, List.filter_eq_nil_iff]
  intro o member
  simpa using absent o member

/-- An order joins the back of its own level and no other. -/
theorem level_enqueue
    {side : Side} (order : Resting ι π) {orders : List (Resting ι π)}
    (sorted : Sorted side orders) (price : π) :
    level price (enqueue side order orders) =
      if order.price = price then level price orders ++ [order]
      else level price orders := by
  induction orders with
  | nil =>
      by_cases same : order.price = price <;> simp [enqueue, level, same]
  | cons first later induction =>
      have tail := List.pairwise_cons.mp sorted
      unfold enqueue
      split
      · have rest := induction tail.2
        unfold level at rest ⊢
        rw [List.filter_cons, List.filter_cons, rest]
        by_cases same : order.price = price <;>
          by_cases here : first.price = price <;>
          simp [same, here]
      · rename_i behind
        by_cases same : order.price = price
        · have empty : level price (first :: later) = [] := by
            refine level_eq_nil fun o member equal => behind ?_
            rw [same, ← equal]
            rcases List.mem_cons.mp member with rfl | member
            · exact Side.atLeast_refl side o.price
            · exact tail.1 o member
          have whole :
              level price (order :: first :: later) =
                order :: level price (first :: later) := by
            simp [level, same]
          rw [whole, empty, if_pos same]
          rfl
        · simp [level, same]

/-- The orders away from a price. -/
def elsewhere (price : π) (orders : List (Resting ι π)) :
    List (Resting ι π) :=
  orders.filter fun o => !decide (o.price = price)

theorem level_elsewhere
    {price other : π} (different : other ≠ price)
    (orders : List (Resting ι π)) :
    level other (elsewhere price orders) = level other orders := by
  rw [level, level, elsewhere, List.filter_filter]
  refine List.filter_congr fun o _ => ?_
  by_cases here : o.price = other
  · simp [here, different]
  · simp [here]

theorem covered_elsewhere
    {price : π} {prices : List π} {orders : List (Resting ι π)}
    (covered : ∀ o ∈ orders, o.price ∈ price :: prices) :
    ∀ o ∈ elsewhere price orders, o.price ∈ prices := by
  intro o member
  rcases List.mem_filter.mp member with ⟨inside, away⟩
  rcases List.mem_cons.mp (covered o inside) with same | later
  · simp [same] at away
  · exact later

/-- The best level comes first. -/
theorem level_append_elsewhere
    {side : Side} {orders : List (Resting ι π)} (sorted : Sorted side orders)
    {price : π} (best : ∀ o ∈ orders, side.atLeast price o.price) :
    level price orders ++ elsewhere price orders = orders := by
  induction orders with
  | nil => rfl
  | cons first later induction =>
      have parts := List.pairwise_cons.mp sorted
      have rest := induction parts.2 fun o member =>
        best o (List.mem_cons_of_mem first member)
      unfold level elsewhere at rest ⊢
      by_cases here : first.price = price
      · simp only [List.filter_cons, here, decide_true, if_true,
          Bool.not_true, Bool.false_eq_true, if_false, List.cons_append, rest]
      · have none_ : later.filter (fun o => decide (o.price = price)) = [] := by
          refine level_eq_nil fun o member same => here ?_
          have ahead := parts.1 o member
          rw [same] at ahead
          exact Side.atLeast_antisymm ahead (best first List.mem_cons_self)
        rw [none_, List.nil_append] at rest
        simp only [List.filter_cons, here, decide_false, Bool.false_eq_true,
          if_false, none_, List.nil_append, Bool.not_false, if_true, rest]

/-- The levels from the best price to the worst make up the ladder. -/
theorem flatMap_level
    {side : Side} {prices : List π}
    (ordered : prices.Pairwise fun p q => ¬side.atLeast q p)
    {orders : List (Resting ι π)} (sorted : Sorted side orders)
    (covered : ∀ o ∈ orders, o.price ∈ prices) :
    (prices.flatMap fun price => level price orders) = orders := by
  induction prices generalizing orders with
  | nil =>
      cases orders with
      | nil => rfl
      | cons first later => cases covered first List.mem_cons_self
  | cons price prices induction =>
      have parts := List.pairwise_cons.mp ordered
      have others : (prices.flatMap fun other => level other orders) =
          prices.flatMap fun other =>
            level other (elsewhere price orders) := by
        refine List.flatMap_congr fun other member => ?_
        rw [level_elsewhere]
        rintro rfl
        exact parts.1 other member (Side.atLeast_refl side other)
      have rest := @induction parts.2 (elsewhere price orders)
        (sorted.filter _) (covered_elsewhere covered)
      rw [List.flatMap_cons, others, rest]
      refine level_append_elsewhere sorted fun o member => ?_
      rcases List.mem_cons.mp (covered o member) with same | worse
      · rw [same]
        exact Side.atLeast_refl side price
      · exact Side.atLeast_of_not (parts.1 o.price worse)

/-- The levels in any order hold the orders of the ladder. -/
theorem flatMap_level_perm
    {prices : List π} (once : prices.Nodup) {orders : List (Resting ι π)}
    (covered : ∀ o ∈ orders, o.price ∈ prices) :
    (prices.flatMap fun price => level price orders).Perm orders := by
  induction prices generalizing orders with
  | nil =>
      cases orders with
      | nil => exact List.Perm.refl _
      | cons first later => cases covered first List.mem_cons_self
  | cons price prices induction =>
      have parts := List.nodup_cons.mp once
      have others : (prices.flatMap fun other => level other orders) =
          prices.flatMap fun other =>
            level other (elsewhere price orders) := by
        refine List.flatMap_congr fun other member => ?_
        rw [level_elsewhere]
        rintro rfl
        exact parts.1 member
      have rest := @induction parts.2 (elsewhere price orders)
        (covered_elsewhere covered)
      rw [List.flatMap_cons, others]
      exact (rest.append_left _).trans (List.filter_append_perm
        (fun o : Resting ι π => decide (o.price = price)) orders)

/-! ## Sweeps -/

/-- One fill: the maker as it rested and the quantity traded. -/
structure Fill (ι π : Type) where
  maker : Resting ι π
  qty : Nat
deriving DecidableEq, Repr

/-- The maker's open quantity after the fill. -/
def Fill.remaining (fill : Fill ι π) : Nat :=
  fill.maker.qty - fill.qty

/-- What an aggressor leaves behind. -/
structure Sweep (ι π : Type) where
  fills : List (Fill ι π)
  /-- The aggressor's unfilled quantity. -/
  left : Nat
  /-- The makers still resting. -/
  rest : List (Resting ι π)
deriving DecidableEq, Repr

/--
Trade `qty` against the makers in order while their prices are within the
limit of an aggressor on `side`.
-/
def sweep (side : Side) (limit : π) :
    List (Resting ι π) → Nat → Sweep ι π
  | [], qty => { fills := [], left := qty, rest := [] }
  | maker :: makers, qty =>
      if qty = 0 ∨ ¬side.atLeast limit maker.price then
        { fills := [], left := qty, rest := maker :: makers }
      else if maker.qty ≤ qty then
        let later := sweep side limit makers (qty - maker.qty)
        { fills := { maker := maker, qty := maker.qty } :: later.fills
          left := later.left
          rest := later.rest }
      else
        { fills := [{ maker := maker, qty := qty }]
          left := 0
          rest := { maker with qty := maker.qty - qty } :: makers }

section Sweeping

variable {side : Side} {limit : π}

@[simp]
theorem sweep_zero (makers : List (Resting ι π)) :
    sweep side limit makers 0 =
      { fills := [], left := 0, rest := makers } := by
  cases makers <;> simp [sweep]

/-- An aggressor whose limit is worse than the best maker trades nothing. -/
theorem sweep_blocked
    {makers : List (Resting ι π)}
    (blocked : ∀ o ∈ makers, ¬side.atLeast limit o.price) (qty : Nat) :
    sweep side limit makers qty =
      { fills := [], left := qty, rest := makers } := by
  cases makers with
  | nil => rfl
  | cons maker makers =>
      exact if_pos (Or.inr (blocked maker List.mem_cons_self))

/-- What is traded and what is left make up the aggressor's quantity. -/
theorem sweep_conserves (makers : List (Resting ι π)) (qty : Nat) :
    ((sweep side limit makers qty).fills.map Fill.qty).sum +
      (sweep side limit makers qty).left = qty := by
  induction makers generalizing qty with
  | nil => simp [sweep]
  | cons maker makers induction =>
      unfold sweep
      split
      · simp
      · split
        · have rest := induction (qty - maker.qty)
          simp only [List.map_cons, List.sum_cons]
          omega
        · simp

theorem sweep_left_le (makers : List (Resting ι π)) (qty : Nat) :
    (sweep side limit makers qty).left ≤ qty := by
  have := @sweep_conserves ι π _ side limit makers qty
  omega

/-- Resting prices are a final stretch of the ladder's prices. -/
theorem sweep_rest_prices (makers : List (Resting ι π)) (qty : Nat) :
    ∃ count, (sweep side limit makers qty).rest.map Resting.price =
      (makers.map Resting.price).drop count := by
  induction makers generalizing qty with
  | nil => exact ⟨0, rfl⟩
  | cons maker makers induction =>
      unfold sweep
      split
      · exact ⟨0, rfl⟩
      · split
        · obtain ⟨count, rest⟩ := induction (qty - maker.qty)
          exact ⟨count + 1, rest⟩
        · exact ⟨0, rfl⟩

/-- The makers left resting keep their queue order. -/
theorem sweep_rest_ids (makers : List (Resting ι π)) (qty : Nat) :
    ((sweep side limit makers qty).rest.map Resting.id).Sublist
      (makers.map Resting.id) := by
  induction makers generalizing qty with
  | nil => exact List.Sublist.refl _
  | cons maker makers induction =>
      unfold sweep
      split
      · exact List.Sublist.refl _
      · split
        · exact (induction (qty - maker.qty)).cons _
        · exact List.Sublist.refl _

theorem sorted_iff_prices {orders : List (Resting ι π)} :
    Sorted side orders ↔
      (orders.map Resting.price).Pairwise side.atLeast := by
  rw [Sorted, List.pairwise_map]

theorem sorted_sweep_rest
    {makers : List (Resting ι π)} {makerSide : Side}
    (sorted : Sorted makerSide makers) (qty : Nat) :
    Sorted makerSide (sweep side limit makers qty).rest := by
  obtain ⟨count, prices⟩ := @sweep_rest_prices ι π _ side limit makers qty
  rw [sorted_iff_prices] at sorted ⊢
  rw [prices]
  exact sorted.drop

theorem exists_price_of_mem_rest
    {makers : List (Resting ι π)} {qty : Nat} {o : Resting ι π}
    (member : o ∈ (sweep side limit makers qty).rest) :
    ∃ maker ∈ makers, maker.price = o.price := by
  obtain ⟨count, prices⟩ := @sweep_rest_prices ι π _ side limit makers qty
  have found : o.price ∈ (makers.map Resting.price).drop count :=
    prices ▸ List.mem_map_of_mem member
  exact List.mem_map.mp (List.mem_of_mem_drop found)

/-- Every order has open quantity. -/
def Positive (orders : List (Resting ι π)) : Prop :=
  ∀ o ∈ orders, 0 < o.qty

theorem positive_sweep_rest
    {makers : List (Resting ι π)} (positive : Positive makers) (qty : Nat) :
    Positive (sweep side limit makers qty).rest := by
  induction makers generalizing qty with
  | nil => exact positive
  | cons maker makers induction =>
      have tail : Positive makers := fun o member =>
        positive o (List.mem_cons_of_mem _ member)
      unfold sweep
      split
      · exact positive
      · split
        · exact induction tail _
        · intro o member
          rcases List.mem_cons.mp member with rfl | member
          · simp only
            omega
          · exact tail o member

/-- The makers left resting have at most their old open quantity. -/
theorem sweep_rest_qty
    {makers : List (Resting ι π)} {qty : Nat} {o : Resting ι π}
    (member : o ∈ (sweep side limit makers qty).rest) :
    ∃ maker ∈ makers, o.qty ≤ maker.qty := by
  induction makers generalizing qty with
  | nil => cases member
  | cons maker makers induction =>
      unfold sweep at member
      split at member
      · exact ⟨o, member, Nat.le_refl _⟩
      · split at member
        · rcases induction member with ⟨older, inside, less⟩
          exact ⟨older, List.mem_cons_of_mem _ inside, less⟩
        · rcases List.mem_cons.mp member with rfl | behind
          · exact ⟨maker, List.mem_cons_self, Nat.sub_le _ _⟩
          · exact ⟨o, List.mem_cons_of_mem _ behind, Nat.le_refl _⟩

/-- A maker behind the aggressor's limit is left when something is left. -/
theorem sweep_left_blocked
    {makers : List (Resting ι π)}
    (sorted : Sorted side.opposite makers) (qty : Nat)
    (unfilled : (sweep side limit makers qty).left ≠ 0) :
    ∀ o ∈ (sweep side limit makers qty).rest,
      ¬side.atLeast limit o.price := by
  induction makers generalizing qty with
  | nil => simp [sweep]
  | cons maker makers induction =>
      have tail := List.pairwise_cons.mp sorted
      unfold sweep at unfilled ⊢
      split at unfilled
      · rename_i stops
        rw [if_pos stops]
        have worse : ¬side.atLeast limit maker.price :=
          stops.resolve_left unfilled
        intro o member crosses
        rcases List.mem_cons.mp member with rfl | member
        · exact worse crosses
        · have ahead := Side.opposite_atLeast.mp (tail.1 o member)
          exact worse (Side.atLeast_trans crosses ahead)
      · rename_i goes
        rw [if_neg goes]
        split at unfilled
        · rename_i whole
          rw [if_pos whole]
          exact induction tail.2 _ unfilled
        · exact absurd rfl unfilled

/-- What every fill of a sweep satisfies. -/
theorem mem_sweep_fills
    {makers : List (Resting ι π)} (positive : Positive makers) {qty : Nat}
    {fill : Fill ι π} (member : fill ∈ (sweep side limit makers qty).fills) :
    fill.maker ∈ makers ∧ 0 < fill.qty ∧ fill.qty ≤ fill.maker.qty ∧
      fill.qty ≤ qty ∧ side.atLeast limit fill.maker.price := by
  induction makers generalizing qty with
  | nil => simp [sweep] at member
  | cons maker makers induction =>
      have tail : Positive makers := fun o inside =>
        positive o (List.mem_cons_of_mem _ inside)
      unfold sweep at member
      split at member
      · simp at member
      · rename_i goes
        rw [not_or, Decidable.not_not] at goes
        split at member
        · rename_i whole
          rcases List.mem_cons.mp member with rfl | later
          · exact ⟨List.mem_cons_self, positive maker List.mem_cons_self,
              Nat.le_refl _, whole, goes.2⟩
          · obtain ⟨found, more, within, few, crosses⟩ :=
              induction tail later
            exact ⟨List.mem_cons_of_mem _ found, more, within, by omega,
              crosses⟩
        · rename_i part
          rw [List.mem_singleton] at member
          subst member
          exact ⟨List.mem_cons_self, Nat.pos_of_ne_zero goes.1,
            Nat.le_of_not_le part, Nat.le_refl _, goes.2⟩

/-- Every fill takes at least one unit. -/
theorem length_fills_le
    {makers : List (Resting ι π)} (positive : Positive makers) (qty : Nat) :
    (sweep side limit makers qty).fills.length ≤ qty := by
  have units : ∀ taken ∈
      (sweep side limit makers qty).fills.map Fill.qty, 1 ≤ taken := by
    intro taken member
    obtain ⟨fill, inside, rfl⟩ := List.mem_map.mp member
    exact (mem_sweep_fills positive inside).2.1
  have conserved := @sweep_conserves ι π _ side limit makers qty
  have fewer := List.length_le_sum_of_one_le _ units
  rw [List.length_map] at fewer
  omega

/--
Each fill but the last finishes a maker, and the last does so unless it
finishes the aggressor.
-/
theorem sweep_length (makers : List (Resting ι π)) (qty : Nat) :
    let swept := sweep side limit makers qty
    swept.fills.length + swept.rest.length ≤ makers.length + 1 ∧
      (swept.left ≠ 0 →
        swept.fills.length + swept.rest.length = makers.length) := by
  induction makers generalizing qty with
  | nil => simp [sweep]
  | cons maker makers induction =>
      unfold sweep
      split
      · simp
      · split
        · obtain ⟨most, exact⟩ := induction (qty - maker.qty)
          simp only [List.length_cons] at most exact ⊢
          refine ⟨by omega, fun unfilled => ?_⟩
          have := exact unfilled
          omega
        · simp only [List.length_cons, List.length_nil]
          omega

end Sweeping

/-! ## Lookups -/

section Lookups

variable [DecidableEq ι]

/-- The order with an identifier. -/
def lookup (orders : List (Resting ι π)) (id : ι) :
    Option (Resting ι π) :=
  orders.find? (·.id = id)

/-- Withdraw the order with an identifier. -/
def withdraw (id : ι) (orders : List (Resting ι π)) :
    List (Resting ι π) :=
  orders.filter (·.id ≠ id)

/-- Identifiers are unique. -/
def Distinct (orders : List (Resting ι π)) : Prop :=
  (orders.map Resting.id).Nodup

omit [LinearOrder π]

theorem lookup_eq_none_iff {orders : List (Resting ι π)} {id : ι} :
    lookup orders id = none ↔ id ∉ orders.map Resting.id := by
  simp [lookup]

theorem lookup_id
    {orders : List (Resting ι π)} {id : ι} {o : Resting ι π}
    (found : lookup orders id = some o) : o.id = id := by
  simpa using List.find?_some found

theorem mem_of_lookup
    {orders : List (Resting ι π)} {id : ι} {o : Resting ι π}
    (found : lookup orders id = some o) : o ∈ orders :=
  List.mem_of_find?_eq_some found

theorem lookup_eq_some_iff
    {orders : List (Resting ι π)} (distinct : Distinct orders) {id : ι}
    {o : Resting ι π} :
    lookup orders id = some o ↔ o ∈ orders ∧ o.id = id := by
  constructor
  · exact fun found => ⟨mem_of_lookup found, lookup_id found⟩
  · rintro ⟨member, rfl⟩
    cases found : lookup orders o.id with
    | none =>
        rw [lookup_eq_none_iff] at found
        exact absurd (List.mem_map_of_mem member) found
    | some other =>
        rw [List.inj_on_of_nodup_map distinct (mem_of_lookup found) member
          (lookup_id found)]

theorem lookup_perm
    {left right : List (Resting ι π)} (same : left.Perm right)
    (distinct : Distinct left) (id : ι) :
    lookup left id = lookup right id := by
  have distinctRight : Distinct right :=
    (same.map Resting.id).nodup distinct
  ext o
  rw [lookup_eq_some_iff distinct, lookup_eq_some_iff distinctRight,
    same.mem_iff]

@[simp]
theorem lookup_nil (id : ι) : lookup ([] : List (Resting ι π)) id = none :=
  rfl

theorem lookup_cons (o : Resting ι π) (orders : List (Resting ι π)) :
    lookup (o :: orders) =
      Function.update (lookup orders) o.id (some o) := by
  funext id
  by_cases same : o.id = id
  · subst same
    simp [lookup]
  · rw [Function.update_of_ne (Ne.symm same)]
    simp [lookup, same]

theorem lookup_withdraw (id : ι) (orders : List (Resting ι π)) :
    lookup (withdraw id orders) =
      Function.update (lookup orders) id none := by
  funext other
  by_cases same : other = id
  · subst same
    rw [Function.update_self, lookup_eq_none_iff]
    simp [withdraw]
  · rw [Function.update_of_ne same]
    unfold lookup withdraw
    rw [List.find?_filter]
    congr 1
    funext o
    by_cases here : o.id = other <;> simp [here, same]

theorem withdraw_eq_self
    {id : ι} {orders : List (Resting ι π)}
    (absent : id ∉ orders.map Resting.id) : withdraw id orders = orders := by
  rw [withdraw, List.filter_eq_self]
  intro o member
  have : o.id ≠ id := fun equal => absent (equal ▸ List.mem_map_of_mem member)
  simpa using this

/-- Withdrawing the order that was queued last. -/
theorem withdraw_enqueue
    [LinearOrder π] {side : Side} {order : Resting ι π} {id : ι}
    {orders : List (Resting ι π)} (named : order.id = id)
    (absent : id ∉ orders.map Resting.id) :
    withdraw id (enqueue side order orders) = orders := by
  induction orders with
  | nil => simp [enqueue, withdraw, named]
  | cons first later induction =>
      rw [List.map_cons, List.mem_cons, not_or] at absent
      have other : first.id ≠ id := Ne.symm absent.1
      have rest := induction absent.2
      have same := withdraw_eq_self absent.2
      unfold enqueue
      unfold withdraw at rest same ⊢
      split
      · rw [List.filter_cons_of_pos (by simpa using other), rest]
      · rw [List.filter_cons_of_neg (by simpa using named),
          List.filter_cons_of_pos (by simpa using other), same]

/-- Where an order rests, and the order. -/
abbrev View (ι π : Type) := ι → Option (Side × Resting ι π)

/-- What one fill against a maker on `side` does to a view. -/
def reduce (side : Side) (view : View ι π) (fill : Fill ι π) : View ι π :=
  Function.update view fill.maker.id
    (if fill.qty < fill.maker.qty then
      some (side, { fill.maker with qty := fill.remaining })
    else
      none)

/-- Each fill names its maker as the view shows it at that moment. -/
def Applies (side : Side) : View ι π → List (Fill ι π) → Prop
  | _, [] => True
  | view, fill :: fills =>
      view fill.maker.id = some (side, fill.maker) ∧
        0 < fill.qty ∧ fill.qty ≤ fill.maker.qty ∧
        Applies side (reduce side view fill) fills

/--
State kept in step with a view, one fill at a time, is in step after all the
fills that apply.
-/
theorem Applies.foldl
    {σ : Type} {side : Side} {related : View ι π → σ → Prop}
    {update : σ → Fill ι π → σ}
    (step : ∀ view state fill,
      related view state → view fill.maker.id = some (side, fill.maker) →
        0 < fill.qty → fill.qty ≤ fill.maker.qty →
          related (reduce side view fill) (update state fill))
    {view : View ι π} {fills : List (Fill ι π)} {state : σ}
    (applies : Applies side view fills) (initial : related view state) :
    related (fills.foldl (reduce side) view) (fills.foldl update state) := by
  induction fills generalizing view state with
  | nil => exact initial
  | cons fill fills induction =>
      obtain ⟨found, positive, within, later⟩ := applies
      exact induction later (step view state fill initial found positive within)

/-- Fills that apply leave an identifier that is not shown alone. -/
theorem Applies.foldl_reduce_of_none
    {side : Side} {view : View ι π} {fills : List (Fill ι π)}
    (applies : Applies side view fills) {id : ι} (absent : view id = none) :
    fills.foldl (reduce side) view id = none := by
  have related := @Applies.foldl ι π _ Unit side
    (fun view _ => view id = none) (fun _ _ => ())
    (fun view _ fill absent found _ _ => by
      have other : id ≠ fill.maker.id := fun equal => by
        rw [equal, found] at absent
        cases absent
      rw [reduce, Function.update_of_ne other]
      exact absent)
    view fills () applies absent
  exact related

variable {makers : List (Resting ι π)} {makerSide : Side}

/-- A sweep's fills turn the view of the makers into that of the rest. -/
theorem foldl_reduce_sweep
    [LinearOrder π] {side : Side} {limit : π} (distinct : Distinct makers)
    {view : View ι π} (agrees : ∀ o ∈ makers, view o.id = some (makerSide, o))
    (qty : Nat) (id : ι) :
    (sweep side limit makers qty).fills.foldl (reduce makerSide) view id =
      if id ∈ makers.map Resting.id then
        (lookup (sweep side limit makers qty).rest id).map (makerSide, ·)
      else
        view id := by
  induction makers generalizing view qty with
  | nil => simp [sweep]
  | cons maker makers induction =>
      have unique := List.nodup_cons.mp distinct
      have unchanged (id : ι) :
          view id =
            if id ∈ (maker :: makers).map Resting.id then
              (lookup (maker :: makers) id).map (makerSide, ·)
            else
              view id := by
        split
        · rename_i member
          obtain ⟨o, inside, rfl⟩ := List.mem_map.mp member
          rw [agrees o inside,
            (lookup_eq_some_iff distinct).mpr ⟨inside, rfl⟩]
          rfl
        · rfl
      unfold sweep
      split
      · exact unchanged id
      · split
        · rename_i whole
          have later (o : Resting ι π) (inside : o ∈ makers) :
              reduce makerSide view { maker := maker, qty := maker.qty }
                  o.id =
                some (makerSide, o) := by
            have other : o.id ≠ maker.id := fun equal =>
              unique.1 (equal ▸ List.mem_map_of_mem inside)
            rw [reduce, Function.update_of_ne other]
            exact agrees o (List.mem_cons_of_mem _ inside)
          rw [List.foldl_cons, induction unique.2 later]
          by_cases here : id = maker.id
          · subst here
            have absent : maker.id ∉
                (sweep side limit makers
                  (qty - maker.qty)).rest.map Resting.id :=
              fun member =>
                unique.1 ((sweep_rest_ids makers _).subset member)
            simp [unique.1, reduce, lookup_eq_none_iff.mpr absent]
          · simp [here, reduce]
        · rename_i part
          simp only [List.foldl_cons, List.foldl_nil, reduce, lookup_cons]
          by_cases here : id = maker.id
          · subst here
            simp [Nat.lt_of_not_le part, Fill.remaining]
          · have same := unchanged id
            rw [lookup_cons, Function.update_of_ne here] at same
            rw [Function.update_of_ne here, Function.update_of_ne here]
            exact same

theorem applies_sweep
    [LinearOrder π] {side : Side} {limit : π} (distinct : Distinct makers)
    (positive : Positive makers) {view : View ι π}
    (agrees : ∀ o ∈ makers, view o.id = some (makerSide, o)) (qty : Nat) :
    Applies makerSide view (sweep side limit makers qty).fills := by
  induction makers generalizing view qty with
  | nil => trivial
  | cons maker makers induction =>
      have unique := List.nodup_cons.mp distinct
      have here := agrees maker List.mem_cons_self
      have open_ := positive maker List.mem_cons_self
      unfold sweep
      split
      · trivial
      · rename_i goes
        rw [not_or] at goes
        split
        · refine ⟨here, open_, Nat.le_refl _, ?_⟩
          refine induction unique.2
            (fun o inside => positive o (List.mem_cons_of_mem _ inside))
            (fun o inside => ?_) _
          have other : o.id ≠ maker.id := fun equal =>
            unique.1 (equal ▸ List.mem_map_of_mem inside)
          rw [reduce, Function.update_of_ne other]
          exact agrees o (List.mem_cons_of_mem _ inside)
        · rename_i part
          exact ⟨here, Nat.pos_of_ne_zero goes.1, Nat.le_of_not_le part,
            trivial⟩

end Lookups

end MatchingBench.Lib.PriceTime
