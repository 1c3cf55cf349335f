import MatchingBench.Lib.PriceTime

/-!
# Two-sided order books

A book of two ladders that is always sorted, uncrossed and free of empty
orders and duplicate identifiers.  An order is submitted by sweeping the
opposite ladder and, if it may rest, queueing what is left.
-/

set_option autoImplicit false

namespace MatchingBench.Lib.OrderBook

open MatchingBench.Lib.PriceTime

variable {ι π : Type} [LinearOrder π] [DecidableEq ι]

/-- No order of one ladder reaches the price of an order of the other. -/
def Uncrossed (side : Side) (ours theirs : List (Resting ι π)) : Prop :=
  ∀ o ∈ ours, ∀ t ∈ theirs, ¬side.atLeast o.price t.price

/-- The resting orders of both sides. -/
structure Book (ι π : Type) [LinearOrder π] where
  ladder : Side → List (Resting ι π)
  sorted : ∀ side, Sorted side (ladder side)
  positive : ∀ side, Positive (ladder side)
  distinct : Distinct (ladder .buy ++ ladder .sell)
  uncrossed : Uncrossed .buy (ladder .buy) (ladder .sell)

/-- The book without orders. -/
def Book.empty : Book ι π where
  ladder _ := []
  sorted _ := List.Pairwise.nil
  positive _ _ member := absurd member List.not_mem_nil
  distinct := List.nodup_nil
  uncrossed _ member := absurd member List.not_mem_nil

omit [DecidableEq ι] in
theorem Book.ext_ladder
    {left right : Book ι π}
    (same : ∀ side, left.ladder side = right.ladder side) :
    left = right := by
  cases left
  cases right
  congr
  exact funext same

omit [DecidableEq ι] in
theorem Book.distinct_side (book : Book ι π) (side : Side) :
    Distinct (book.ladder side ++ book.ladder side.opposite) := by
  cases side with
  | buy => exact book.distinct
  | sell =>
      exact (List.perm_append_comm.map Resting.id).nodup book.distinct

omit [DecidableEq ι] in
theorem Book.uncrossed_side (book : Book ι π) (side : Side) :
    Uncrossed side (book.ladder side) (book.ladder side.opposite) := by
  cases side with
  | buy => exact book.uncrossed
  | sell => exact fun o inAsks t inBids => book.uncrossed t inBids o inAsks

omit [DecidableEq ι] in
theorem Book.distinct_ladder (book : Book ι π) (side : Side) :
    Distinct (book.ladder side) := by
  have both := book.distinct_side side
  rw [Distinct, List.map_append] at both
  exact List.Nodup.of_append_left both

/-! ## Queries -/

/-- The order with an identifier and the side it rests on. -/
def Book.lookup (book : Book ι π) : View ι π := fun id =>
  match PriceTime.lookup (book.ladder .buy) id with
  | some o => some (.buy, o)
  | none => (PriceTime.lookup (book.ladder .sell) id).map (.sell, ·)

/-- The best price of a side. -/
def Book.best (book : Book ι π) (side : Side) : Option π :=
  (book.ladder side).head?.map Resting.price

/-- The open quantity at a price of a side. -/
def Book.depth (book : Book ι π) (side : Side) (price : π) : Nat :=
  ((level price (book.ladder side)).map Resting.qty).sum

theorem Book.lookup_eq_some_iff
    {book : Book ι π} {id : ι} {side : Side} {o : Resting ι π} :
    book.lookup id = some (side, o) ↔ o ∈ book.ladder side ∧ o.id = id := by
  have bids := book.distinct_ladder .buy
  have asks := book.distinct_ladder .sell
  have apart := book.distinct
  rw [Distinct, List.map_append] at apart
  have disjoint := List.disjoint_of_nodup_append apart
  unfold Book.lookup
  cases found : PriceTime.lookup (book.ladder .buy) id with
  | some bid =>
      have inBids := (PriceTime.lookup_eq_some_iff bids).mp found
      cases side with
      | buy =>
          simp only [Option.some.injEq, Prod.mk.injEq, true_and]
          rw [← PriceTime.lookup_eq_some_iff bids, found,
            Option.some.injEq]
      | sell =>
          simp only [Option.some.injEq, Prod.mk.injEq, reduceCtorEq,
            false_and, false_iff]
          rintro ⟨inAsks, same⟩
          exact disjoint (List.mem_map_of_mem inBids.1)
            (inBids.2.trans same.symm ▸ List.mem_map_of_mem inAsks)
  | none =>
      rw [lookup_eq_none_iff] at found
      cases side with
      | buy =>
          simp only [Option.map_eq_some_iff, Prod.mk.injEq, reduceCtorEq,
            false_and, and_false, exists_false, false_iff]
          rintro ⟨inBids, rfl⟩
          exact found (List.mem_map_of_mem inBids)
      | sell =>
          simp only [Option.map_eq_some_iff, Prod.mk.injEq, true_and,
            exists_eq_right]
          exact PriceTime.lookup_eq_some_iff asks

theorem Book.lookup_eq_none_iff {book : Book ι π} {id : ι} :
    book.lookup id = none ↔
      ∀ side, id ∉ (book.ladder side).map Resting.id := by
  constructor
  · intro absent side member
    obtain ⟨o, inside, same⟩ := List.mem_map.mp member
    have found := Book.lookup_eq_some_iff.mpr ⟨inside, same⟩
    rw [absent] at found
    cases found
  · intro absent
    cases found : book.lookup id with
    | none => rfl
    | some entry =>
        have inside := Book.lookup_eq_some_iff.mp
          (show book.lookup id = some (entry.1, entry.2) from found)
        exact absurd (inside.2 ▸ List.mem_map_of_mem inside.1)
          (absent entry.1)

/-! ## Building books -/

/-- The book with the given ladders on `side` and opposite to it. -/
def Book.ofSides
    (side : Side) (ours theirs : List (Resting ι π))
    (sortedOurs : Sorted side ours) (sortedTheirs : Sorted side.opposite theirs)
    (positiveOurs : Positive ours) (positiveTheirs : Positive theirs)
    (distinct : Distinct (ours ++ theirs))
    (uncrossed : Uncrossed side ours theirs) : Book ι π where
  ladder s := if s = side then ours else theirs
  sorted s := by
    split
    · rename_i same
      exact same ▸ sortedOurs
    · rename_i other
      exact Side.eq_opposite_of_ne other ▸ sortedTheirs
  positive s := by
    split
    · exact positiveOurs
    · exact positiveTheirs
  distinct := by
    cases side with
    | buy => exact distinct
    | sell =>
        exact (List.perm_append_comm.map Resting.id).nodup distinct
  uncrossed := by
    cases side with
    | buy => exact uncrossed
    | sell => exact fun o inTheirs t inOurs => uncrossed t inOurs o inTheirs

/-! ## Withdrawing -/

/-- Withdraw an order, if it rests. -/
def Book.withdraw (book : Book ι π) (id : ι) : Book ι π where
  ladder side := PriceTime.withdraw id (book.ladder side)
  sorted side := (book.sorted side).filter _
  positive side o member := book.positive side o (List.mem_of_mem_filter member)
  distinct := by
    rw [PriceTime.withdraw, PriceTime.withdraw, ← List.filter_append,
      Distinct]
    exact (List.filter_sublist.map Resting.id).nodup book.distinct
  uncrossed o inBids t inAsks :=
    book.uncrossed o (List.mem_of_mem_filter inBids) t
      (List.mem_of_mem_filter inAsks)

@[simp]
theorem Book.ladder_withdraw (book : Book ι π) (id : ι) (side : Side) :
    (book.withdraw id).ladder side =
      PriceTime.withdraw id (book.ladder side) :=
  rfl

theorem Book.lookup_withdraw (book : Book ι π) (id : ι) :
    (book.withdraw id).lookup =
      Function.update book.lookup id none := by
  funext other
  by_cases same : other = id
  · subst same
    rw [Function.update_self, Book.lookup_eq_none_iff]
    intro side
    simp [PriceTime.withdraw]
  · rw [Function.update_of_ne same]
    simp only [Book.lookup, Book.ladder_withdraw,
      PriceTime.lookup_withdraw, Function.update_of_ne same]

theorem Book.lookup_withdraw_self (book : Book ι π) (id : ι) :
    (book.withdraw id).lookup id = none := by
  rw [Book.lookup_withdraw, Function.update_self]

/-! ## Submitting -/

/-- The outcome of submitting an order. -/
structure Submission (ι π : Type) [LinearOrder π] where
  fills : List (Fill ι π)
  /-- The quantity that was not filled. -/
  left : Nat
  book : Book ι π

/-- The submitted order's own ladder after its sweep. -/
def settled
    (side : Side) (order : Resting ι π) (left : Nat) (rests : Bool)
    (ours : List (Resting ι π)) : List (Resting ι π) :=
  if rests ∧ left ≠ 0 then enqueue side { order with qty := left } ours
  else ours

section Settled

variable {side : Side} {order : Resting ι π} {left : Nat} {rests : Bool}
  {ours : List (Resting ι π)}

omit [DecidableEq ι] in
theorem mem_settled {o : Resting ι π}
    (member : o ∈ settled side order left rests ours) :
    (left ≠ 0 ∧ o = { order with qty := left }) ∨ o ∈ ours := by
  unfold settled at member
  split at member
  · rename_i stays
    rcases mem_enqueue.mp member with rfl | member
    · exact Or.inl ⟨stays.2, rfl⟩
    · exact Or.inr member
  · exact Or.inr member

omit [DecidableEq ι] in
theorem settled_ids :
    (settled side order left rests ours).map Resting.id ⊆
      order.id :: ours.map Resting.id := by
  intro id member
  obtain ⟨o, inside, rfl⟩ := List.mem_map.mp member
  rcases mem_settled inside with ⟨_, rfl⟩ | old
  · exact List.mem_cons_self
  · exact List.mem_cons_of_mem _ (List.mem_map_of_mem old)

omit [DecidableEq ι] in
theorem sorted_settled (sorted : Sorted side ours) :
    Sorted side (settled side order left rests ours) := by
  unfold settled
  split
  · exact sorted_enqueue _ sorted
  · exact sorted

omit [DecidableEq ι] in
theorem positive_settled (positive : Positive ours) :
    Positive (settled side order left rests ours) := by
  intro o member
  rcases mem_settled member with ⟨unfilled, rfl⟩ | old
  · exact Nat.pos_of_ne_zero unfilled
  · exact positive o old

omit [DecidableEq ι] in
theorem distinct_settled
    {theirs rest : List (Resting ι π)}
    (distinct : Distinct (ours ++ theirs))
    (fresh : order.id ∉ (ours ++ theirs).map Resting.id)
    (kept : (rest.map Resting.id).Sublist (theirs.map Resting.id)) :
    Distinct (settled side order left rests ours ++ rest) := by
  have smaller :
      ((ours ++ rest).map Resting.id).Sublist
        ((ours ++ theirs).map Resting.id) := by
    rw [List.map_append, List.map_append]
    exact List.Sublist.append (List.Sublist.refl _) kept
  have plain : Distinct (ours ++ rest) := smaller.nodup distinct
  unfold settled
  split
  · have moved :
        ((enqueue side { order with qty := left } ours ++ rest).map
            Resting.id).Perm
          (order.id :: (ours ++ rest).map Resting.id) :=
      ((enqueue_perm side { order with qty := left } ours).append_right
        rest).map Resting.id
    refine moved.symm.nodup (List.nodup_cons.mpr ⟨?_, plain⟩)
    exact fun member => fresh (smaller.subset member)
  · exact plain

end Settled

/--
Trade an order of a new identifier against the opposite ladder; what is left
joins its own ladder if it `rests`, and is dropped otherwise.
-/
def Book.submit
    (book : Book ι π) (side : Side) (order : Resting ι π) (rests : Bool)
    (fresh : book.lookup order.id = none) : Submission ι π :=
  let swept := sweep side order.price (book.ladder side.opposite) order.qty
  { fills := swept.fills
    left := swept.left
    book := Book.ofSides side
      (settled side order swept.left rests (book.ladder side))
      swept.rest
      (sorted_settled (book.sorted side))
      (sorted_sweep_rest (book.sorted side.opposite) order.qty)
      (positive_settled (book.positive side))
      (positive_sweep_rest (book.positive side.opposite) order.qty)
      (distinct_settled (book.distinct_side side)
        (by
          rw [List.map_append, List.mem_append, not_or]
          exact ⟨Book.lookup_eq_none_iff.mp fresh side,
            Book.lookup_eq_none_iff.mp fresh side.opposite⟩)
        (sweep_rest_ids _ _))
      (by
        intro o inOurs t inRest crosses
        rcases mem_settled inOurs with ⟨unfilled, rfl⟩ | old
        · exact sweep_left_blocked (book.sorted side.opposite) order.qty
            unfilled t inRest crosses
        · obtain ⟨maker, member, samePrice⟩ :=
            exists_price_of_mem_rest inRest
          exact book.uncrossed_side side o old maker member
            (samePrice ▸ crosses)) }

section Submitting

variable {book : Book ι π} {side : Side} {order : Resting ι π}
  {rests : Bool} {fresh : book.lookup order.id = none}

theorem Book.submit_fills :
    (book.submit side order rests fresh).fills =
      (sweep side order.price (book.ladder side.opposite)
        order.qty).fills :=
  rfl

theorem Book.submit_left :
    (book.submit side order rests fresh).left =
      (sweep side order.price (book.ladder side.opposite) order.qty).left :=
  rfl

theorem Book.submit_ladder :
    (book.submit side order rests fresh).book.ladder side =
      settled side order (book.submit side order rests fresh).left rests
        (book.ladder side) :=
  if_pos rfl

theorem Book.submit_ladder_opposite :
    (book.submit side order rests fresh).book.ladder side.opposite =
      (sweep side order.price (book.ladder side.opposite)
        order.qty).rest :=
  if_neg (Side.opposite_ne side)

theorem Book.submit_left_le
    (book : Book ι π) (side : Side) (order : Resting ι π) (rests : Bool)
    (fresh : book.lookup order.id = none) :
    (book.submit side order rests fresh).left ≤ order.qty :=
  sweep_left_le _ _

omit [DecidableEq ι] in
@[simp]
theorem settled_dropped
    {left : Nat} {ours : List (Resting ι π)} :
    settled side order left false ours = ours := by
  simp [settled]

/-- Without a remainder it makes no difference whether the order may rest. -/
theorem Book.submit_of_filled
    (filled : (book.submit side order rests fresh).left = 0) :
    (book.submit side order rests fresh).book =
      (book.submit side order false fresh).book := by
  refine Book.ext_ladder fun s => ?_
  by_cases own : s = side
  · subst own
    rw [Book.submit_ladder, Book.submit_ladder, filled, settled_dropped]
    simp [settled]
  · rw [Side.eq_opposite_of_ne own, Book.submit_ladder_opposite,
      Book.submit_ladder_opposite]

/-- Whether the order may rest matters only for a remainder. -/
theorem Book.submit_congr_rests
    {other : Bool}
    (same : (book.submit side order rests fresh).left ≠ 0 → rests = other) :
    (book.submit side order rests fresh).book =
      (book.submit side order other fresh).book := by
  by_cases filled : (book.submit side order rests fresh).left = 0
  · have otherFilled : (book.submit side order other fresh).left = 0 :=
      filled
    rw [Book.submit_of_filled filled, Book.submit_of_filled otherFilled]
  · rw [same filled]

/-- Withdrawing the submitted order undoes its resting. -/
theorem Book.withdraw_submit :
    (book.submit side order rests fresh).book.withdraw order.id =
      (book.submit side order false fresh).book := by
  have absent := Book.lookup_eq_none_iff.mp fresh
  refine Book.ext_ladder fun s => ?_
  rw [Book.ladder_withdraw]
  by_cases own : s = side
  · subst own
    rw [Book.submit_ladder, Book.submit_ladder, settled_dropped, settled]
    split
    · exact withdraw_enqueue rfl (absent s)
    · exact PriceTime.withdraw_eq_self (absent s)
  · rw [Side.eq_opposite_of_ne own, Book.submit_ladder_opposite,
      Book.submit_ladder_opposite]
    exact PriceTime.withdraw_eq_self fun member =>
      absent side.opposite ((sweep_rest_ids _ _).subset member)

/-- A submission's fills apply to the book it was submitted to. -/
theorem Book.submit_applies :
    Applies side.opposite book.lookup
      (book.submit side order rests fresh).fills :=
  applies_sweep (book.distinct_ladder side.opposite)
    (book.positive side.opposite)
    (fun _ member => Book.lookup_eq_some_iff.mpr ⟨member, rfl⟩) order.qty

/-- An order that is on neither side after a submission does not rest. -/
theorem Book.lookup_submit_eq_none
    {id : ι}
    (ours : id ∉
      (settled side order (book.submit side order rests fresh).left rests
        (book.ladder side)).map Resting.id)
    (theirs : id ∉
      (sweep side order.price (book.ladder side.opposite)
        order.qty).rest.map Resting.id) :
    (book.submit side order rests fresh).book.lookup id = none := by
  rw [Book.lookup_eq_none_iff]
  intro s member
  by_cases same : s = side
  · subst same
    rw [Book.submit_ladder] at member
    exact ours member
  · rw [Side.eq_opposite_of_ne same, Book.submit_ladder_opposite] at member
    exact theirs member

/-- The submitted order rests if it may and is not filled. -/
theorem Book.lookup_submit_self :
    (book.submit side order rests fresh).book.lookup order.id =
      if rests ∧ (book.submit side order rests fresh).left ≠ 0 then
        some (side, { order with
          qty := (book.submit side order rests fresh).left })
      else
        none := by
  have absent := Book.lookup_eq_none_iff.mp fresh
  split
  · rename_i stays
    rw [Book.lookup_eq_some_iff, Book.submit_ladder, settled, if_pos stays,
      mem_enqueue]
    exact ⟨Or.inl rfl, rfl⟩
  · rename_i gone
    apply Book.lookup_submit_eq_none
    · rw [settled, if_neg gone]
      exact absent side
    · exact fun member =>
        absent side.opposite ((sweep_rest_ids _ _).subset member)

/-- An order of the opposite side rests as the sweep left it. -/
theorem Book.lookup_submit_maker
    {id : ι} (own : id ≠ order.id)
    (maker : id ∈ (book.ladder side.opposite).map Resting.id) :
    (book.submit side order rests fresh).book.lookup id =
      (PriceTime.lookup
        (sweep side order.price (book.ladder side.opposite) order.qty).rest
        id).map (side.opposite, ·) := by
  cases found : PriceTime.lookup
    (sweep side order.price (book.ladder side.opposite) order.qty).rest id with
  | some o =>
      rw [Option.map_some, Book.lookup_eq_some_iff,
        Book.submit_ladder_opposite]
      exact ⟨mem_of_lookup found, lookup_id found⟩
  | none =>
      rw [Option.map_none]
      apply Book.lookup_submit_eq_none
      · intro member
        rcases List.mem_cons.mp (settled_ids member) with here | old
        · exact own here
        · have apart := book.distinct_side side
          rw [Distinct, List.map_append] at apart
          exact List.disjoint_of_nodup_append apart old maker
      · exact PriceTime.lookup_eq_none_iff.mp found

/-- Every other order is left alone. -/
theorem Book.lookup_submit_bystander
    {id : ι} (own : id ≠ order.id)
    (other : id ∉ (book.ladder side.opposite).map Resting.id) :
    (book.submit side order rests fresh).book.lookup id = book.lookup id := by
  cases found : book.lookup id with
  | some entry =>
      rcases entry with ⟨s, o⟩
      have inside := Book.lookup_eq_some_iff.mp found
      have ours : s = side := by
        by_contra different
        rw [Side.eq_opposite_of_ne different] at inside
        exact other (inside.2 ▸ List.mem_map_of_mem inside.1)
      subst ours
      rw [Book.lookup_eq_some_iff, Book.submit_ladder, settled]
      split
      · exact ⟨mem_enqueue.mpr (Or.inr inside.1), inside.2⟩
      · exact inside
  | none =>
      apply Book.lookup_submit_eq_none
      · intro member
        rcases List.mem_cons.mp (settled_ids member) with here | old
        · exact own here
        · exact Book.lookup_eq_none_iff.mp found side old
      · exact fun member => other ((sweep_rest_ids _ _).subset member)

/-- Where each order rests after a submission. -/
theorem Book.lookup_submit :
    (book.submit side order rests fresh).book.lookup =
      Function.update
        ((book.submit side order rests fresh).fills.foldl
          (reduce side.opposite) book.lookup)
        order.id
        (if rests ∧ (book.submit side order rests fresh).left ≠ 0 then
          some (side, { order with
            qty := (book.submit side order rests fresh).left })
        else
          none) := by
  have viewed (id : ι) :=
    @foldl_reduce_sweep ι π _ (book.ladder side.opposite) side.opposite _
      side order.price (book.distinct_ladder side.opposite) book.lookup
      (fun _ member => Book.lookup_eq_some_iff.mpr ⟨member, rfl⟩)
      order.qty id
  funext id
  by_cases own : id = order.id
  · subst own
    rw [Function.update_self]
    exact Book.lookup_submit_self
  · rw [Function.update_of_ne own, Book.submit_fills, viewed id]
    split
    · rename_i maker
      exact Book.lookup_submit_maker own maker
    · rename_i other
      exact Book.lookup_submit_bystander own other

/-- The other orders after an order that does not rest. -/
theorem Book.lookup_submit_dropped :
    (book.submit side order false fresh).book.lookup =
      (book.submit side order false fresh).fills.foldl
        (reduce side.opposite) book.lookup := by
  have absent :
      (book.submit side order false fresh).fills.foldl
        (reduce side.opposite) book.lookup order.id = none :=
    Book.submit_applies.foldl_reduce_of_none fresh
  rw [Book.lookup_submit]
  simp only [Bool.false_eq_true, false_and, if_false]
  rw [← absent, Function.update_eq_self]

/-- An order that may rest, next to one that may not. -/
theorem Book.lookup_submit_rests :
    (book.submit side order true fresh).book.lookup =
      Function.update (book.submit side order false fresh).book.lookup
        order.id
        (if (book.submit side order true fresh).left ≠ 0 then
          some (side, { order with
            qty := (book.submit side order true fresh).left })
        else
          none) := by
  rw [Book.lookup_submit, Book.lookup_submit_dropped]
  simp only [true_and]
  rfl

theorem Book.lookup_submit_dropped_self :
    (book.submit side order false fresh).book.lookup order.id = none := by
  rw [Book.lookup_submit, Function.update_self]
  simp

end Submitting

/-! ## Amending in place -/

/-- Give the order with an identifier another open quantity. -/
def amended (id : ι) (qty : Nat) (o : Resting ι π) : Resting ι π :=
  if o.id = id then { o with qty := qty } else o

section Amended

variable {id : ι} {qty : Nat}

omit [LinearOrder π] in
@[simp]
theorem id_amended (o : Resting ι π) : (amended id qty o).id = o.id := by
  unfold amended
  split <;> rfl

omit [LinearOrder π] in
@[simp]
theorem price_amended (o : Resting ι π) :
    (amended id qty o).price = o.price := by
  unfold amended
  split <;> rfl

omit [LinearOrder π] in
theorem qty_amended_pos
    {o : Resting ι π} (positive : 0 < o.qty) (some_ : 0 < qty) :
    0 < (amended id qty o).qty := by
  unfold amended
  split
  · exact some_
  · exact positive

end Amended

/-- Change an order's open quantity; it keeps its place in its queue. -/
def Book.amend (book : Book ι π) (id : ι) (qty : Nat) (some_ : 0 < qty) :
    Book ι π where
  ladder side := (book.ladder side).map (amended id qty)
  sorted side := by
    rw [Sorted, List.pairwise_map]
    simp only [price_amended]
    exact book.sorted side
  positive side o member := by
    rcases List.mem_map.mp member with ⟨before, inside, rfl⟩
    exact qty_amended_pos (book.positive side before inside) some_
  distinct := by
    have ids : Resting.id ∘ amended id qty =
        (Resting.id : Resting ι π → ι) :=
      funext id_amended
    rw [← List.map_append, Distinct, List.map_map, ids]
    exact book.distinct
  uncrossed o inBids t inAsks := by
    rcases List.mem_map.mp inBids with ⟨bid, insideBids, rfl⟩
    rcases List.mem_map.mp inAsks with ⟨ask, insideAsks, rfl⟩
    rw [price_amended, price_amended]
    exact book.uncrossed bid insideBids ask insideAsks

/-! ## What holds of all resting orders -/

/-- A property of the names, sides and prices of the resting orders. -/
def Book.All (property : ι → Side → π → Prop) (book : Book ι π) : Prop :=
  ∀ id side o, book.lookup id = some (side, o) → property id side o.price

section All

variable {property : ι → Side → π → Prop} {book : Book ι π}

theorem Book.all_empty : (Book.empty : Book ι π).All property := by
  intro id side o found
  simp [Book.lookup, Book.empty, PriceTime.lookup] at found

theorem Book.All.mono
    {other : ι → Side → π → Prop} (all : book.All property)
    (implies : ∀ id side o, book.lookup id = some (side, o) →
      property id side o.price → other id side o.price) :
    book.All other :=
  fun id side o found => implies id side o found (all id side o found)

theorem Book.All.withdraw (all : book.All property) (id : ι) :
    (book.withdraw id).All property := by
  intro other side o found
  rw [Book.lookup_withdraw] at found
  by_cases same : other = id
  · subst same
    rw [Function.update_self] at found
    cases found
  · rw [Function.update_of_ne same] at found
    exact all other side o found

/-- Fills change quantities only, so a new order is all there is to check. -/
theorem Book.All.submit
    (all : book.All property) {side : Side} {order : Resting ι π}
    {rests : Bool} {fresh : book.lookup order.id = none}
    (new : rests = true → property order.id side order.price) :
    (book.submit side order rests fresh).book.All property := by
  have traded := @Applies.foldl ι π _ Unit side.opposite
    (fun view _ => ∀ id side o, view id = some (side, o) →
      property id side o.price)
    (fun state _ => state)
    (fun view _ fill shown found _ _ id s o shows => by
      by_cases maker : id = fill.maker.id
      · subst maker
        rw [reduce, Function.update_self] at shows
        split at shows
        · cases shows
          exact shown _ _ fill.maker found
        · cases shows
      · rw [reduce, Function.update_of_ne maker] at shows
        exact shown id s o shows)
    book.lookup (book.submit side order rests fresh).fills ()
    Book.submit_applies all
  intro id s o found
  rw [Book.lookup_submit] at found
  by_cases own : id = order.id
  · subst own
    rw [Function.update_self] at found
    split at found
    · rename_i stays
      cases found
      exact new stays.1
    · cases found
  · rw [Function.update_of_ne own] at found
    exact traded id s o found

end All

/-- Every resting order has an open quantity below a bound. -/
def Book.Below (bound : Nat) (book : Book ι π) : Prop :=
  ∀ side, ∀ o ∈ book.ladder side, o.qty < bound

section Below

variable {bound : Nat} {book : Book ι π}

omit [DecidableEq ι] in
theorem Book.below_empty : (Book.empty : Book ι π).Below bound :=
  fun _ _ member => absurd member List.not_mem_nil

theorem Book.Below.withdraw (below : book.Below bound) (id : ι) :
    (book.withdraw id).Below bound :=
  fun side o member => below side o (List.mem_of_mem_filter member)

/-- Open quantities only shrink, so the new order is all there is to check. -/
theorem Book.Below.submit
    (below : book.Below bound) {side : Side} {order : Resting ι π}
    {rests : Bool} {fresh : book.lookup order.id = none}
    (small : order.qty < bound) :
    (book.submit side order rests fresh).book.Below bound := by
  intro s o member
  by_cases own : s = side
  · subst own
    rw [Book.submit_ladder] at member
    rcases mem_settled member with ⟨_, rfl⟩ | old
    · exact Nat.lt_of_le_of_lt (book.submit_left_le s order rests fresh) small
    · exact below s o old
  · rw [Side.eq_opposite_of_ne own, Book.submit_ladder_opposite] at member
    rcases sweep_rest_qty member with ⟨maker, inside, less⟩
    exact Nat.lt_of_le_of_lt less (below side.opposite maker inside)

end Below

/-- What is traded and what is left make up the submitted quantity. -/
theorem Book.submit_conserves
    (book : Book ι π) (side : Side) (order : Resting ι π) (rests : Bool)
    (fresh : book.lookup order.id = none) :
    ((book.submit side order rests fresh).fills.map Fill.qty).sum +
      (book.submit side order rests fresh).left = order.qty :=
  sweep_conserves _ _

/-! ## The number of resting orders -/

/-- How many orders rest. -/
def Book.size (book : Book ι π) : Nat :=
  (book.ladder .buy).length + (book.ladder .sell).length

omit [DecidableEq ι] in
theorem Book.size_eq (book : Book ι π) (side : Side) :
    book.size =
      (book.ladder side).length + (book.ladder side.opposite).length := by
  cases side with
  | buy => rfl
  | sell => exact Nat.add_comm _ _

/-- Withdrawing a resting order makes the book smaller. -/
theorem Book.size_withdraw_lt
    {book : Book ι π} {id : ι} {entry : Side × Resting ι π}
    (found : book.lookup id = some entry) :
    (book.withdraw id).size < book.size := by
  have ⟨member, named⟩ := Book.lookup_eq_some_iff.mp
    (show book.lookup id = some (entry.1, entry.2) from found)
  rw [Book.size_eq _ entry.1, Book.size_eq _ entry.1]
  simp only [Book.ladder_withdraw, PriceTime.withdraw]
  have own : ((book.ladder entry.1).filter fun o => o.id ≠ id).length <
      (book.ladder entry.1).length :=
    List.length_filter_lt_length_iff_exists.mpr
      ⟨entry.2, member, by simp [named]⟩
  have other := List.length_filter_le (fun o => o.id ≠ id)
    (book.ladder entry.1.opposite)
  omega

omit [DecidableEq ι] in
theorem length_enqueue
    (side : Side) (order : Resting ι π) (orders : List (Resting ι π)) :
    (enqueue side order orders).length = orders.length + 1 := by
  rw [(enqueue_perm side order orders).length_eq, List.length_cons]

/--
Every fill but the last finishes a maker.  The last one does, or it finishes
the submitted order, so that one does not come to rest.
-/
theorem Book.size_submit
    {book : Book ι π} {side : Side} {order : Resting ι π}
    {rests : Bool} {fresh : book.lookup order.id = none} :
    let submitted := book.submit side order rests fresh
    submitted.fills.length + submitted.book.size ≤ book.size + 1 ∧
      (rests = false → submitted.left ≠ 0 →
        submitted.fills.length + submitted.book.size ≤ book.size) := by
  have ⟨most, exact⟩ := @sweep_length ι π _ side order.price
    (book.ladder side.opposite) order.qty
  dsimp only
  rw [Book.size_eq _ side, Book.size_eq book side, Book.submit_ladder,
    Book.submit_ladder_opposite, Book.submit_left, Book.submit_fills]
  unfold settled
  split
  · rename_i stays
    have all := exact stays.2
    rw [length_enqueue]
    exact ⟨by omega, fun dropped => by simp [dropped] at stays⟩
  · refine ⟨by omega, fun _ unfilled => ?_⟩
    have all := exact unfilled
    omega

end MatchingBench.Lib.OrderBook
