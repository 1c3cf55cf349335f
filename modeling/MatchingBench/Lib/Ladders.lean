import MatchingBench.Lib.Correspondence

/-!
# Matchers as pairs of ladders

What a matcher holds, without the invariants of a book: one ladder for each
side.  A matcher over its own names, price units and quantities stands for a
book when the ladders of both sides correspond; submitting and withdrawing keep
that, and yield corresponding fills.
-/

set_option autoImplicit false

namespace MatchingBench.Lib.Ladders

open MatchingBench.Lib.PriceTime
open MatchingBench.Lib.OrderBook
open MatchingBench.Lib.Correspondence

variable {ι κ π ρ : Type}

/-- The resting orders of both sides. -/
abbrev Sides (κ ρ : Type) : Type :=
  Side → List (Resting κ ρ)

/-! ## Operations -/

section Operations

variable [LinearOrder ρ]

/-- Trade against the ladder opposite to `side`. -/
def cross (ladders : Sides κ ρ) (side : Side) (limit : ρ) (qty : Nat) :
    Sweep κ ρ :=
  sweep side limit (ladders side.opposite) qty

/-- The ladders after trading. -/
def crossed (ladders : Sides κ ρ) (side : Side) (limit : ρ) (qty : Nat) :
    Sides κ ρ :=
  Function.update ladders side.opposite (cross ladders side limit qty).rest

/-- Queue an order on its side. -/
def queue (ladders : Sides κ ρ) (side : Side) (order : Resting κ ρ) :
    Sides κ ρ :=
  Function.update ladders side (enqueue side order (ladders side))

/-- The ladders after trading an order and queueing what is left of it. -/
def submitted
    (ladders : Sides κ ρ) (side : Side) (order : Resting κ ρ)
    (rests : Bool) : Sides κ ρ :=
  let left := (cross ladders side order.price order.qty).left
  let traded := crossed ladders side order.price order.qty
  if rests ∧ left ≠ 0 then queue traded side { order with qty := left }
  else traded

end Operations

/-- Withdraw a name from both sides. -/
def withdrawn [DecidableEq κ] (ladders : Sides κ ρ) (name : κ) :
    Sides κ ρ :=
  fun side => withdraw name (ladders side)

/-- A name on one of the ladders. -/
def Rests (ladders : Sides κ ρ) (name : κ) : Prop :=
  ∃ side, ∃ o ∈ ladders side, o.id = name

section Invariants

variable [LinearOrder ρ] {ladders : Sides κ ρ} {side : Side}
  {order : Resting κ ρ} {rests : Bool}

/-- Trading only takes names off the ladders. -/
theorem rests_crossed
    {limit : ρ} {qty : Nat} {name : κ}
    (stays : Rests (crossed ladders side limit qty) name) :
    Rests ladders name := by
  rcases stays with ⟨s, o, member, rfl⟩
  unfold crossed at member
  by_cases theirs : s = side.opposite
  · subst theirs
    rw [Function.update_self] at member
    rcases List.mem_map.mp
      (sweep_rest_ids _ _ |>.subset (List.mem_map_of_mem member)) with
      ⟨maker, inside, same⟩
    exact ⟨_, maker, inside, same⟩
  · rw [Function.update_of_ne theirs] at member
    exact ⟨s, o, member, rfl⟩

/-- Queueing an order adds its own name. -/
theorem rests_queue
    {name : κ} (stays : Rests (queue ladders side order) name) :
    name = order.id ∨ Rests ladders name := by
  rcases stays with ⟨s, o, member, rfl⟩
  unfold queue at member
  by_cases own : s = side
  · subst own
    rw [Function.update_self] at member
    rcases mem_enqueue.mp member with rfl | old
    · exact Or.inl rfl
    · exact Or.inr ⟨s, o, old, rfl⟩
  · rw [Function.update_of_ne own] at member
    exact Or.inr ⟨s, o, member, rfl⟩

/-- Submitting an order adds at most its own name. -/
theorem rests_submitted
    {name : κ} (stays : Rests (submitted ladders side order rests) name) :
    name = order.id ∨ Rests ladders name := by
  dsimp only [submitted] at stays
  split at stays
  · rcases rests_queue stays with rfl | old
    · exact Or.inl rfl
    · exact Or.inr (rests_crossed old)
  · exact Or.inr (rests_crossed stays)

theorem positive_crossed
    (positive : ∀ side, Positive (ladders side)) {limit : ρ} {qty : Nat}
    (s : Side) : Positive (crossed ladders side limit qty s) := by
  unfold crossed
  by_cases theirs : s = side.opposite
  · subst theirs
    rw [Function.update_self]
    exact positive_sweep_rest (positive _) qty
  · rw [Function.update_of_ne theirs]
    exact positive s

/-- Submitting an order leaves no empty orders. -/
theorem positive_submitted
    (positive : ∀ side, Positive (ladders side)) (s : Side) :
    Positive (submitted ladders side order rests s) := by
  unfold submitted
  split
  · rename_i stays
    unfold queue
    by_cases own : s = side
    · subst own
      rw [Function.update_self]
      intro o member
      rcases mem_enqueue.mp member with rfl | old
      · exact Nat.pos_of_ne_zero stays.2
      · exact positive_crossed positive s o old
    · rw [Function.update_of_ne own]
      exact positive_crossed positive s
  · exact positive_crossed positive s

end Invariants

/-! ## Standing for a book -/

variable [LinearOrder π]

/-- The ladders correspond to those of a book. -/
def StandsFor
    (link : ι → κ → Prop) (same : π → ρ → Prop) (unit : Nat)
    (ladders : Sides κ ρ) (book : Book ι π) : Prop :=
  ∀ side, AlikeLadders link same unit (book.ladder side) (ladders side)

theorem standsFor_empty
    (link : ι → κ → Prop) (same : π → ρ → Prop) (unit : Nat) :
    StandsFor link same unit (fun _ => []) Book.empty :=
  fun _ => List.Forall₂.nil

section StandsFor

variable {link : ι → κ → Prop} {same : π → ρ → Prop} {unit : Nat}
  {ladders : Sides κ ρ} {book : Book ι π}

/-- A change of the links that keeps those of the resting orders. -/
theorem StandsFor.relink
    {other : ι → κ → Prop} (stands : StandsFor link same unit ladders book)
    (kept : ∀ side, ∀ o ∈ book.ladder side, ∀ name,
      link o.id name → other o.id name) :
    StandsFor other same unit ladders book :=
  fun side => (stands side).weaken fun o member r _ => kept side o member r.id

/-- Withdrawing a corresponding name. -/
theorem StandsFor.withdrawn [DecidableEq ι] [DecidableEq κ]
    (stands : StandsFor link same unit ladders book) {id : ι} {name : κ}
    (names : ∀ side, ∀ o ∈ book.ladder side, ∀ r : Resting κ ρ,
      link o.id r.id → (o.id = id ↔ r.id = name)) :
    StandsFor link same unit (withdrawn ladders name) (book.withdraw id) :=
  fun side =>
    (stands side).withdraw fun o member r _ => names side o member r

/-- The counterpart of a resting order. -/
theorem StandsFor.exists_right [DecidableEq ι]
    (stands : StandsFor link same unit ladders book)
    {id : ι} {side : Side} {o : Resting ι π}
    (found : book.lookup id = some (side, o)) :
    ∃ r ∈ ladders side, Alike link same unit o r :=
  (stands side).exists_right (Book.lookup_eq_some_iff.mp found).1

/-! ## The book's own names -/

section OwnNames

variable [DecidableEq ι] {own : Sides ι ρ}

/-- The order a matcher holds under a resting name. -/
theorem StandsFor.exists_named
    (stands : StandsFor Eq same unit own book)
    {id : ι} {side : Side} {o : Resting ι π}
    (found : book.lookup id = some (side, o)) :
    ∃ r ∈ own side, r.id = id ∧ same o.price r.price ∧
      r.qty = unit * o.qty := by
  rcases stands.exists_right found with ⟨r, member, paired⟩
  have named := (Book.lookup_eq_some_iff.mp found).2
  exact ⟨r, member, paired.id.symm.trans named, paired.price, paired.qty⟩

theorem StandsFor.not_rests
    (stands : StandsFor Eq same unit own book) {id : ι}
    (absent : book.lookup id = none) : ¬Rests own id := by
  rintro ⟨side, r, member, rfl⟩
  rcases (stands side).exists_left member with ⟨o, inside, paired⟩
  have found := Book.lookup_eq_some_iff.mpr ⟨inside, paired.id⟩
  rw [absent] at found
  cases found

theorem StandsFor.withdrawn_named
    (stands : StandsFor Eq same unit own book) (id : ι) :
    StandsFor Eq same unit (Ladders.withdrawn own id) (book.withdraw id) :=
  stands.withdrawn fun _ _ _ _ (named : _ = _) => by rw [named]

omit [DecidableEq ι] in
/-- A matcher in the book's own names and units holds the book's ladders. -/
theorem StandsFor.eq_ladder {ladders : Sides ι π}
    (stands : StandsFor Eq Eq 1 ladders book) : ladders = book.ladder := by
  funext side
  have alike := stands side
  generalize book.ladder side = orders at alike ⊢
  generalize ladders side = others at alike ⊢
  induction alike with
  | nil => rfl
  | cons head _ induction => rw [head.eq, induction]

end OwnNames

/-! ## Trading -/

section Trading

variable [LinearOrder ρ] [DecidableEq ι]

/-- Trading against corresponding ladders. -/
theorem StandsFor.cross
    (stands : StandsFor link same unit ladders book)
    (compatible : OrderCompatible same) (positive : 0 < unit)
    {side : Side} {order : Resting ι π}
    {fresh : book.lookup order.id = none} {limit : ρ}
    (limits : same order.price limit) :
    let dropped := book.submit side order false fresh
    let swept := cross ladders side limit (unit * order.qty)
    List.Forall₂ (AlikeFill link same unit) dropped.fills swept.fills ∧
      swept.left = unit * dropped.left ∧
      StandsFor link same unit
        (crossed ladders side limit (unit * order.qty)) dropped.book := by
  have ⟨fills, left, rest⟩ := (stands side.opposite).sweep compatible positive
    side limits order.qty
  refine ⟨fills, left, fun s => ?_⟩
  by_cases own : s = side
  · subst own
    rw [Book.submit_ladder, settled_dropped, crossed,
      Function.update_of_ne (Side.opposite_ne s).symm]
    exact stands s
  · rw [Side.eq_opposite_of_ne own, Book.submit_ladder_opposite, crossed,
      Function.update_self]
    exact rest

/-- Queueing what is left of a traded order. -/
theorem StandsFor.queue
    {side : Side} {order : Resting ι π}
    {fresh : book.lookup order.id = none}
    (stands : StandsFor link same unit ladders
      (book.submit side order false fresh).book)
    (compatible : OrderCompatible same) {r : Resting κ ρ}
    (unfilled : (book.submit side order true fresh).left ≠ 0)
    (paired : Alike link same unit
      { order with qty := (book.submit side order true fresh).left } r) :
    StandsFor link same unit (queue ladders side r)
      (book.submit side order true fresh).book := by
  intro s
  have before := stands s
  by_cases own : s = side
  · subst own
    rw [Book.submit_ladder, settled_dropped] at before
    rw [Book.submit_ladder, settled, if_pos ⟨rfl, unfilled⟩, Ladders.queue,
      Function.update_self]
    exact before.enqueue compatible s paired
  · rw [Ladders.queue, Function.update_of_ne own]
    rw [Side.eq_opposite_of_ne own, Book.submit_ladder_opposite] at before ⊢
    exact before

/-- Submitting a corresponding order. -/
theorem StandsFor.submitted
    (stands : StandsFor link same unit ladders book)
    (compatible : OrderCompatible same) (positive : 0 < unit)
    {side : Side} {order : Resting ι π} {rests : Bool}
    {fresh : book.lookup order.id = none} {r : Resting κ ρ}
    (paired : Alike link same unit order r) :
    StandsFor link same unit (submitted ladders side r rests)
      (book.submit side order rests fresh).book := by
  have ⟨_, left, traded⟩ := @StandsFor.cross _ _ _ _ _ _ _ _ _ _ _ _ stands
    compatible positive side order fresh r.price paired.price
  have something :
      (Ladders.cross ladders side r.price r.qty).left ≠ 0 ↔
        (book.submit side order true fresh).left ≠ 0 := by
    rw [paired.qty, left, Nat.mul_ne_zero_iff]
    exact and_iff_right (Nat.ne_of_gt positive)
  rw [← paired.qty] at left traded
  unfold Ladders.submitted
  by_cases stays :
      rests = true ∧ (book.submit side order true fresh).left ≠ 0
  · obtain ⟨rfl, unfilled⟩ := stays
    simp only [something, unfilled, true_and, not_false_eq_true, ne_eq,
      if_true]
    exact traded.queue compatible unfilled
      ⟨paired.id, paired.price, left⟩
  · have gone :
        ¬(rests = true ∧
          (Ladders.cross ladders side r.price r.qty).left ≠ 0) := by
      rwa [something]
    have dropped :
        (book.submit side order rests fresh).book =
          (book.submit side order false fresh).book := by
      refine Book.submit_congr_rests fun unfilled => ?_
      exact Bool.eq_false_iff.mpr fun rests => stays ⟨rests, unfilled⟩
    rw [if_neg gone, dropped]
    exact traded

end Trading

end StandsFor

/-! ## A book as a matcher -/

section Own

variable [DecidableEq ι] {book : Book ι π}

omit [DecidableEq ι] in
/-- A book stands for itself. -/
theorem standsFor_self (book : Book ι π) :
    StandsFor Eq Eq 1 book.ladder book := by
  intro side
  exact List.forall₂_same.mpr fun o _ => ⟨rfl, rfl, (Nat.one_mul _).symm⟩

theorem rests_ladder_iff {id : ι} :
    Rests book.ladder id ↔ book.lookup id ≠ none := by
  constructor
  · intro rests absent
    exact (standsFor_self book).not_rests absent rests
  · intro present
    rcases Option.ne_none_iff_exists'.mp present with ⟨entry, found⟩
    have ⟨member, named⟩ := Book.lookup_eq_some_iff.mp
      (show book.lookup id = some (entry.1, entry.2) from found)
    exact ⟨entry.1, entry.2, member, named⟩

/-- Submitting to a book, seen as ladders. -/
theorem ladder_submit
    {side : Side} {order : Resting ι π} {rests : Bool}
    (fresh : book.lookup order.id = none) :
    (book.submit side order rests fresh).book.ladder =
      submitted book.ladder side order rests := by
  have stands := @StandsFor.submitted _ _ _ _ _ _ _ _ _ _ _ _
    (standsFor_self book) orderCompatible_eq Nat.one_pos side order rests fresh
    order ⟨rfl, rfl, (Nat.one_mul _).symm⟩
  exact stands.eq_ladder.symm

end Own

end MatchingBench.Lib.Ladders
