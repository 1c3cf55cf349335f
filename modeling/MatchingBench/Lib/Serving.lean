import Mathlib.Algebra.BigOperators.Group.List.Basic
import Mathlib.Algebra.GroupWithZero.Nat

/-!
# Queues served from the front

Amounts are taken from the item at the front of a queue.  An item leaves when
all of it is taken, and otherwise stays in front with the rest; so whatever is
left stands as it stood before.
-/

set_option autoImplicit false

namespace MatchingBench.Lib.Serving

variable {α β κ : Type} {size : α → Nat} {reduce : α → Nat → α}

/--
The items taken from a queue, each as it stood and with the amount, and the
queue that is left.
-/
inductive Served (size : α → Nat) (reduce : α → Nat → α) :
    List α → List (α × Nat) → List α → Prop where
  | idle (queue : List α) : Served size reduce queue [] queue
  | whole {item : α} {queue left : List α} {taken : List (α × Nat)}
      (later : Served size reduce queue taken left) :
      Served size reduce (item :: queue) ((item, size item) :: taken) left
  | part {item : α} {amount : Nat} {queue left : List α}
      {taken : List (α × Nat)} (less : amount < size item)
      (later : Served size reduce (reduce item amount :: queue) taken left) :
      Served size reduce (item :: queue) ((item, amount) :: taken) left

section Served

variable {queue left : List α} {taken : List (α × Nat)}

/-- What a queue holds is what is left of it and what was taken. -/
theorem Served.conserved
    (served : Served size reduce queue taken left)
    (reduces : ∀ item amount, amount < size item →
      size (reduce item amount) + amount = size item) :
    (queue.map size).sum =
      (left.map size).sum + (taken.map Prod.snd).sum := by
  induction served with
  | idle queue => rfl
  | whole _ induction =>
      rw [List.map_cons, List.sum_cons, List.map_cons, List.sum_cons,
        induction]
      omega
  | @part item amount _ _ _ less _ induction =>
      have rest := reduces item amount less
      rw [List.map_cons, List.sum_cons] at induction
      rw [List.map_cons, List.sum_cons, List.map_cons, List.sum_cons]
      omega

/-- Among items of a kind, the ones left are the last ones of the queue. -/
theorem Served.suffix
    (served : Served size reduce queue taken left) {key : α → κ}
    (keeps : ∀ item amount, key (reduce item amount) = key item)
    {kind : α → Bool}
    (stays : ∀ item amount, kind (reduce item amount) = kind item) :
    (left.filter kind).map key <:+ (queue.filter kind).map key := by
  induction served with
  | idle queue => exact List.suffix_rfl
  | @whole item queue _ _ _ induction =>
      refine induction.trans ?_
      exact ((List.suffix_cons item queue).filter kind).map key
  | @part item amount queue _ _ _ _ induction =>
      have same : ((reduce item amount :: queue).filter kind).map key =
          ((item :: queue).filter kind).map key := by
        rw [List.filter_cons, List.filter_cons, stays]
        split
        · rw [List.map_cons, List.map_cons, keeps]
        · rfl
      rw [← same]
      exact induction

/-- What is taken had its place in the queue. -/
theorem Served.key_mem
    (served : Served size reduce queue taken left) {key : α → κ}
    (keeps : ∀ item amount, key (reduce item amount) = key item)
    {take : α × Nat} (member : take ∈ taken) :
    key take.1 ∈ queue.map key := by
  induction served with
  | idle queue => cases member
  | whole _ induction =>
      rcases List.mem_cons.mp member with rfl | later
      · exact List.mem_cons_self
      · exact List.mem_cons_of_mem _ (induction later)
  | part _ _ induction =>
      rcases List.mem_cons.mp member with rfl | later
      · exact List.mem_cons_self
      · have own := induction later
        rwa [List.map_cons, keeps] at own

/-- The same amounts, taken from a queue of images. -/
theorem Served.map
    {size' : β → Nat} {reduce' : β → Nat → β}
    (served : Served size reduce queue taken left) {image : α → β}
    (sizes : ∀ item, size' (image item) = size item)
    (reduces : ∀ item amount,
      image (reduce item amount) = reduce' (image item) amount) :
    Served size' reduce' (queue.map image)
      (taken.map fun take => (image take.1, take.2)) (left.map image) := by
  induction served with
  | idle queue => exact Served.idle _
  | @whole item _ _ _ _ induction =>
      rw [List.map_cons, List.map_cons]
      dsimp only
      rw [← sizes item]
      exact Served.whole induction
  | @part item amount _ _ _ less _ induction =>
      rw [List.map_cons, reduces] at induction
      exact Served.part (by rwa [sizes]) induction

end Served

/-! ## Accounts of the items -/

section Accounts

variable [DecidableEq κ] {key : α → κ}

/-- The amounts taken of the item with a key. -/
def amountsOf (key : α → κ) (name : κ) (taken : List (α × Nat)) : List Nat :=
  (taken.filter fun take => key take.1 = name).map Prod.snd

/-- What is left of an item when amounts of it have been taken. -/
def remainder (size : α → Nat) (reduce : α → Nat → α) (amounts : List Nat)
    (item : α) : Option α :=
  if amounts ≠ [] ∧ amounts.sum = size item then none
  else some (reduce item amounts.sum)

/-- How a part that is taken adds to what is taken later. -/
structure Additive (size : α → Nat) (reduce : α → Nat → α) : Prop where
  zero : ∀ item, reduce item 0 = item
  add : ∀ item a b, reduce (reduce item a) b = reduce item (a + b)
  size_reduce : ∀ item a, size (reduce item a) = size item - a

theorem amountsOf_cons (name : κ) (take : α × Nat) (taken : List (α × Nat)) :
    amountsOf key name (take :: taken) =
      if key take.1 = name then take.2 :: amountsOf key name taken
      else amountsOf key name taken := by
  rw [amountsOf, List.filter_cons]
  by_cases same : key take.1 = name
  · rw [if_pos (decide_eq_true same), if_pos same]
    rfl
  · rw [if_neg (by simpa using same), if_neg same]
    rfl

theorem remainder_nil (additive : Additive size reduce) (item : α) :
    remainder size reduce [] item = some item := by
  rw [remainder, if_neg fun taken => taken.1 rfl, List.sum_nil, additive.zero]

/-- A part taken first leaves the item to what is taken later. -/
theorem remainder_cons
    (additive : Additive size reduce) {item : α} {amount : Nat}
    (less : amount < size item) (amounts : List Nat) :
    remainder size reduce (amount :: amounts) item =
      remainder size reduce amounts (reduce item amount) := by
  rw [remainder, remainder, List.sum_cons, additive.add, additive.size_reduce]
  congr 1
  rw [eq_iff_iff]
  constructor
  · rintro ⟨-, all⟩
    refine ⟨fun none_ => ?_, by omega⟩
    rw [none_, List.sum_nil] at all
    omega
  · rintro ⟨-, all⟩
    exact ⟨List.cons_ne_nil _ _, by omega⟩

/-- Every item of a queue is left with what was not taken of it. -/
theorem Served.left_eq
    {queue left : List α} {taken : List (α × Nat)}
    (served : Served size reduce queue taken left)
    (additive : Additive size reduce)
    (keeps : ∀ item amount, key (reduce item amount) = key item)
    (distinct : (queue.map key).Nodup) :
    left = queue.filterMap fun item =>
      remainder size reduce (amountsOf key (key item) taken) item := by
  induction served with
  | idle queue =>
      have all : (fun item => remainder size reduce
          (amountsOf key (key item) []) item) = some := by
        funext item
        exact remainder_nil additive item
      rw [all, List.filterMap_some]
  | @whole item queue left taken later induction =>
      rw [List.map_cons, List.nodup_cons] at distinct
      have never : amountsOf key (key item) taken = [] := by
        rw [amountsOf, List.map_eq_nil_iff, List.filter_eq_nil_iff]
        intro take member same
        have own := later.key_mem keeps member
        rw [of_decide_eq_true same] at own
        exact distinct.1 own
      have gone : remainder size reduce
          (amountsOf key (key item) ((item, size item) :: taken)) item =
            none := by
        rw [amountsOf_cons, if_pos rfl, never, remainder, if_pos]
        exact ⟨List.cons_ne_nil _ _, List.sum_singleton⟩
      rw [List.filterMap_cons, gone, induction distinct.2]
      refine List.filterMap_congr fun other member => ?_
      rw [amountsOf_cons, if_neg]
      intro same
      exact distinct.1 (same ▸ List.mem_map_of_mem member)
  | @part item amount queue left taken less later induction =>
      have same : ((reduce item amount :: queue).map key) =
          (item :: queue).map key := by
        rw [List.map_cons, List.map_cons, keeps]
      have rest := induction (same ▸ distinct)
      rw [List.map_cons, List.nodup_cons] at distinct
      have first : remainder size reduce
          (amountsOf key (key item) ((item, amount) :: taken)) item =
            remainder size reduce
              (amountsOf key (key (reduce item amount)) taken)
              (reduce item amount) := by
        rw [amountsOf_cons, if_pos rfl, keeps, remainder_cons additive less]
      rw [rest, List.filterMap_cons, List.filterMap_cons, first]
      have others : queue.filterMap (fun other => remainder size reduce
          (amountsOf key (key other) taken) other) =
            queue.filterMap fun other => remainder size reduce
              (amountsOf key (key other) ((item, amount) :: taken)) other := by
        refine List.filterMap_congr fun other member => ?_
        rw [amountsOf_cons, if_neg]
        intro equal
        exact distinct.1 (equal ▸ List.mem_map_of_mem member)
      rw [others]

end Accounts

end MatchingBench.Lib.Serving
