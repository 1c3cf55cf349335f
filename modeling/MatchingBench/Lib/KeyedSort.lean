import Mathlib.Data.List.Sort

/-!
# Stable sorting by a key

A stable sort orders a list by a key and keeps elements of equal key in list
order.  The elements of one key, read in list order, form a *fiber* of the
list.  A stable sort changes no fiber, and a list sorted by its key is
determined by its fibers.  Together the two facts say which inputs a stable
sort identifies.
-/

set_option autoImplicit false

namespace MatchingBench.Lib.KeyedSort

variable {α β κ : Type*}

/-! ## Fibers -/

section Fibers

variable [DecidableEq κ]

/-- The elements of `items` carrying the key `wanted`, in list order. -/
def fiber (key : α → κ) (wanted : κ) (items : List α) : List α :=
  items.filter fun item => key item = wanted

@[simp]
theorem fiber_nil (key : α → κ) (wanted : κ) :
    fiber key wanted [] = [] := rfl

@[simp]
theorem fiber_append
    (key : α → κ) (wanted : κ) (front back : List α) :
    fiber key wanted (front ++ back) =
      fiber key wanted front ++ fiber key wanted back := by
  simp [fiber]

theorem fiber_cons_of_eq
    {key : α → κ} {wanted : κ} {item : α}
    (same : key item = wanted) (items : List α) :
    fiber key wanted (item :: items) =
      item :: fiber key wanted items := by
  simp [fiber, same]

theorem fiber_cons_of_ne
    {key : α → κ} {wanted : κ} {item : α}
    (other : key item ≠ wanted) (items : List α) :
    fiber key wanted (item :: items) = fiber key wanted items := by
  simp [fiber, other]

theorem mem_fiber
    {key : α → κ} {wanted : κ} {items : List α} {item : α} :
    item ∈ fiber key wanted items ↔
      item ∈ items ∧ key item = wanted := by
  simp [fiber]

theorem fiber_eq_nil_iff
    {key : α → κ} {wanted : κ} {items : List α} :
    fiber key wanted items = [] ↔ ∀ item ∈ items, key item ≠ wanted := by
  simp [fiber]

/-- A list all of whose elements carry one key is its own fiber. -/
theorem fiber_eq_self
    {key : α → κ} {wanted : κ} {items : List α}
    (same : ∀ item ∈ items, key item = wanted) :
    fiber key wanted items = items := by
  simpa [fiber] using same

/-- Regrouping a list by distinct keys changes no fiber of such a key. -/
theorem fiber_flatMap_fiber
    {key : α → κ} {keys : List κ} (distinct : keys.Nodup)
    {wanted : κ} (listed : wanted ∈ keys) (items : List α) :
    fiber key wanted (keys.flatMap fun group => fiber key group items) =
      fiber key wanted items := by
  have single (group : κ) :
      fiber key wanted (fiber key group items) =
        if wanted = group then fiber key wanted items else [] := by
    split
    · rename_i same
      subst same
      exact fiber_eq_self fun item member => (mem_fiber.mp member).2
    · rename_i other
      apply fiber_eq_nil_iff.mpr
      intro item member same
      exact other (same.symm.trans (mem_fiber.mp member).2)
  induction keys with
  | nil => exact absurd listed List.not_mem_nil
  | cons group keys induction =>
      rw [List.nodup_cons] at distinct
      rw [List.flatMap_cons, fiber_append, single]
      rcases List.mem_cons.mp listed with rfl | later
      · have none :
            fiber key wanted
              (keys.flatMap fun group => fiber key group items) = [] := by
          apply fiber_eq_nil_iff.mpr
          intro item member same
          rcases List.mem_flatMap.mp member with ⟨group, inKeys, inFiber⟩
          apply distinct.1
          rw [← same, (mem_fiber.mp inFiber).2]
          exact inKeys
        rw [if_pos rfl, none, List.append_nil]
      · have other : wanted ≠ group := by
          rintro rfl
          exact distinct.1 later
        rw [if_neg other, List.nil_append, induction distinct.2 later]

/-- Regrouping a list by distinct keys that cover it permutes it. -/
theorem flatMap_fiber_perm
    [DecidableEq α] {key : α → κ} {keys : List κ} (distinct : keys.Nodup)
    {items : List α} (covered : ∀ item ∈ items, key item ∈ keys) :
    (keys.flatMap fun group => fiber key group items).Perm items := by
  rw [List.perm_iff_count]
  intro item
  have inFiber (list : List α) :
      (fiber key (key item) list).count item = list.count item :=
    List.count_filter (by simp)
  by_cases listed : key item ∈ keys
  · rw [← inFiber, fiber_flatMap_fiber distinct listed, inFiber]
  · rw [List.count_eq_zero.mpr fun member => listed (covered item member),
      List.count_eq_zero]
    intro member
    obtain ⟨group, inKeys, inGroup⟩ := List.mem_flatMap.mp member
    exact listed ((mem_fiber.mp inGroup).2 ▸ inKeys)

/--
Two lists have the same fibers under a projection when every key selects the
same projected elements, in the same order, from both.
-/
def SameFibers
    (key : α → κ) (project : α → β) (left right : List α) : Prop :=
  ∀ wanted,
    (fiber key wanted left).map project =
      (fiber key wanted right).map project

namespace SameFibers

variable {key : α → κ} {project : α → β}

theorem refl (items : List α) : SameFibers key project items items :=
  fun _ => rfl

theorem symm
    {left right : List α} (same : SameFibers key project left right) :
    SameFibers key project right left :=
  fun wanted => (same wanted).symm

theorem trans
    {left middle right : List α}
    (first : SameFibers key project left middle)
    (second : SameFibers key project middle right) :
    SameFibers key project left right :=
  fun wanted => (first wanted).trans (second wanted)

/-- A key present on the left is present on the right. -/
theorem exists_key
    {left right : List α} (same : SameFibers key project left right)
    (item : α) (member : item ∈ left) :
    ∃ other ∈ right, key other = key item := by
  have inFiber : item ∈ fiber key (key item) left :=
    mem_fiber.mpr ⟨member, rfl⟩
  have projected :
      project item ∈ (fiber key (key item) right).map project := by
    rw [← same (key item)]
    exact List.mem_map_of_mem inFiber
  obtain ⟨other, found, -⟩ := List.mem_map.mp projected
  exact ⟨other, (mem_fiber.mp found).1, (mem_fiber.mp found).2⟩

/-- Dropping one element of equal key and projection from both heads. -/
theorem tail
    {first second : α} {left right : List α}
    (keys : key first = key second)
    (same : SameFibers key project (first :: left) (second :: right)) :
    project first = project second ∧
      SameFibers key project left right := by
  have atHead := same (key first)
  rw [fiber_cons_of_eq rfl, fiber_cons_of_eq keys.symm] at atHead
  simp only [List.map_cons, List.cons.injEq] at atHead
  refine ⟨atHead.1, fun wanted => ?_⟩
  by_cases hit : key first = wanted
  · subst hit
    exact atHead.2
  · have atOther := same wanted
    rw [fiber_cons_of_ne hit, fiber_cons_of_ne (keys ▸ hit)] at atOther
    exact atOther

end SameFibers

/--
A list ordered by an antisymmetric relation on keys is determined, up to the
projection, by its fibers.
-/
theorem map_eq_of_sameFibers
    {key : α → κ} {project : α → β}
    (before : κ → κ → Prop) [Std.Antisymm before]
    {left right : List α}
    (leftSorted : left.Pairwise fun a b => before (key a) (key b))
    (rightSorted : right.Pairwise fun a b => before (key a) (key b))
    (same : SameFibers key project left right) :
    left.map project = right.map project := by
  induction left generalizing right with
  | nil =>
      cases right with
      | nil => rfl
      | cons second right =>
          obtain ⟨other, member, -⟩ :=
            same.symm.exists_key second List.mem_cons_self
          exact absurd member (List.not_mem_nil)
  | cons first left induction =>
      cases right with
      | nil =>
          obtain ⟨other, member, -⟩ := same.exists_key first List.mem_cons_self
          exact absurd member (List.not_mem_nil)
      | cons second right =>
          rw [List.pairwise_cons] at leftSorted rightSorted
          have keys : key first = key second := by
            obtain ⟨inRight, rightMember, rightKey⟩ :=
              same.exists_key first List.mem_cons_self
            obtain ⟨inLeft, leftMember, leftKey⟩ :=
              same.symm.exists_key second List.mem_cons_self
            rcases List.mem_cons.mp rightMember with rfl | rightMember
            · exact rightKey.symm
            rcases List.mem_cons.mp leftMember with rfl | leftMember
            · exact leftKey
            -- each head precedes an element that carries the other head's key
            have forward := leftSorted.1 inLeft leftMember
            have backward := rightSorted.1 inRight rightMember
            rw [leftKey] at forward
            rw [rightKey] at backward
            exact Std.Antisymm.antisymm _ _ forward backward
          obtain ⟨heads, tails⟩ := same.tail keys
          simp only [List.map_cons, heads,
            induction leftSorted.2 rightSorted.2 tails]

/--
When the projection fixes the key, equal projected lists have equal fibers.
-/
theorem sameFibers_of_map_eq
    {key : α → κ} {project : α → β} {left right : List α}
    (determined :
      ∀ a ∈ left, ∀ b ∈ right, project a = project b → key a = key b)
    (equal : left.map project = right.map project) :
    SameFibers key project left right := by
  induction left generalizing right with
  | nil =>
      have empty : right = [] := by simpa using equal.symm
      rw [empty]
      exact SameFibers.refl []
  | cons first left induction =>
      cases right with
      | nil => simp at equal
      | cons second right =>
          simp only [List.map_cons, List.cons.injEq] at equal
          have keys : key first = key second :=
            determined first List.mem_cons_self second List.mem_cons_self
              equal.1
          have rest : SameFibers key project left right :=
            induction
              (fun a inLeft b inRight =>
                determined a (List.mem_cons_of_mem _ inLeft) b
                  (List.mem_cons_of_mem _ inRight))
              equal.2
          intro wanted
          by_cases hit : key first = wanted
          · rw [fiber_cons_of_eq hit, fiber_cons_of_eq (keys ▸ hit)]
            simp only [List.map_cons, equal.1, rest wanted]
          · rw [fiber_cons_of_ne hit, fiber_cons_of_ne (keys ▸ hit)]
            exact rest wanted

end Fibers

/-! ## The stable sort -/

/--
A stable sort by a strict comparator: an element moves in front of another
only when the comparator puts it strictly before.
-/
def stableSort (less : α → α → Bool) (items : List α) : List α :=
  items.insertionSort fun a b => less b a = false

section StableSort

variable [LinearOrder κ] {less : α → α → Bool} {key : α → κ}

/-- A comparator that compares a key. -/
def Compares (less : α → α → Bool) (key : α → κ) : Prop :=
  ∀ a b, less a b = decide (key a < key b)

theorem stableSort_eq
    (compares : Compares less key) (items : List α) :
    stableSort less items =
      items.insertionSort fun a b => key a ≤ key b := by
  have relation :
      (fun a b => less b a = false) = fun a b => key a ≤ key b := by
    funext a b
    rw [compares b a]
    simp
  simp only [stableSort, relation]

/-- The relation `stableSort_eq` sorts by is a total preorder. -/
instance keyTotal : Std.Total fun a b : α => key a ≤ key b :=
  ⟨fun a b => le_total (key a) (key b)⟩

instance keyTrans : IsTrans α fun a b : α => key a ≤ key b :=
  ⟨fun _ _ _ => le_trans⟩

theorem stableSort_perm
    (compares : Compares less key) (items : List α) :
    (stableSort less items).Perm items := by
  rw [stableSort_eq compares]
  exact List.perm_insertionSort _ items

theorem stableSort_sorted
    (compares : Compares less key) (items : List α) :
    (stableSort less items).Pairwise fun a b => key a ≤ key b := by
  rw [stableSort_eq compares]
  exact List.pairwise_insertionSort _ items

/-- A sorted list is left as it is. -/
theorem stableSort_of_sorted
    (compares : Compares less key) {items : List α}
    (sorted : items.Pairwise fun a b => key a ≤ key b) :
    stableSort less items = items := by
  rw [stableSort_eq compares]
  exact List.Pairwise.insertionSort_eq sorted

theorem stableSort_idempotent
    (compares : Compares less key) (items : List α) :
    stableSort less (stableSort less items) = stableSort less items :=
  stableSort_of_sorted compares (stableSort_sorted compares items)

/-- Stability: sorting keeps every fiber, order included. -/
theorem fiber_stableSort
    (compares : Compares less key) (wanted : κ) (items : List α) :
    fiber key wanted (stableSort less items) = fiber key wanted items := by
  have constant :
      (fiber key wanted items).Pairwise fun a b => key a ≤ key b := by
    refine List.pairwise_of_forall_mem_list fun a first b second => ?_
    rw [(mem_fiber.mp first).2, (mem_fiber.mp second).2]
  have kept :
      (fiber key wanted items).Sublist (stableSort less items) := by
    rw [stableSort_eq compares]
    exact List.sublist_insertionSort constant List.filter_sublist
  have inside :
      (fiber key wanted items).Sublist
        (fiber key wanted (stableSort less items)) := by
    have filtered := kept.filter fun item => key item = wanted
    rwa [show (fiber key wanted items).filter
        (fun item => key item = wanted) = fiber key wanted items by
      simp [fiber]] at filtered
  refine (inside.eq_of_length ?_).symm
  exact ((stableSort_perm compares items).filter _).length_eq.symm

end StableSort

end MatchingBench.Lib.KeyedSort
