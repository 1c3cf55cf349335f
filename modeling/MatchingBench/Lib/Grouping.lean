import MatchingBench.Lib.KeyedSort
import Mathlib.Data.Finset.Card

/-!
# Groups of a sorted list

A list sorted by a key falls into blocks of equal key.  Two such lists are
compared block by block, in order; where the comparison stops, the smaller key
of the two blocks is the least key on which the lists differ.
-/

set_option autoImplicit false

namespace MatchingBench.Lib.Grouping

open MatchingBench.Lib.KeyedSort

variable {α κ : Type*}

/-- A block of neighbours of one key, and the position of its first. -/
structure Group (κ α : Type*) where
  key : κ
  start : Nat
  members : List α
deriving DecidableEq

/-! ## First difference -/

section FirstDifference

variable {γ δ : Type*}

/--
Two lists read in lockstep: how many heads agree, and the first two that do
not, either of which may be missing.
-/
def firstDifference [DecidableEq γ] :
    List γ → List γ → Nat × Option γ × Option γ
  | [], [] => (0, none, none)
  | [], b :: _ => (0, none, some b)
  | a :: _, [] => (0, some a, none)
  | a :: left, b :: right =>
      if a = b then
        ((firstDifference left right).1 + 1, (firstDifference left right).2)
      else
        (0, some a, some b)

/-- Reading in lockstep commutes with an injective translation. -/
theorem firstDifference_map
    [DecidableEq γ] [DecidableEq δ] {f : γ → δ} (injective : f.Injective)
    (left right : List γ) :
    firstDifference (left.map f) (right.map f) =
      ((firstDifference left right).1,
        (firstDifference left right).2.1.map f,
        (firstDifference left right).2.2.map f) := by
  induction left generalizing right with
  | nil => cases right <;> rfl
  | cons a left induction =>
      cases right with
      | nil => rfl
      | cons b right =>
          by_cases same : a = b
          · subst same
            simp only [List.map_cons, firstDifference, if_true, induction]
          · have other : f a ≠ f b := fun equal => same (injective equal)
            simp only [List.map_cons, firstDifference, same, other, if_false,
              Option.map_some]

end FirstDifference

/-! ## Grouped lists -/

section Grouped

variable [LinearOrder κ]

/--
The groups of a list, from a position: blocks of one key, each block's key
below all keys behind it.
-/
inductive Grouped (key : α → κ) :
    Nat → List (Group κ α) → List α → Prop
  | nil (position : Nat) : Grouped key position [] []
  | cons
      {position : Nat} {wanted : κ} {block later : List α}
      {groups : List (Group κ α)}
      (nonempty : block ≠ [])
      (same : ∀ item ∈ block, key item = wanted)
      (above : ∀ item ∈ later, wanted < key item)
      (rest : Grouped key (position + block.length) groups later) :
      Grouped key position (⟨wanted, position, block⟩ :: groups)
        (block ++ later)

/-- The group of a key, when the list has elements of that key. -/
def groupAt
    (key : α → κ) (position : Nat) (items : List α) (wanted : κ) :
    Option (Group κ α) :=
  if fiber key wanted items = [] then none
  else
    some
      { key := wanted
        start := position + items.countP fun item => key item < wanted
        members := fiber key wanted items }

/-- The number of distinct keys below a key. -/
def keysBelow (key : α → κ) (items : List α) (wanted : κ) : Nat :=
  ((items.map key).toFinset.filter (· < wanted)).card

variable {key : α → κ}

/-- In a sorted list, the group of a key starts at its first element. -/
theorem findIdx?_key
    {items : List α} (sorted : items.Pairwise fun a b => key a ≤ key b)
    (wanted : κ) :
    items.findIdx? (fun item => key item = wanted) =
      if fiber key wanted items = [] then none
      else some (items.countP fun item => key item < wanted) := by
  induction items with
  | nil => rfl
  | cons item items induction =>
      rw [List.pairwise_cons] at sorted
      rw [List.findIdx?_cons, induction sorted.2]
      rcases lt_trichotomy (key item) wanted with below | same | above
      · rw [fiber_cons_of_ne below.ne, List.countP_cons]
        simp only [below.ne, below, decide_false, decide_true, if_true]
        by_cases empty : fiber key wanted items = [] <;> simp [empty]
      · have none : (item :: items).countP (key · < wanted) = 0 := by
          apply List.countP_eq_zero.mpr
          intro other member
          rcases List.mem_cons.mp member with rfl | behind
          · simp [same]
          · simpa [← same] using sorted.1 other behind
        rw [fiber_cons_of_eq same, none]
        simp [same]
      · have none : fiber key wanted items = [] := by
          apply fiber_eq_nil_iff.mpr
          intro other member
          exact (above.trans_le (sorted.1 other member)).ne'
        rw [fiber_cons_of_ne above.ne', none]
        simp [above.ne']

section Block

variable
  {block later : List α} {first : κ}
  (same : ∀ item ∈ block, key item = first)
  (above : ∀ item ∈ later, first < key item)
include same above

theorem fiber_block : fiber key first (block ++ later) = block := by
  have none : fiber key first later = [] := by
    apply fiber_eq_nil_iff.mpr
    intro item member
    exact (above item member).ne'
  rw [fiber_append, fiber_eq_self same, none, List.append_nil]

omit above in
theorem fiber_later {wanted : κ} (other : first ≠ wanted) :
    fiber key wanted (block ++ later) = fiber key wanted later := by
  have none : fiber key wanted block = [] := by
    apply fiber_eq_nil_iff.mpr
    intro item member
    rw [same item member]
    exact other
  rw [fiber_append, none, List.nil_append]

theorem fiber_below {wanted : κ} (below : wanted < first) :
    fiber key wanted (block ++ later) = [] := by
  apply fiber_eq_nil_iff.mpr
  intro item member
  rcases List.mem_append.mp member with inBlock | inLater
  · rw [same item inBlock]
    exact below.ne'
  · exact (below.trans (above item inLater)).ne'

theorem keysBelow_first : keysBelow key (block ++ later) first = 0 := by
  apply Finset.card_eq_zero.mpr
  apply Finset.filter_eq_empty_iff.mpr
  intro other member below
  rcases List.mem_map.mp (List.mem_toFinset.mp member) with
    ⟨item, inItems, rfl⟩
  rcases List.mem_append.mp inItems with inBlock | inLater
  · exact absurd (same item inBlock) below.ne
  · exact absurd (above item inLater) below.asymm

theorem groupAt_first (nonempty : block ≠ []) (position : Nat) :
    groupAt key position (block ++ later) first =
      some ⟨first, position, block⟩ := by
  have none :
      (block ++ later).countP (fun item => key item < first) = 0 := by
    apply List.countP_eq_zero.mpr
    intro item member
    rcases List.mem_append.mp member with inBlock | inLater
    · simp [same item inBlock]
    · simpa using (above item inLater).le
  rw [groupAt, fiber_block same above, if_neg nonempty, none, Nat.add_zero]

variable {wanted : κ} (below : first < wanted)
include below

omit above in
/-- Behind the first block, a group starts after that block. -/
theorem groupAt_later (position : Nat) :
    groupAt key position (block ++ later) wanted =
      groupAt key (position + block.length) later wanted := by
  have all :
      block.countP (fun item => key item < wanted) = block.length := by
    apply List.countP_eq_length.mpr
    intro item member
    rw [same item member]
    exact decide_eq_true below
  rw [groupAt, groupAt, fiber_later same below.ne, List.countP_append, all,
    Nat.add_assoc]

theorem keysBelow_later (nonempty : block ≠ []) :
    keysBelow key (block ++ later) wanted =
      keysBelow key later wanted + 1 := by
  have fresh : first ∉ (later.map key).toFinset.filter (· < wanted) := by
    intro member
    have inLater := (Finset.mem_filter.mp member).1
    rcases List.mem_map.mp (List.mem_toFinset.mp inLater) with
      ⟨item, inItems, equal⟩
    exact absurd equal (above item inItems).ne'
  have keys :
      ((block ++ later).map key).toFinset =
        insert first (later.map key).toFinset := by
    ext other
    rw [List.map_append, List.toFinset_append, Finset.mem_union,
      Finset.mem_insert]
    apply or_congr_left
    rw [List.mem_toFinset, List.mem_map]
    constructor
    · rintro ⟨item, member, rfl⟩
      exact same item member
    · rintro rfl
      rcases List.exists_mem_of_ne_nil block nonempty with ⟨item, member⟩
      exact ⟨item, member, same item member⟩
  rw [keysBelow, keys, Finset.filter_insert, if_pos below,
    Finset.card_insert_of_notMem fresh, keysBelow]

end Block

/-! ## The least key of difference -/

/--
What a comparison in lockstep found: `wanted` is the least key whose elements
differ, `matching` keys lie below it, and each side shows its group of that
key or a later one.
-/
structure DivergesAt
    (key : α → κ) (position : Nat) (left right : List α)
    (found : Nat × Option (Group κ α) × Option (Group κ α))
    (wanted : κ) : Prop where
  differs : fiber key wanted left ≠ fiber key wanted right
  agrees : ∀ other < wanted, fiber key other left = fiber key other right
  leftMatching : found.1 = keysBelow key left wanted
  rightMatching : found.1 = keysBelow key right wanted
  leftLeast : ∀ group ∈ found.2.1, wanted ≤ group.key
  rightLeast : ∀ group ∈ found.2.2, wanted ≤ group.key
  leftGroup :
    found.2.1.filter (fun group => group.key = wanted) =
      groupAt key position left wanted
  rightGroup :
    found.2.2.filter (fun group => group.key = wanted) =
      groupAt key position right wanted

theorem groupAt_of_above
    {items : List α} {wanted : κ} (above : ∀ item ∈ items, wanted < key item)
    (position : Nat) : groupAt key position items wanted = none := by
  have none : fiber key wanted items = [] := by
    apply fiber_eq_nil_iff.mpr
    intro item member
    exact (above item member).ne'
  rw [groupAt, if_pos none]

theorem keysBelow_of_above
    {items : List α} {wanted : κ}
    (above : ∀ item ∈ items, wanted < key item) :
    keysBelow key items wanted = 0 := by
  apply Finset.card_eq_zero.mpr
  apply Finset.filter_eq_empty_iff.mpr
  intro other member below
  rcases List.mem_map.mp (List.mem_toFinset.mp member) with
    ⟨item, inItems, rfl⟩
  exact absurd (above item inItems) below.asymm

namespace DivergesAt

variable
  {position : Nat} {left right : List α}
  {found : Nat × Option (Group κ α) × Option (Group κ α)} {wanted : κ}

theorem symm
    (diverges : DivergesAt key position left right found wanted) :
    DivergesAt key position right left
      (found.1, found.2.2, found.2.1) wanted where
  differs := diverges.differs.symm
  agrees := fun other below => (diverges.agrees other below).symm
  leftMatching := diverges.rightMatching
  rightMatching := diverges.leftMatching
  leftLeast := diverges.rightLeast
  rightLeast := diverges.leftLeast
  leftGroup := diverges.rightGroup
  rightGroup := diverges.leftGroup

/-- The left list has a first block and the right list starts above it. -/
theorem of_head_below
    {block later : List α}
    (nonempty : block ≠ []) (same : ∀ item ∈ block, key item = wanted)
    (above : ∀ item ∈ later, wanted < key item)
    (rightAbove : ∀ item ∈ right, wanted < key item)
    {group : Option (Group κ α)}
    (rightGroup : ∀ other ∈ group, wanted < other.key) :
    DivergesAt key position (block ++ later) right
      (0, some ⟨wanted, position, block⟩, group) wanted where
  differs := by
    have none : fiber key wanted right = [] := by
      apply fiber_eq_nil_iff.mpr
      intro item member
      exact (rightAbove item member).ne'
    rw [fiber_block same above, none]
    exact nonempty
  agrees := by
    intro other below
    have none : fiber key other right = [] := by
      apply fiber_eq_nil_iff.mpr
      intro item member
      exact (below.trans (rightAbove item member)).ne'
    rw [fiber_below same above below, none]
  leftMatching := (keysBelow_first same above).symm
  rightMatching := (keysBelow_of_above rightAbove).symm
  leftLeast := by
    rintro group ⟨⟩
    exact le_rfl
  rightLeast := fun other member => (rightGroup other member).le
  leftGroup := by
    rw [groupAt_first same above nonempty, Option.filter_some,
      if_pos (decide_eq_true rfl)]
  rightGroup := by
    rw [groupAt_of_above rightAbove]
    apply Option.filter_eq_none_iff.mpr
    intro other member equal
    exact (rightGroup other member).ne' (of_decide_eq_true equal)

/-- One more block in common. -/
theorem cons_block
    {block : List α} {first : κ}
    (nonempty : block ≠ []) (same : ∀ item ∈ block, key item = first)
    (leftAbove : ∀ item ∈ left, first < key item)
    (rightAbove : ∀ item ∈ right, first < key item)
    (diverges :
      DivergesAt key (position + block.length) left right found wanted) :
    DivergesAt key position (block ++ left) (block ++ right)
      (found.1 + 1, found.2) wanted := by
  have below : first < wanted := by
    by_contra notBelow
    have none {items : List α} (above : ∀ item ∈ items, first < key item) :
        fiber key wanted items = [] := by
      apply fiber_eq_nil_iff.mpr
      intro item member equal
      exact notBelow (equal ▸ above item member)
    apply diverges.differs
    rw [none leftAbove, none rightAbove]
  constructor
  · rw [fiber_later same below.ne, fiber_later same below.ne]
    exact diverges.differs
  · intro other before
    by_cases equal : first = other
    · rw [← equal, fiber_block same leftAbove, fiber_block same rightAbove]
    · rw [fiber_later same equal, fiber_later same equal]
      exact diverges.agrees other before
  · rw [keysBelow_later same leftAbove below nonempty,
      diverges.leftMatching]
  · rw [keysBelow_later same rightAbove below nonempty,
      diverges.rightMatching]
  · exact diverges.leftLeast
  · exact diverges.rightLeast
  · rw [groupAt_later same below]
    exact diverges.leftGroup
  · rw [groupAt_later same below]
    exact diverges.rightGroup

/-- Both lists have a first block of the same key, and the blocks differ. -/
theorem of_heads_differ
    {block later block' later' : List α}
    (nonempty : block ≠ []) (nonempty' : block' ≠ [])
    (same : ∀ item ∈ block, key item = wanted)
    (same' : ∀ item ∈ block', key item = wanted)
    (above : ∀ item ∈ later, wanted < key item)
    (above' : ∀ item ∈ later', wanted < key item)
    (other : block ≠ block') :
    DivergesAt key position (block ++ later) (block' ++ later')
      (0, some ⟨wanted, position, block⟩, some ⟨wanted, position, block'⟩)
      wanted where
  differs := by
    rw [fiber_block same above, fiber_block same' above']
    exact other
  agrees := by
    intro key below
    rw [fiber_below same above below, fiber_below same' above' below]
  leftMatching := (keysBelow_first same above).symm
  rightMatching := (keysBelow_first same' above').symm
  leftLeast := by
    rintro group ⟨⟩
    exact le_rfl
  rightLeast := by
    rintro group ⟨⟩
    exact le_rfl
  leftGroup := by
    rw [groupAt_first same above nonempty, Option.filter_some,
      if_pos (decide_eq_true rfl)]
  rightGroup := by
    rw [groupAt_first same' above' nonempty', Option.filter_some,
      if_pos (decide_eq_true rfl)]

end DivergesAt

/-- Elements of a block and behind it lie above what lies below its key. -/
theorem above_append
    {block later : List α} {first bound : κ}
    (same : ∀ item ∈ block, key item = first)
    (above : ∀ item ∈ later, first < key item) (below : bound < first) :
    ∀ item ∈ block ++ later, bound < key item := by
  intro item member
  rcases List.mem_append.mp member with inBlock | inLater
  · rw [same item inBlock]
    exact below
  · exact below.trans (above item inLater)

/--
Two grouped lists are equal, or the comparison of their groups in lockstep
finds the least key of difference.
-/
theorem firstDifference_grouped
    [DecidableEq α] {position : Nat}
    {leftGroups rightGroups : List (Group κ α)} {left right : List α}
    (leftGrouped : Grouped key position leftGroups left)
    (rightGrouped : Grouped key position rightGroups right) :
    (firstDifference leftGroups rightGroups).2 = (none, none) ∧
        left = right ∨
      ∃ wanted,
        DivergesAt key position left right
          (firstDifference leftGroups rightGroups) wanted := by
  induction leftGrouped generalizing rightGroups right with
  | nil position =>
      cases rightGrouped with
      | nil => exact Or.inl ⟨rfl, rfl⟩
      | cons nonempty same above rest =>
          right
          refine ⟨_, (DivergesAt.of_head_below nonempty same above ?_ ?_).symm⟩
          · exact fun item member => absurd member List.not_mem_nil
          · rintro group ⟨⟩
  | @cons position first block later groups nonempty same above rest
      induction =>
      cases rightGrouped with
      | nil =>
          right
          refine ⟨_, DivergesAt.of_head_below nonempty same above ?_ ?_⟩
          · exact fun item member => absurd member List.not_mem_nil
          · rintro group ⟨⟩
      | @cons _ first' block' later' groups' nonempty' same' above' rest' =>
          by_cases equal :
              (⟨first, position, block⟩ : Group κ α) =
                ⟨first', position, block'⟩
          · obtain ⟨rfl, -, rfl⟩ := Group.mk.inj equal
            simp only [firstDifference, if_true]
            rcases induction rest' with ⟨none, lists⟩ | ⟨wanted, diverges⟩
            · exact Or.inl ⟨none, by rw [lists]⟩
            · exact Or.inr
                ⟨wanted, diverges.cons_block nonempty same above above'⟩
          · right
            simp only [firstDifference, equal, if_false]
            rcases lt_trichotomy first first' with before | together | behind
            · refine ⟨_, DivergesAt.of_head_below nonempty same above
                (above_append same' above' before) ?_⟩
              rintro group ⟨⟩
              exact before
            · subst together
              refine ⟨_, DivergesAt.of_heads_differ nonempty nonempty' same
                same' above above' ?_⟩
              rintro rfl
              exact equal rfl
            · refine ⟨_, (DivergesAt.of_head_below nonempty' same' above'
                (above_append same above behind) ?_).symm⟩
              rintro group ⟨⟩
              exact behind

end Grouped

end MatchingBench.Lib.Grouping
