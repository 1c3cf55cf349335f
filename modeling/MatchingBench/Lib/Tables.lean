import Mathlib.Data.List.Basic

/-!
# Flat tables

Vectors that adapters index by an order identifier: a lookup checks the bound,
a store past the end is undefined and yields `none`, and a table grows by
default slots.
-/

set_option autoImplicit false

namespace MatchingBench.Lib.Tables

variable {α : Type}

/-- `resize`: cut off or append copies of a value. -/
def resize (table : List α) (size : Nat) (value : α) : List α :=
  table.take size ++ List.replicate (size - table.length) value

/-- A store at an index, undefined past the end. -/
def store (table : List α) (index : Nat) (value : α) : Option (List α) :=
  if index < table.length then some (table.set index value) else none

/-- Update the slot at an index, if there is one. -/
def update (table : List α) (index : Nat) (change : α → α) : List α :=
  match table[index]? with
  | some value => table.set index (change value)
  | none => table

/-- The access of a load behind a bound check, told its index and the bound. -/
def checkedLoad
    {ε : Type} (access : Nat → Nat → ε) (table : List α) (index : Nat) :
    List ε :=
  if index < table.length then [access index table.length] else []

theorem mem_checkedLoad
    {ε : Type} {access : Nat → Nat → ε} {table : List α} {index : Nat}
    {event : ε} :
    event ∈ checkedLoad access table index ↔
      index < table.length ∧ event = access index table.length := by
  unfold checkedLoad
  by_cases inside : index < table.length
  · rw [if_pos inside, List.mem_singleton, and_iff_right inside]
  · rw [if_neg inside]
    exact iff_of_false List.not_mem_nil fun both => inside both.1

@[simp]
theorem length_resize (table : List α) (size : Nat) (value : α) :
    (resize table size value).length = size := by
  simp only [resize, List.length_append, List.length_take,
    List.length_replicate]
  omega

/-- A table that is doubled, or more, when an index lies past its end. -/
theorem length_doubled (table : List α) (index wanted : Nat) (value : α) :
    let doubled :=
      if index ≥ table.length then
        resize table (max (table.length * 2) wanted) value
      else table
    index < table.length ∧ doubled.length = table.length ∨
      table.length ≤ index ∧
        doubled.length = max (table.length * 2) wanted := by
  dsimp only
  split
  · rename_i beyond
    exact Or.inr ⟨beyond, length_resize _ _ _⟩
  · rename_i inside
    exact Or.inl ⟨Nat.lt_of_not_le inside, rfl⟩

/-- A table that grows keeps its slots. -/
theorem getElem?_resize
    {table : List α} {size : Nat} (grows : table.length ≤ size) (value : α)
    (index : Nat) :
    (resize table size value)[index]? =
      if index < table.length then table[index]?
      else if index < size then some value else none := by
  rw [resize, List.take_of_length_le grows, List.getElem?_append]
  split
  · rfl
  · rename_i beyond
    rw [List.getElem?_replicate]
    by_cases inside : index < size
    · rw [if_pos inside, if_pos (by omega)]
    · rw [if_neg inside, if_neg (by omega)]

theorem store_of_lt
    {table : List α} {index : Nat} (inside : index < table.length)
    (value : α) :
    store table index value = some (table.set index value) :=
  if_pos inside

/-- A store within the table is an update that forgets the old value. -/
theorem store_eq_update
    {table : List α} {index : Nat} (inside : index < table.length)
    (value : α) :
    store table index value = some (update table index fun _ => value) := by
  rw [store_of_lt inside, update, List.getElem?_eq_getElem inside]

@[simp]
theorem length_update
    (table : List α) (index : Nat) (change : α → α) :
    (update table index change).length = table.length := by
  unfold update
  split
  · exact List.length_set
  · rfl

theorem getElem?_set
    {table : List α} {index : Nat} (inside : index < table.length)
    (value : α) (other : Nat) :
    (table.set index value)[other]? =
      if other = index then some value else table[other]? := by
  rw [List.getElem?_set]
  by_cases same : other = index
  · subst same
    rw [if_pos rfl, if_pos rfl, if_pos inside]
  · rw [if_neg (Ne.symm same), if_neg same]

theorem getElem?_update
    (table : List α) (index : Nat) (change : α → α) (other : Nat) :
    (update table index change)[other]? =
      if other = index then table[other]?.map change else table[other]? := by
  unfold update
  split
  · rename_i value found
    rw [getElem?_set (List.getElem?_eq_some_iff.mp found).1]
    by_cases same : other = index
    · subst same
      rw [if_pos rfl, if_pos rfl, found]
      rfl
    · rw [if_neg same, if_neg same]
  · rename_i absent
    by_cases same : other = index
    · subst same
      rw [if_pos rfl, absent]
      rfl
    · rw [if_neg same]

end MatchingBench.Lib.Tables
