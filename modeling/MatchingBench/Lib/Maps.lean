import Mathlib.Data.List.AList
import Mathlib.Logic.Function.Basic

/-!
# Hash maps

Association lists without duplicate keys stand for hash maps: the order of the
entries is never observed.  Lookups are described as functions of the key, so
that an update of the map is an update of that function.
-/

set_option autoImplicit false

namespace MatchingBench.Lib.Maps

/-- A map from keys to values. -/
abbrev HashMap (κ α : Type) : Type :=
  AList fun _ : κ => α

variable {κ α : Type} [DecidableEq κ]

/-- `get`. -/
def HashMap.get (map : HashMap κ α) (key : κ) : Option α :=
  map.lookup key

/-- `insert`: add an entry or overwrite it. -/
def HashMap.set (map : HashMap κ α) (key : κ) (value : α) : HashMap κ α :=
  AList.insert key value map

/-- `remove`. -/
def HashMap.remove (map : HashMap κ α) (key : κ) : HashMap κ α :=
  AList.erase key map

/-- `get_mut` followed by an update of the value in place. -/
def HashMap.modify
    (map : HashMap κ α) (key : κ) (change : α → α) : HashMap κ α :=
  match map.get key with
  | some value => map.set key (change value)
  | none => map

@[simp]
theorem HashMap.get_empty : HashMap.get (∅ : HashMap κ α) = fun _ => none :=
  funext fun key => AList.lookup_empty key

@[simp]
theorem HashMap.get_set (map : HashMap κ α) (key : κ) (value : α) :
    (map.set key value).get = Function.update map.get key (some value) := by
  funext other
  by_cases same : other = key
  · subst same
    rw [Function.update_self]
    exact AList.lookup_insert map
  · rw [Function.update_of_ne same]
    exact AList.lookup_insert_ne same

@[simp]
theorem HashMap.get_remove (map : HashMap κ α) (key : κ) :
    (map.remove key).get = Function.update map.get key none := by
  funext other
  by_cases same : other = key
  · subst same
    rw [Function.update_self]
    exact AList.lookup_erase other map
  · rw [Function.update_of_ne same]
    exact AList.lookup_erase_ne same

theorem HashMap.get_modify
    (map : HashMap κ α) (key : κ) (change : α → α) :
    (map.modify key change).get =
      Function.update map.get key ((map.get key).map change) := by
  rw [HashMap.modify]
  split
  · rename_i value found
    rw [HashMap.get_set, found, Option.map_some]
  · rename_i found
    rw [found, Option.map_none, ← found, Function.update_eq_self]

/-- The entries are the pairs that `get` finds. -/
theorem HashMap.mem_entries
    (map : HashMap κ α) (key : κ) (value : α) :
    (⟨key, value⟩ : Sigma fun _ : κ => α) ∈ map.entries ↔
      map.get key = some value :=
  AList.mem_lookup_iff.symm

end MatchingBench.Lib.Maps
