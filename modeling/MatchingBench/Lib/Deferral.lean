import Mathlib.Logic.Basic

/-!
# Deferred work

A machine that only notes its inputs and works them off when it is looked at.
Whenever it has caught up it stands where the machine stands that works at
once.
-/

set_option autoImplicit false

namespace MatchingBench.Lib.Deferral

variable {σ α : Type}

/-- Inputs noted, those before the cursor worked off. -/
structure Deferred (σ α : Type) where
  settled : σ
  pending : List α
  cursor : Nat
  inside : cursor ≤ pending.length

/-- Nothing noted yet. -/
def Deferred.start (settled : σ) : Deferred σ α where
  settled := settled
  pending := []
  cursor := 0
  inside := Nat.le_refl 0

/-- Note an input. -/
def Deferred.note (d : Deferred σ α) (input : α) : Deferred σ α where
  settled := d.settled
  pending := d.pending ++ [input]
  cursor := d.cursor
  inside := by
    rw [List.length_append]
    exact Nat.le_trans d.inside (Nat.le_add_right _ _)

section Work

variable (work : σ → α → σ)

/-- Work off what is left, one input after the other. -/
def Deferred.catchUp (d : Deferred σ α) : Deferred σ α :=
  if left : d.cursor < d.pending.length then
    Deferred.catchUp
      { settled := work d.settled d.pending[d.cursor]
        pending := d.pending
        cursor := d.cursor + 1
        inside := left }
  else
    d
termination_by d.pending.length - d.cursor

/-- Where the machine stands that works at once. -/
def Deferred.owed (d : Deferred σ α) : σ :=
  (d.pending.drop d.cursor).foldl work d.settled

@[simp]
theorem Deferred.owed_start (settled : σ) :
    (Deferred.start settled : Deferred σ α).owed work = settled :=
  rfl

/-- Noting an input owes the work on it. -/
@[simp]
theorem Deferred.owed_note (d : Deferred σ α) (input : α) :
    (d.note input).owed work = work (d.owed work) input := by
  rw [owed, owed, note, List.drop_append_of_le_length d.inside,
    List.foldl_append]
  rfl

/-- Catching up pays what is owed. -/
theorem Deferred.catchUp_spec (d : Deferred σ α) :
    (d.catchUp work).settled = d.owed work ∧
      (d.catchUp work).pending = d.pending ∧
      (d.catchUp work).cursor = d.pending.length := by
  fun_induction Deferred.catchUp work d with
  | case1 d left induction =>
      obtain ⟨paid, kept, moved⟩ := induction
      refine ⟨?_, kept, moved⟩
      rw [paid, owed, owed, List.drop_eq_getElem_cons left,
        List.foldl_cons]
  | case2 d done =>
      have caught : d.cursor = d.pending.length :=
        Nat.le_antisymm d.inside (Nat.le_of_not_lt done)
      refine ⟨?_, rfl, caught⟩
      rw [owed, caught, List.drop_length, List.foldl_nil]

theorem Deferred.settled_catchUp (d : Deferred σ α) :
    (d.catchUp work).settled = d.owed work :=
  (d.catchUp_spec work).1

/-- Catching up owes nothing new. -/
@[simp]
theorem Deferred.owed_catchUp (d : Deferred σ α) :
    (d.catchUp work).owed work = d.owed work := by
  obtain ⟨paid, kept, moved⟩ := d.catchUp_spec work
  rw [owed, kept, moved, List.drop_length, List.foldl_nil, paid]

/-- What is settled is the work on the inputs before the cursor. -/
def Deferred.Paid (start : σ) (d : Deferred σ α) : Prop :=
  d.settled = (d.pending.take d.cursor).foldl work start

variable {work}

theorem Deferred.Paid.note
    {start : σ} {d : Deferred σ α} (paid : d.Paid work start) (input : α) :
    (d.note input).Paid work start := by
  rw [Paid, Deferred.note, List.take_append_of_le_length d.inside]
  exact paid

theorem Deferred.Paid.catchUp
    {start : σ} {d : Deferred σ α} (paid : d.Paid work start) :
    (d.catchUp work).Paid work start := by
  obtain ⟨settled, kept, moved⟩ := d.catchUp_spec work
  rw [Paid, settled, kept, moved, List.take_length, owed, paid,
    ← List.foldl_append, List.take_append_drop]

end Work

end MatchingBench.Lib.Deferral
