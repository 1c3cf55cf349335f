import Mathlib.Algebra.GroupWithZero.Nat

/-!
# Runs of state machines

Two kinds of machines and the rules by which facts about one step become
facts about a run: partial machines driven by a schedule of actions, and
machines that also emit output.  The simulation rule lets the relation depend
on the inputs still to come.  What the steps of a run do inside, the last and
failing one included, can be observed.
-/

set_option autoImplicit false

namespace MatchingBench.Lib.Runs

variable {σ τ α ρ : Type}

/-! ## Scheduled steps -/

/-- Take the scheduled steps in order; `none` once a step is not enabled. -/
def schedule (step : σ → α → Option σ) : σ → List α → Option σ
  | state, [] => some state
  | state, action :: actions =>
      (step state action).bind fun next => schedule step next actions

/-- What every enabled step preserves holds after every schedule. -/
theorem schedule_invariant
    {step : σ → α → Option σ} {invariant : σ → Prop}
    (preserved : ∀ state action next,
      invariant state → step state action = some next → invariant next)
    {state last : σ} {actions : List α}
    (initial : invariant state)
    (ran : schedule step state actions = some last) :
    invariant last := by
  induction actions generalizing state with
  | nil =>
      cases ran
      exact initial
  | cons action actions induction =>
      rw [schedule, Option.bind_eq_some_iff] at ran
      obtain ⟨next, stepped, rest⟩ := ran
      exact induction (preserved state action next initial stepped) rest

/-! ## Machines with output -/

/-- Feed the inputs in order to a partial machine and join its output. -/
def run (step : σ → α → Option (σ × List ρ)) :
    σ → List α → Option (σ × List ρ)
  | state, [] => some (state, [])
  | state, input :: inputs =>
      (step state input).bind fun next =>
        (run step next.1 inputs).map fun last =>
          (last.1, next.2 ++ last.2)

/-- Feed the inputs in order to a total machine. -/
def final (spec : τ → α → τ × List ρ) (state : τ) (inputs : List α) : τ :=
  inputs.foldl (fun state input => (spec state input).1) state

/-- The joined output of a total machine. -/
def output (spec : τ → α → τ × List ρ) : τ → List α → List ρ
  | _, [] => []
  | state, input :: inputs =>
      (spec state input).2 ++ output spec (spec state input).1 inputs

/-- Every input is admissible in the state it is read in. -/
def Admitted
    (spec : τ → α → τ × List ρ) (admissible : τ → α → Prop) :
    τ → List α → Prop
  | _, [] => True
  | state, input :: inputs =>
      admissible state input ∧
        Admitted spec admissible (spec state input).1 inputs

section Total

variable {spec : τ → α → τ × List ρ} {admissible : τ → α → Prop}

@[simp]
theorem final_nil (state : τ) : final spec state [] = state :=
  rfl

@[simp]
theorem final_cons (state : τ) (input : α) (inputs : List α) :
    final spec state (input :: inputs) =
      final spec (spec state input).1 inputs :=
  rfl

theorem final_append (state : τ) (front back : List α) :
    final spec state (front ++ back) =
      final spec (final spec state front) back :=
  List.foldl_append

theorem output_append (state : τ) (front back : List α) :
    output spec state (front ++ back) =
      output spec state front ++
        output spec (final spec state front) back := by
  induction front generalizing state with
  | nil => rfl
  | cons input front induction =>
      simp only [List.cons_append, output, induction, List.append_assoc,
        final_cons]

theorem admitted_append {state : τ} {front back : List α} :
    Admitted spec admissible state (front ++ back) ↔
      Admitted spec admissible state front ∧
        Admitted spec admissible (final spec state front) back := by
  induction front generalizing state with
  | nil => simp [Admitted]
  | cons input front induction =>
      simp only [List.cons_append, Admitted, induction, final_cons,
        and_assoc]

/-- Every input was admissible in the state it was read in. -/
theorem admitted_iff {state : τ} {inputs : List α} :
    Admitted spec admissible state inputs ↔
      ∀ front input back, inputs = front ++ input :: back →
        admissible (final spec state front) input := by
  constructor
  · rintro admitted front input back rfl
    exact (admitted_append.mp admitted).2.1
  · intro all
    induction inputs generalizing state with
    | nil => trivial
    | cons input inputs induction =>
        constructor
        · exact all [] input inputs rfl
        · apply induction
          rintro front later back rfl
          exact all (input :: front) later back rfl

/-- Every admitted input was admissible in some state. -/
theorem Admitted.of_mem
    {state : τ} {inputs : List α}
    (admitted : Admitted spec admissible state inputs) {input : α}
    (member : input ∈ inputs) : ∃ reached, admissible reached input := by
  induction inputs generalizing state with
  | nil => cases member
  | cons first inputs induction =>
      rcases List.mem_cons.mp member with rfl | member
      · exact ⟨state, admitted.1⟩
      · exact induction admitted.2 member

/-- What is admitted under a rule is admitted under a weaker one. -/
theorem Admitted.mono
    {state : τ} {inputs : List α} {weaker : τ → α → Prop}
    (admitted : Admitted spec admissible state inputs)
    (implied : ∀ state input, admissible state input → weaker state input) :
    Admitted spec weaker state inputs := by
  induction inputs generalizing state with
  | nil => trivial
  | cons input inputs induction =>
      exact ⟨implied _ _ admitted.1, induction admitted.2⟩

/-- Which inputs are admitted depends on the states alone. -/
theorem Admitted.congr
    {other : τ → α → τ × List ρ}
    (same : ∀ state input, (spec state input).1 = (other state input).1)
    {state : τ} {inputs : List α}
    (admitted : Admitted spec admissible state inputs) :
    Admitted other admissible state inputs := by
  induction inputs generalizing state with
  | nil => trivial
  | cons input inputs induction =>
      constructor
      · exact admitted.1
      · rw [← same]
        exact induction admitted.2

/-- Inputs that are admissible in every state are admitted. -/
theorem Admitted.of_forall
    {allowed : α → Prop} {state : τ} {inputs : List α}
    (all : ∀ input ∈ inputs, allowed input) :
    Admitted spec (fun _ => allowed) state inputs := by
  induction inputs generalizing state with
  | nil => trivial
  | cons input inputs induction =>
      rw [List.forall_mem_cons] at all
      exact ⟨all.1, induction all.2⟩

/-- Machines that agree on admissible inputs agree on an admitted run. -/
theorem Admitted.output_eq
    {other : τ → α → τ × List ρ}
    (same : ∀ state input, admissible state input →
      spec state input = other state input)
    {state : τ} {inputs : List α}
    (admitted : Admitted spec admissible state inputs) :
    output spec state inputs = output other state inputs := by
  induction inputs generalizing state with
  | nil => rfl
  | cons input inputs induction =>
      rw [output, output, ← same state input admitted.1,
        induction admitted.2]

/-- Machines that agree on admissible inputs end an admitted run alike. -/
theorem Admitted.final_eq
    {other : τ → α → τ × List ρ}
    (same : ∀ state input, admissible state input →
      spec state input = other state input)
    {state : τ} {inputs : List α}
    (admitted : Admitted spec admissible state inputs) :
    final spec state inputs = final other state inputs := by
  induction inputs generalizing state with
  | nil => rfl
  | cons input inputs induction =>
      rw [final_cons, final_cons, ← same state input admitted.1,
        induction admitted.2]

/--
A step's output paid for by its credit and a drop in potential: over a run the
potentials in between cancel.
-/
theorem output_length_le
    {potential : τ → Nat} {credit : α → Nat}
    (paid : ∀ state input,
      (spec state input).2.length + potential (spec state input).1 ≤
        potential state + credit input)
    (state : τ) (inputs : List α) :
    (output spec state inputs).length +
        potential (final spec state inputs) ≤
      potential state + (inputs.map credit).sum := by
  induction inputs generalizing state with
  | nil => simp [output]
  | cons input inputs induction =>
      have first := paid state input
      have later := induction (spec state input).1
      simp only [output, List.length_append, final_cons, List.map_cons,
        List.sum_cons]
      omega

end Total

/-! ## Simulation -/

/--
A partial machine that keeps `related` to a total one along admissible inputs,
with related output at every step, runs to the end and stays related.
-/
theorem simulation
    {step : σ → α → Option (σ × List ρ)}
    {spec : τ → α → τ × List ρ} {admissible : τ → α → Prop}
    {related : List α → σ → τ → Prop} {same : List ρ → List ρ → Prop}
    (same_nil : same [] [])
    (same_append : ∀ a b c d, same a b → same c d → same (a ++ c) (b ++ d))
    (forward : ∀ input inputs s t,
      related (input :: inputs) s t → admissible t input →
        ∃ next out, step s input = some (next, out) ∧
          related inputs next (spec t input).1 ∧ same out (spec t input).2)
    (rest inputs : List α) {s : σ} {t : τ}
    (initial : related (inputs ++ rest) s t)
    (admitted : Admitted spec admissible t inputs) :
    ∃ last out, run step s inputs = some (last, out) ∧
      related rest last (final spec t inputs) ∧
      same out (output spec t inputs) := by
  induction inputs generalizing s t with
  | nil => exact ⟨s, [], rfl, initial, same_nil⟩
  | cons input inputs induction =>
      obtain ⟨next, out, stepped, kept, agrees⟩ :=
        forward input (inputs ++ rest) s t initial admitted.1
      obtain ⟨last, outs, ran, ends, agree⟩ := induction kept admitted.2
      refine ⟨last, out ++ outs, ?_, ends, same_append _ _ _ _ agrees agree⟩
      rw [run, stepped, Option.bind_some, ran, Option.map_some]

/-! ## Observed steps -/

section Observed

variable {ε : Type} {step : σ → α → Option (σ × List ρ)}
  {observe : σ → α → List ε}

/-- What is observed of the steps of a run, each with its input. -/
def observed
    (step : σ → α → Option (σ × List ρ)) (observe : σ → α → List ε) :
    σ → List α → List (α × ε)
  | _, [] => []
  | state, input :: inputs =>
      (observe state input).map (Prod.mk input) ++
        match step state input with
        | none => []
        | some (next, _) => observed step observe next inputs

/-- A condition holds at every step of a run. -/
def Guarded
    (step : σ → α → Option (σ × List ρ)) (guard : σ → α → Prop) :
    σ → List α → Prop
  | _, [] => True
  | state, input :: inputs =>
      guard state input ∧
        ∀ next out, step state input = some (next, out) →
          Guarded step guard next inputs

theorem observed_cons_of_some
    {state next : σ} {input : α} {out : List ρ}
    (stepped : step state input = some (next, out)) (inputs : List α) :
    observed step observe state (input :: inputs) =
      (observe state input).map (Prod.mk input) ++
        observed step observe next inputs := by
  rw [observed, stepped]

theorem mem_observed_head
    {state : σ} {input : α} {event : ε}
    (own : event ∈ observe state input) (inputs : List α) :
    (input, event) ∈ observed step observe state (input :: inputs) :=
  List.mem_append_left _ (List.mem_map_of_mem own)

theorem mem_observed_cons
    {state : σ} {input : α} {inputs : List α} {event : α × ε}
    (member : event ∈ observed step observe state (input :: inputs)) :
    (event.1 = input ∧ event.2 ∈ observe state input) ∨
      ∃ next out, step state input = some (next, out) ∧
        event ∈ observed step observe next inputs := by
  rcases List.mem_append.mp member with own | later
  · rcases List.mem_map.mp own with ⟨inner, seen, rfl⟩
    exact Or.inl ⟨rfl, seen⟩
  · cases stepped : step state input with
    | none =>
        rw [stepped] at later
        cases later
    | some result =>
        rw [stepped] at later
        exact Or.inr ⟨result.1, result.2, rfl, later⟩

/--
What every guarded step keeps and shows is seen throughout a guarded run.  The
relation may depend on the events so far and on the inputs still to come, and
what is good only on the events of the whole run.
-/
theorem observed_history
    {related : List (α × ε) → List α → σ → Prop} {guard : σ → α → Prop}
    {good : List (α × ε) → α → ε → Prop}
    (mono : ∀ past later input event,
      good past input event → good (past ++ later) input event)
    (forward : ∀ past input inputs state,
      related past (input :: inputs) state → guard state input →
        (∀ event ∈ observe state input,
          good (past ++ (observe state input).map (Prod.mk input)) input
            event) ∧
        ∀ next out, step state input = some (next, out) →
          related (past ++ (observe state input).map (Prod.mk input)) inputs
            next)
    (rest : List α) {inputs : List α} {state : σ} {past : List (α × ε)}
    (initial : related past (inputs ++ rest) state)
    (guarded : Guarded step guard state inputs) :
    ∀ event ∈ observed step observe state inputs,
      good (past ++ observed step observe state inputs) event.1 event.2 := by
  induction inputs generalizing state past with
  | nil => exact List.forall_mem_nil _
  | cons input inputs induction =>
      have shown := forward past input (inputs ++ rest) state initial
        guarded.1
      rintro ⟨of, event⟩ member
      rcases mem_observed_cons member with
        ⟨rfl, own⟩ | ⟨next, out, stepped, later⟩
      · rw [observed, ← List.append_assoc]
        exact mono _ _ _ _ (shown.1 event own)
      · rw [observed_cons_of_some stepped, ← List.append_assoc]
        exact induction (shown.2 next out stepped)
          (guarded.2 next out stepped) _ later

/-- The rule for events that are good whatever came before them. -/
theorem observed_forall
    {related : List α → σ → Prop} {guard : σ → α → Prop}
    {good : α → ε → Prop}
    (forward : ∀ input inputs state, related (input :: inputs) state →
      guard state input →
        (∀ event ∈ observe state input, good input event) ∧
        ∀ next out, step state input = some (next, out) →
          related inputs next)
    (rest : List α) {inputs : List α} {state : σ}
    (initial : related (inputs ++ rest) state)
    (guarded : Guarded step guard state inputs) :
    ∀ event ∈ observed step observe state inputs, good event.1 event.2 :=
  @observed_history _ _ _ _ _ _ (fun _ => related) guard (fun _ => good)
    (fun _ _ _ _ shown => shown) (fun _ => forward) rest inputs state []
    initial guarded

/-- A run that shows only good events met the condition at every step. -/
theorem guarded_of_observed
    {related : List α → σ → Prop} {guard : σ → α → Prop}
    {good : α → ε → Prop}
    (forward : ∀ input inputs state, related (input :: inputs) state →
      ∀ next out, step state input = some (next, out) → related inputs next)
    (shows : ∀ input inputs state, related (input :: inputs) state →
      (∀ event ∈ observe state input, good input event) → guard state input)
    (rest : List α) {inputs : List α} {state : σ}
    (initial : related (inputs ++ rest) state)
    (all : ∀ event ∈ observed step observe state inputs,
      good event.1 event.2) :
    Guarded step guard state inputs := by
  induction inputs generalizing state with
  | nil => trivial
  | cons input inputs induction =>
      constructor
      · apply shows input (inputs ++ rest) state initial
        intro event own
        exact all (input, event) (mem_observed_head own inputs)
      · intro next out stepped
        apply induction
          (forward input (inputs ++ rest) state initial next out stepped)
        intro event later
        apply all event
        rw [observed_cons_of_some stepped]
        exact List.mem_append_right _ later

/-- A condition on the inputs alone. -/
theorem Guarded.of_forall
    {guard : σ → α → Prop} {inputs : List α}
    (all : ∀ input ∈ inputs, ∀ state, guard state input) (state : σ) :
    Guarded step guard state inputs := by
  induction inputs generalizing state with
  | nil => trivial
  | cons input inputs induction =>
      rw [List.forall_mem_cons] at all
      exact ⟨all.1 state, fun next _ _ => induction all.2 next⟩

/-- A condition on the inputs, in a run that does not stop before it fails. -/
theorem Guarded.forall
    {related : List α → σ → Prop} {allowed : α → Prop}
    (forward : ∀ input inputs state, related (input :: inputs) state →
      allowed input →
        ∃ next out, step state input = some (next, out) ∧
          related inputs next)
    (rest : List α) {inputs : List α} {state : σ}
    (initial : related (inputs ++ rest) state)
    (guarded : Guarded step (fun _ => allowed) state inputs) :
    ∀ input ∈ inputs, allowed input := by
  induction inputs generalizing state with
  | nil => exact List.forall_mem_nil _
  | cons input inputs induction =>
      rcases forward input (inputs ++ rest) state initial guarded.1 with
        ⟨next, out, stepped, kept⟩
      exact List.forall_mem_cons.mpr
        ⟨guarded.1, induction kept (guarded.2 next out stepped)⟩

/--
A machine that can take every guarded step, and keeps a relation to what it
has put out, runs to the end.
-/
theorem run_history
    {guard : σ → α → Prop} {related : List ρ → σ → Prop}
    (forward : ∀ past input state, related past state → guard state input →
      ∃ next out, step state input = some (next, out) ∧
        related (past ++ out) next)
    {inputs : List α} {past : List ρ} {state : σ}
    (initial : related past state)
    (guarded : Guarded step guard state inputs) :
    ∃ last out, run step state inputs = some (last, out) ∧
      related (past ++ out) last := by
  induction inputs generalizing past state with
  | nil => exact ⟨state, [], rfl, by simpa using initial⟩
  | cons input inputs induction =>
      rcases forward past input state initial guarded.1 with
        ⟨next, out, stepped, kept⟩
      rcases induction kept (guarded.2 next out stepped) with
        ⟨last, outs, ran, ends⟩
      refine ⟨last, out ++ outs, ?_, by simpa using ends⟩
      rw [run, stepped, Option.bind_some, ran, Option.map_some]

/-- Events paid for by the inputs of their steps. -/
theorem countP_observed_le
    {counted : ε → Bool} {credit : α → Nat}
    (paid : ∀ state input,
      (observe state input).countP counted ≤ credit input)
    (state : σ) (inputs : List α) :
    (observed step observe state inputs).countP
        (fun event => counted event.2) ≤
      (inputs.map credit).sum := by
  induction inputs generalizing state with
  | nil => exact Nat.le_refl 0
  | cons input inputs induction =>
      have own := paid state input
      rw [observed, List.countP_append, List.countP_map, List.map_cons,
        List.sum_cons]
      apply Nat.add_le_add own
      split
      · exact Nat.zero_le _
      · exact induction _

end Observed

end MatchingBench.Lib.Runs
