import MatchingBench.Scripts.ValidateSeeds
import Mathlib.Algebra.GroupWithZero.Nat
import Mathlib.Data.List.Nodup
import Mathlib.Data.List.Perm.Subperm

/-!
# The accounts of the seed validator

Whatever the order of the workers' and the main thread's steps, a future ends
at most once and with at most one record.  The summary, the JUnit totals and
the exit status are read off from that.
-/

set_option autoImplicit false

namespace MatchingBench.Scripts.ValidateSeedsAccounting

open MatchingBench.Lib.Runs
open MatchingBench.Scripts.ValidateSeeds

/-! ## Lists of results -/

/-- Filling an empty place adds one result. -/
theorem filterMap_set_perm
    {α : Type} {items : List (Option α)} {k : Nat}
    (empty : items[k]? = some none) (item : α) :
    ((items.set k (some item)).filterMap id).Perm
      (item :: items.filterMap id) := by
  induction items generalizing k with
  | nil => exact absurd empty (by simp)
  | cons first items induction =>
      cases k with
      | zero =>
          rw [List.getElem?_cons_zero, Option.some.injEq] at empty
          subst empty
          exact List.Perm.refl _
      | succ k =>
          rw [List.getElem?_cons_succ] at empty
          have later := induction empty
          cases first with
          | none => exact later
          | some other => exact (later.cons other).trans (List.Perm.swap _ _ _)

/-- Results that belong to the items at their places belong to a sublist. -/
theorem map_filterMap_sublist
    {α β : Type} {f : α → β} {items : List (Option α)} {owners : List β}
    (length : items.length = owners.length)
    (own : ∀ (k : Nat) (item : α), items[k]? = some (some item) →
      owners[k]? = some (f item)) :
    ((items.filterMap id).map f).Sublist owners := by
  induction items generalizing owners with
  | nil => exact List.nil_sublist owners
  | cons first items induction =>
      cases owners with
      | nil => cases length
      | cons owner owners =>
          have later :=
            @induction owners (Nat.succ.inj length) fun k item here =>
              own (k + 1) item here
          cases first with
          | none => exact later.cons owner
          | some item =>
              have same := own 0 item rfl
              rw [List.getElem?_cons_zero, Option.some.injEq] at same
              subst same
              exact later.cons_cons (f item)

/-- What `work` returned, once it has. -/
def resultOf : Future → Option Record
  | .finished result => result
  | _ => none

/-- The results of the futures. -/
def results (s : Pool) : List (Option Record) :=
  s.futures.map resultOf

theorem resultOf_cancel (future : Future) :
    resultOf future.cancel = resultOf future := by
  cases future <;> rfl

theorem map_resultOf_modify (futures : List Future) (k : Nat) :
    (futures.modify k Future.cancel).map resultOf = futures.map resultOf := by
  apply List.ext_getElem?
  intro j
  rw [List.getElem?_map, List.getElem?_map, List.getElem?_modify]
  cases futures[j]? with
  | none => rfl
  | some future =>
      by_cases here : k = j
      · simp [here, resultOf_cancel]
      · simp [here]

/-- Replacing a future without a result by another one. -/
theorem map_resultOf_set
    {futures : List Future} {k : Nat} {old new : Future}
    (here : futures[k]? = some old) (same : resultOf new = resultOf old) :
    (futures.set k new).map resultOf = futures.map resultOf := by
  apply List.ext_getElem?
  intro j
  rw [List.getElem?_map, List.getElem?_map, List.getElem?_set]
  by_cases equal : k = j
  · subst equal
    obtain ⟨inside, found⟩ := List.getElem?_eq_some_iff.mp here
    simp [inside, found, same]
  · simp [equal]

/-! ## One step -/

/-- The steps that are taken, each with what it waits for. -/
inductive Taken (settings : Settings) (s : Pool) : Action → Pool → Prop where
  | claim {k : Nat}
      (here : s.futures[k]? = some .queued)
      (free : s.futures.countP Future.active < settings.jobs) :
      Taken settings s (.claim k)
        { s with futures := s.futures.set k .claimed }
  | skip {k : Nat}
      (here : s.futures[k]? = some .claimed) (stopped : s.stop = true) :
      Taken settings s (.enter k)
        { s with futures := s.futures.set k (.finished none) }
  | enter {k : Nat}
      (here : s.futures[k]? = some .claimed) (going : ¬ s.stop = true) :
      Taken settings s (.enter k)
        { s with futures := s.futures.set k .running }
  | finish {k : Nat} {cell : Cell} {run : CellRun}
      (here : s.futures[k]? = some .running)
      (selected : settings.cells[k]? = some cell)
      (seen : run.interrupted = true → s.interruptedFlag = true) :
      Taken settings s (.finish k run)
        (publish settings s k (recordOf settings cell run))
  | cancelPending {k : Nat}
      (here : s.futures[k]? = some .queued)
      (waiting : s.main = .waiting) (stopped : s.stop = true) :
      Taken settings s (.cancelPending k)
        { s with futures := s.futures.set k .cancelled }
  | interrupt {inShutdown : Bool}
      (first : ¬ s.interrupted = true)
      (waiting : s.main = if inShutdown then .joining else .waiting) :
      Taken settings s .interrupt
        { s with main := .caught inShutdown, interrupted := true }
  | setInterrupted {inShutdown : Bool} (caught : s.main = .caught inShutdown) :
      Taken settings s .setInterrupted
        { s with main := .flagged inShutdown, interruptedFlag := true }
  | setStop {inShutdown : Bool} (flagged : s.main = .flagged inShutdown) :
      Taken settings s .setStop
        { s with
          main := if inShutdown then .joining else .cancelling 0
          stop := true }
  | poolDone
      (waiting : s.main = .waiting)
      (settled : s.futures.all Future.settled = true) :
      Taken settings s .poolDone { s with main := .cancelling 0 }
  | cancelNext {next : Nat}
      (cancelling : s.main = .cancelling next)
      (inside : next < s.futures.length) :
      Taken settings s .cancelNext
        { s with
          futures := s.futures.modify next Future.cancel
          main := .cancelling (next + 1) }
  | cancelledAll {next : Nat}
      (cancelling : s.main = .cancelling next)
      (outside : ¬ next < s.futures.length) :
      Taken settings s .cancelNext { s with main := .joining }
  | joined
      (joining : s.main = .joining)
      (settled : s.futures.all Future.settled = true) :
      Taken settings s .joined { s with main := .done }

theorem taken_of_step
    {settings : Settings} {s s' : Pool} {a : Action}
    (stepped : step settings s a = some s') : Taken settings s a s' := by
  cases a with
  | claim k =>
      simp only [step] at stepped
      split at stepped
      · rename_i here
        split at stepped
        · rename_i free
          cases stepped
          exact .claim here free
        · cases stepped
      · cases stepped
  | enter k =>
      simp only [step] at stepped
      split at stepped
      · rename_i here
        split at stepped
        · rename_i stopped
          cases stepped
          exact .skip here stopped
        · rename_i going
          cases stepped
          exact .enter here going
      · cases stepped
  | finish k run =>
      simp only [step] at stepped
      split at stepped
      · rename_i cell here selected
        split at stepped
        · cases stepped
        · rename_i seen
          cases stepped
          apply Taken.finish here selected
          intro saw
          by_contra unset
          exact seen ⟨saw, unset⟩
      · cases stepped
  | cancelPending k =>
      simp only [step] at stepped
      split at stepped
      · rename_i here
        split at stepped
        · rename_i ready
          cases stepped
          exact .cancelPending here ready.1 ready.2
        · cases stepped
      · cases stepped
  | interrupt =>
      simp only [step] at stepped
      split at stepped
      · cases stepped
      · rename_i first
        split at stepped
        · rename_i waiting
          cases stepped
          exact @Taken.interrupt settings s false first waiting
        · rename_i joining
          cases stepped
          exact @Taken.interrupt settings s true first joining
        · cases stepped
  | setInterrupted =>
      simp only [step] at stepped
      split at stepped
      · rename_i caught
        cases stepped
        exact .setInterrupted caught
      · cases stepped
  | setStop =>
      simp only [step] at stepped
      split at stepped
      · rename_i flagged
        cases stepped
        exact .setStop flagged
      · cases stepped
  | poolDone =>
      simp only [step] at stepped
      split at stepped
      · rename_i ready
        cases stepped
        exact .poolDone ready.1 ready.2
      · cases stepped
  | cancelNext =>
      simp only [step] at stepped
      split at stepped
      · rename_i next cancelling
        split at stepped
        · rename_i inside
          cases stepped
          exact .cancelNext cancelling inside
        · rename_i outside
          cases stepped
          exact .cancelledAll cancelling outside
      · cases stepped
  | joined =>
      simp only [step] at stepped
      split at stepped
      · rename_i ready
        cases stepped
        exact .joined ready.1 ready.2
      · cases stepped

/-- What a step does to the results: nothing, or one more record. -/
inductive Effect (settings : Settings) (s s' : Pool) : Prop where
  | quiet
      (kept : results s' = results s)
      (records : s'.records = s.records)
      (counts : s'.counts = s.counts)
  | published
      (k : Nat) (cell : Cell) (run : CellRun)
      (empty : (results s)[k]? = some none)
      (selected : settings.cells[k]? = some cell)
      (counted : (recordOf settings cell run).outcome ≠ .notRun)
      (filled :
        results s' = (results s).set k (some (recordOf settings cell run)))
      (records : s'.records = s.records ++ [recordOf settings cell run])
      (counts :
        s'.counts =
          Function.update s.counts (recordOf settings cell run).outcome
            (s.counts (recordOf settings cell run).outcome + 1))

/-- The end of `work`. -/
theorem publish_effect
    {settings : Settings} {s : Pool} {k : Nat} {cell : Cell} (run : CellRun)
    (here : s.futures[k]? = some .running)
    (selected : settings.cells[k]? = some cell) :
    Effect settings s
      (publish settings s k (recordOf settings cell run)) := by
  rw [publish]
  by_cases skipped : (recordOf settings cell run).outcome = .notRun
  · rw [if_pos skipped]
    exact .quiet (map_resultOf_set here rfl) rfl rfl
  · rw [if_neg skipped]
    have empty : (results s)[k]? = some none := by
      rw [results, List.getElem?_map, here]
      rfl
    exact .published k cell run empty selected skipped List.map_set rfl rfl

theorem Taken.effect
    {settings : Settings} {s s' : Pool} {a : Action}
    (taken : Taken settings s a s') : Effect settings s s' := by
  cases taken with
  | claim here free => exact .quiet (map_resultOf_set here rfl) rfl rfl
  | skip here stopped => exact .quiet (map_resultOf_set here rfl) rfl rfl
  | enter here going => exact .quiet (map_resultOf_set here rfl) rfl rfl
  | finish here selected seen => exact publish_effect _ here selected
  | cancelPending here waiting stopped =>
      exact .quiet (map_resultOf_set here rfl) rfl rfl
  | cancelNext cancelling inside =>
      exact .quiet (map_resultOf_modify _ _) rfl rfl
  | _ => exact .quiet rfl rfl rfl

/-- Only the end of a run of a cell makes a record, and makes one of it. -/
theorem Taken.records
    {settings : Settings} {s s' : Pool} {a : Action}
    (taken : Taken settings s a s') {r : Record} (member : r ∈ s'.records) :
    r ∈ s.records ∨ ∃ k run, a = .finish k run ∧
      ∃ cell, settings.cells[k]? = some cell ∧
        r = recordOf settings cell run := by
  cases taken with
  | @finish k cell run here selected seen =>
      rw [publish] at member
      split at member
      · exact Or.inl member
      · rcases List.mem_append.mp member with before | new
        · exact Or.inl before
        · exact Or.inr ⟨k, run, rfl, cell, selected,
            List.mem_singleton.mp new⟩
  | _ => exact Or.inl member

/-! ## Every reachable state -/

/-- The records are the results of the futures, and are counted. -/
structure Consistent (settings : Settings) (s : Pool) : Prop where
  length : (results s).length = settings.cells.length
  records : s.records.Perm ((results s).filterMap id)
  own :
    ∀ (k : Nat) (r : Record), (results s)[k]? = some (some r) →
      ∃ cell run, settings.cells[k]? = some cell ∧
        r = recordOf settings cell run ∧ r.outcome ≠ .notRun
  counts :
    ∀ outcome, s.counts outcome = s.records.countP (·.outcome = outcome)

theorem consistent_initial (settings : Settings) :
    Consistent settings (initial settings) := by
  have fresh :
      results (initial settings) = settings.cells.map fun _ => none := by
    rw [results, initial, List.map_map]
    rfl
  constructor
  · rw [fresh, List.length_map]
  · have nothing :
        (settings.cells.map fun _ => (none : Option Record)).filterMap id =
          [] := by
      apply List.filterMap_eq_nil_iff.mpr
      intro result member
      obtain ⟨_, -, rfl⟩ := List.mem_map.mp member
      rfl
    rw [fresh, nothing]
    exact List.Perm.refl []
  · intro k r here
    rw [fresh, List.getElem?_map, Option.map_eq_some_iff] at here
    obtain ⟨_, -, impossible⟩ := here
    cases impossible
  · intro outcome
    rfl

theorem Effect.consistent
    {settings : Settings} {s s' : Pool} (effect : Effect settings s s')
    (consistent : Consistent settings s) : Consistent settings s' := by
  cases effect with
  | quiet kept records counts =>
      constructor
      · rw [kept]
        exact consistent.length
      · rw [kept, records]
        exact consistent.records
      · rw [kept]
        exact consistent.own
      · rw [records, counts]
        exact consistent.counts
  | published k cell run empty selected counted filled records counts =>
      constructor
      · rw [filled, List.length_set]
        exact consistent.length
      · rw [filled, records]
        apply List.Perm.trans _ (filterMap_set_perm empty _).symm
        exact List.perm_append_comm.trans (consistent.records.cons _)
      · intro j r here
        rw [filled, List.getElem?_set] at here
        by_cases same : k = j
        · subst same
          obtain ⟨inside, -⟩ := List.getElem?_eq_some_iff.mp empty
          rw [if_pos rfl, if_pos inside, Option.some.injEq,
            Option.some.injEq] at here
          subst here
          exact ⟨cell, run, selected, rfl, counted⟩
        · rw [if_neg same] at here
          exact consistent.own j r here
      · intro outcome
        rw [records, counts, List.countP_append, List.countP_singleton,
          ← consistent.counts]
        by_cases this : (recordOf settings cell run).outcome = outcome
        · subst this
          simp
        · rw [Function.update_of_ne (Ne.symm this)]
          simp [this]

/-- Every schedule leads to a consistent state. -/
theorem consistent_of_schedule
    {settings : Settings} {actions : List Action} {s : Pool}
    (ran : schedule (step settings) (initial settings) actions = some s) :
    Consistent settings s := by
  apply schedule_invariant _ (consistent_initial settings) ran
  intro before action after holds stepped
  exact (taken_of_step stepped).effect.consistent holds

/-! ## Cells and records -/

theorem cell_recordOf (settings : Settings) (cell : Cell) (run : CellRun) :
    (recordOf settings cell run).cell = cell := by
  rw [recordOf]
  unfold runCell
  cases run.escaped with
  | some e => rfl
  | none =>
      cases run.caught with
      | some found => rfl
      | none =>
          dsimp only
          split
          · rename_i r same
            split at same <;> cases same <;> rfl
          · rfl

/-- A record was made by the run of its cell that the schedule ends. -/
structure Made
    (settings : Settings) (actions : List Action) (r : Record) (run : CellRun) :
    Prop where
  ended : ∃ k, .finish k run ∈ actions ∧ settings.cells[k]? = some r.cell
  record : r = recordOf settings r.cell run

/-- Every record has been there, or its cell's run has ended on the way. -/
theorem made_of_schedule
    {settings : Settings} {actions : List Action} {s s' : Pool}
    (ran : schedule (step settings) s actions = some s') {r : Record}
    (member : r ∈ s'.records) :
    r ∈ s.records ∨ ∃ run, Made settings actions r run := by
  induction actions generalizing s with
  | nil =>
      cases ran
      exact Or.inl member
  | cons a actions induction =>
      rw [schedule, Option.bind_eq_some_iff] at ran
      obtain ⟨next, stepped, rest⟩ := ran
      rcases induction rest with before | ⟨run, ⟨k, ended, selected⟩, same⟩
      · rcases (taken_of_step stepped).records before with
          before | ⟨k, run, rfl, cell, selected, rfl⟩
        · exact Or.inl before
        · refine Or.inr ⟨run, ⟨k, List.mem_cons_self, ?_⟩, ?_⟩
          · rw [cell_recordOf]
            exact selected
          · rw [cell_recordOf]
      · exact Or.inr
          ⟨run, ⟨k, List.mem_cons_of_mem a ended, selected⟩, same⟩

section Cells

variable {settings : Settings} {s : Pool}
  (consistent : Consistent settings s)
include consistent

/-- What is recorded was run. -/
theorem Consistent.counted
    {r : Record} (member : r ∈ s.records) : r.outcome ≠ .notRun := by
  have among := consistent.records.mem_iff.mp member
  rw [List.mem_filterMap] at among
  obtain ⟨result, inside, same⟩ := among
  cases same
  obtain ⟨k, here⟩ := List.mem_iff_getElem?.mp inside
  obtain ⟨-, -, -, -, counted⟩ := consistent.own k r here
  exact counted

/-- The cells of the records are selected cells, each at most once. -/
theorem Consistent.cells_sublist :
    (((results s).filterMap id).map Record.cell).Sublist settings.cells := by
  apply map_filterMap_sublist consistent.length
  intro k r here
  obtain ⟨cell, run, selected, rfl, -⟩ := consistent.own k r here
  rw [selected, cell_recordOf]

theorem Consistent.cells_perm :
    (s.records.map Record.cell).Perm
      (((results s).filterMap id).map Record.cell) :=
  consistent.records.map Record.cell

theorem Consistent.cells_subset
    {cell : Cell} (member : cell ∈ s.records.map Record.cell) :
    cell ∈ settings.cells :=
  consistent.cells_sublist.subset (consistent.cells_perm.mem_iff.mp member)

variable (distinct : settings.cells.Nodup)
include distinct

theorem Consistent.cells_nodup : (s.records.map Record.cell).Nodup :=
  consistent.cells_perm.nodup_iff.mpr
    (distinct.sublist consistent.cells_sublist)

/-- The records and the cells not run make up the selection. -/
theorem Consistent.partition :
    (s.records.map Record.cell ++ notRun settings s).Perm settings.cells := by
  rw [List.perm_ext_iff_of_nodup _ distinct]
  · intro cell
    rw [List.mem_append, notRun, List.mem_filter, decide_eq_true_eq]
    constructor
    · rintro (ran | ⟨selected, -⟩)
      · exact consistent.cells_subset ran
      · exact selected
    · intro selected
      by_cases ran : cell ∈ s.records.map Record.cell
      · exact Or.inl ran
      · exact Or.inr ⟨selected, ran⟩
  · rw [List.nodup_append]
    refine ⟨consistent.cells_nodup distinct, distinct.filter _, ?_⟩
    rintro cell ran _ skipped rfl
    rw [notRun, List.mem_filter, decide_eq_true_eq] at skipped
    exact skipped.2 ran

end Cells

/-! ## Totals -/

/-- The sum of the counts of the summary. -/
def countedCells (s : Pool) : Nat :=
  s.counts .pass + s.counts .fail + s.counts .crash + s.counts .timeout +
    s.counts .error + s.counts .invalid

theorem countP_outcomes
    {records : List Record} (counted : ∀ r ∈ records, r.outcome ≠ .notRun) :
    (records.countP (·.outcome = .pass)) +
        (records.countP (·.outcome = .fail)) +
        (records.countP (·.outcome = .crash)) +
        (records.countP (·.outcome = .timeout)) +
        (records.countP (·.outcome = .error)) +
        (records.countP (·.outcome = .invalid)) =
      records.length := by
  induction records with
  | nil => rfl
  | cons r records induction =>
      rw [List.forall_mem_cons] at counted
      have rest := induction counted.2
      simp only [List.countP_cons, List.length_cons]
      cases outcome : r.outcome with
      | notRun => exact absurd outcome counted.1
      | _ =>
          simp only [reduceCtorEq, decide_false, decide_true,
            Bool.false_eq_true, if_true, if_false]
          omega

theorem countP_isFailure (records : List Record) :
    records.countP (fun r => r.outcome.isFailure) =
      records.countP (·.outcome = .fail) +
        records.countP (·.outcome = .invalid) := by
  induction records with
  | nil => rfl
  | cons r records induction =>
      simp only [List.countP_cons, induction]
      cases r.outcome <;> simp [Outcome.isFailure] <;> omega

theorem countP_isError (records : List Record) :
    records.countP (fun r => r.outcome.isError) =
      records.countP (·.outcome = .crash) +
        records.countP (·.outcome = .timeout) +
        records.countP (·.outcome = .error) := by
  induction records with
  | nil => rfl
  | cons r records induction =>
      simp only [List.countP_cons, induction]
      cases r.outcome <;> simp [Outcome.isError] <;> omega

/-! ## JUnit -/

/-- A test case with a `failure` element. -/
def failureCase (test : TestCase) : Bool :=
  match test.verdict with
  | .failure _ _ _ => true
  | _ => false

/-- A test case with an `error` element. -/
def errorCase (test : TestCase) : Bool :=
  match test.verdict with
  | .error _ _ _ => true
  | _ => false

/-- A test case with a `skipped` element. -/
def skippedTest (test : TestCase) : Bool :=
  match test.verdict with
  | .skipped _ => true
  | _ => false

/-- The attributes a cell's test case is found by. -/
def caseKey (cell : Cell) : String × String :=
  (cell.scenario, "seed " ++ toString cell.seed)

/-- The totals of a suite are those of its test cases. -/
structure SuiteAdds (suite : Suite) : Prop where
  tests : suite.cases.length = suite.tests
  failures : suite.cases.countP failureCase = suite.failures
  errors : suite.cases.countP errorCase = suite.errors
  skipped : suite.cases.countP skippedTest = suite.skipped

section Junit

variable (str : Json → String) (label : String)

/-- The test cases are those of the records and of the cells not run. -/
theorem writeJunit_cases (records : List Record) (cells : List Cell) :
    (writeJunit str label records cells).cases.Perm
      (records.map (recordCase str) ++ cells.map skippedCase) := by
  apply List.Perm.append
  · exact (List.mergeSort_perm _ _).map _
  · exact (List.mergeSort_perm _ _).map _

/-- The kind of a record's test case. -/
theorem recordCase_kind
    {r : Record} (counted : r.outcome ≠ .notRun) :
    failureCase (recordCase str r) = r.outcome.isFailure ∧
      errorCase (recordCase str r) = r.outcome.isError ∧
      skippedTest (recordCase str r) = false := by
  unfold recordCase failureCase errorCase skippedTest
  cases outcome : r.outcome with
  | notRun => exact absurd outcome counted
  | _ => exact ⟨rfl, rfl, rfl⟩

/-- A suite's totals are those of its test cases. -/
theorem writeJunit_adds
    {records : List Record} (counted : ∀ r ∈ records, r.outcome ≠ .notRun)
    (cells : List Cell) : SuiteAdds (writeJunit str label records cells) := by
  have cases := writeJunit_cases str label records cells
  have noSkipped : ∀ r ∈ records, skippedTest (recordCase str r) = false :=
    fun r member => (recordCase_kind str (counted r member)).2.2
  constructor
  · rw [cases.length_eq, List.length_append, List.length_map, List.length_map]
    rfl
  · rw [cases.countP_eq, List.countP_append, List.countP_map, List.countP_map]
    have none : cells.countP (failureCase ∘ skippedCase) = 0 :=
      List.countP_eq_zero.mpr fun _ _ => Bool.false_ne_true
    rw [none, Nat.add_zero]
    apply List.countP_congr
    intro r member
    rw [Function.comp_apply, (recordCase_kind str (counted r member)).1]
  · rw [cases.countP_eq, List.countP_append, List.countP_map, List.countP_map]
    have none : cells.countP (errorCase ∘ skippedCase) = 0 :=
      List.countP_eq_zero.mpr fun _ _ => Bool.false_ne_true
    rw [none, Nat.add_zero]
    apply List.countP_congr
    intro r member
    rw [Function.comp_apply, (recordCase_kind str (counted r member)).2.1]
  · rw [cases.countP_eq, List.countP_append, List.countP_map, List.countP_map]
    have none : records.countP (skippedTest ∘ recordCase str) = 0 := by
      apply List.countP_eq_zero.mpr
      intro r member
      rw [Function.comp_apply, noSkipped r member]
      exact Bool.false_ne_true
    have all : cells.countP (skippedTest ∘ skippedCase) = cells.length :=
      List.countP_eq_length.mpr fun _ _ => rfl
    rw [none, all, Nat.zero_add]
    rfl

/-- Each cell has its test case. -/
theorem writeJunit_keys (records : List Record) (cells : List Cell) :
    ((writeJunit str label records cells).cases.map fun test =>
        (test.classname, test.name)).Perm
      ((records.map Record.cell ++ cells).map caseKey) := by
  apply ((writeJunit_cases str label records cells).map _).trans
  rw [List.map_append, List.map_append, List.map_map, List.map_map,
    List.map_map]
  exact List.Perm.refl _

end Junit

/-! ## Passes -/

/--
The one result file of a run is a dict that names the cell and whose computed
hash is the published one.
-/
def Proves (settings : Settings) (cell : Cell) (run : CellRun) : Prop :=
  ∃ fields,
    run.files = [some (.dict fields)] ∧
      ((Json.dict fields).get "seed").isNumber cell.seed = true ∧
      ((Json.dict fields).get "scenario").isString cell.scenario = true ∧
      (((Json.dict fields).get "correctness").get "computed_hash").isString
        (settings.published cell) = true

theorem decideOutcome_pass
    {requireValid : Bool} {cell : Cell} {expected : String} {run : CellRun}
    (pass : decideOutcome requireValid cell expected run = .pass) :
    run.names cell = true ∧ run.findings.computed.isString expected = true := by
  rw [decideOutcome] at pass
  split at pass
  · cases pass
  · split at pass
    · cases pass
    · split at pass
      · cases pass
      · split at pass
        · cases pass
        · rename_i named
          split at pass
          · rename_i same
            exact ⟨not_not.mp named, same⟩
          · cases pass

/-- Only the outcome of a harness run can be a pass. -/
theorem outcome_of_pass
    {settings : Settings} {cell : Cell} {run : CellRun}
    (pass : (recordOf settings cell run).outcome = .pass) :
    decideOutcome settings.requireValid cell (settings.published cell) run =
      .pass := by
  have generation : generationOutcome run ≠ .pass := by
    rw [generationOutcome]
    split
    · simp
    · split <;> simp
  revert pass
  rw [recordOf]
  unfold runCell
  cases run.escaped with
  | some e =>
      intro pass
      cases pass
  | none =>
      cases run.caught with
      | some found =>
          dsimp only
          split <;> intro pass <;> cases pass
      | none =>
          dsimp only
          by_cases early :
              ¬ run.tapeOk = true ∧
                ¬ (run.generator = some 0 ∧ run.generatedOk = true)
          · rw [if_pos early]
            intro pass
            exact absurd pass generation
          · rw [if_neg early]
            intro pass
            exact pass

theorem proves_of_pass
    {settings : Settings} {cell : Cell} {run : CellRun}
    (pass : (recordOf settings cell run).outcome = .pass) :
    Proves settings cell run := by
  obtain ⟨named, same⟩ := decideOutcome_pass (outcome_of_pass pass)
  rw [CellRun.names] at named
  cases loaded : run.result with
  | none =>
      rw [loaded] at named
      exact absurd named Bool.false_ne_true
  | some j =>
      rw [loaded] at named
      have one : run.files = [some j] := by
        rw [CellRun.result] at loaded
        split at loaded
        · rename_i file single
          rw [single, loaded]
        · cases loaded
      cases j with
      | dict fields =>
          rw [Bool.and_eq_true, Bool.and_eq_true] at named
          rw [CellRun.findings, loaded] at same
          exact ⟨fields, one, named.1.2, named.2, same⟩
      | _ => exact absurd named Bool.false_ne_true

/-! ## The end of a run -/

theorem settled_at
    {futures : List Future} (settled : futures.all Future.settled = true)
    {k : Nat} {future : Future} (here : futures[k]? = some future) :
    future.settled = true :=
  List.all_eq_true.mp settled future (List.mem_of_getElem? here)

theorem publish_main (settings : Settings) (s : Pool) (k : Nat) (r : Record) :
    (publish settings s k r).main = s.main := by
  rw [publish]
  split <;> rfl

theorem publish_interrupted
    (settings : Settings) (s : Pool) (k : Nat) (r : Record) :
    (publish settings s k r).interrupted = s.interrupted := by
  rw [publish]
  split <;> rfl

/-- A step taken once every future has settled and the main thread is done. -/
theorem Taken.not_done
    {settings : Settings} {s s' : Pool} {a : Action}
    (taken : Taken settings s a s') (ends : s.main = .done) :
    ¬ s.futures.all Future.settled = true := by
  intro settled
  cases taken with
  | claim here free =>
      exact absurd (settled_at settled here) Bool.false_ne_true
  | skip here stopped =>
      exact absurd (settled_at settled here) Bool.false_ne_true
  | enter here going =>
      exact absurd (settled_at settled here) Bool.false_ne_true
  | finish here selected seen =>
      exact absurd (settled_at settled here) Bool.false_ne_true
  | cancelPending here waiting stopped => simp [ends] at waiting
  | @interrupt inShutdown first waiting =>
      cases inShutdown <;> simp [ends] at waiting
  | setInterrupted caught => simp [ends] at caught
  | setStop flagged => simp [ends] at flagged
  | poolDone waiting settled => simp [ends] at waiting
  | cancelNext cancelling inside => simp [ends] at cancelling
  | cancelledAll cancelling outside => simp [ends] at cancelling
  | joined joining settled => simp [ends] at joining

/-- The main thread's last step is the return of `shutdown`. -/
theorem Taken.settled
    {settings : Settings} {s s' : Pool} {a : Action}
    (taken : Taken settings s a s') (ends : s'.main = .done) :
    s.main = .done ∨ s'.futures.all Future.settled = true := by
  cases taken with
  | joined joining settled => exact Or.inr settled
  | finish here selected seen =>
      rw [publish_main] at ends
      exact Or.inl ends
  | claim here free => exact Or.inl ends
  | skip here stopped => exact Or.inl ends
  | enter here going => exact Or.inl ends
  | cancelPending here waiting stopped => exact Or.inl ends
  | @setStop inShutdown flagged => cases inShutdown <;> cases ends
  | _ => cases ends

/-- Once the main thread is done no worker holds or can take a cell. -/
def Settled (s : Pool) : Prop :=
  s.main = .done → s.futures.all Future.settled = true

theorem settled_of_schedule
    {settings : Settings} {actions : List Action} {s : Pool}
    (ran : schedule (step settings) (initial settings) actions = some s) :
    Settled s := by
  apply schedule_invariant _ _ ran
  · intro before action after settled stepped ends
    have taken := taken_of_step stepped
    rcases taken.settled ends with already | now
    · exact absurd (settled already) (taken.not_done already)
    · exact now
  · intro ends
    cases ends

/-- A finished run takes no more steps. -/
theorem step_of_done
    (settings : Settings) {s : Pool} (ends : s.main = .done)
    (settled : s.futures.all Future.settled = true) (a : Action) :
    step settings s a = none := by
  cases stepped : step settings s a with
  | none => rfl
  | some s' => exact absurd settled ((taken_of_step stepped).not_done ends)

/-- The main thread remembers whether it was interrupted. -/
theorem Taken.interrupted_iff
    {settings : Settings} {s s' : Pool} {a : Action}
    (taken : Taken settings s a s') :
    s'.interrupted = true ↔ s.interrupted = true ∨ a = .interrupt := by
  cases taken with
  | finish here selected seen =>
      rw [publish_interrupted]
      simp
  | _ => simp

theorem interrupted_iff
    {settings : Settings} {actions : List Action} {s s' : Pool}
    (ran : schedule (step settings) s actions = some s') :
    s'.interrupted = true ↔ s.interrupted = true ∨ .interrupt ∈ actions := by
  induction actions generalizing s with
  | nil =>
      cases ran
      simp
  | cons action actions induction =>
      rw [schedule, Option.bind_eq_some_iff] at ran
      obtain ⟨next, stepped, rest⟩ := ran
      rw [induction rest, (taken_of_step stepped).interrupted_iff,
        List.mem_cons, or_assoc, @eq_comm _ Action.interrupt]

/-! ## Progress -/

/-- How far a future is from its end. -/
def weightOf : Future → Nat
  | .queued => 3
  | .claimed => 2
  | .running => 1
  | _ => 0

/-- How far the main thread is from its end, with so many futures. -/
def mainWeight (count : Nat) : Main → Nat
  | .waiting => count + 3
  | .caught inShutdown => (if inShutdown then 1 else count + 2) + 2
  | .flagged inShutdown => (if inShutdown then 1 else count + 2) + 1
  | .cancelling next => (count - next) + 2
  | .joining => 1
  | .done => 0

/-- How far a run is from its end; a signal sets the main thread back once. -/
def distance (s : Pool) : Nat :=
  (s.futures.map weightOf).sum + mainWeight s.futures.length s.main +
    if s.interrupted then 0 else 3

theorem sum_map_set
    {futures : List Future} {k : Nat} {old : Future}
    (here : futures[k]? = some old) (new : Future) :
    ((futures.set k new).map weightOf).sum + weightOf old =
      (futures.map weightOf).sum + weightOf new := by
  induction futures generalizing k with
  | nil => cases here
  | cons first futures induction =>
      cases k with
      | zero =>
          rw [List.getElem?_cons_zero, Option.some.injEq] at here
          subst here
          simp only [List.set_cons_zero, List.map_cons, List.sum_cons]
          omega
      | succ k =>
          rw [List.getElem?_cons_succ] at here
          have rest := induction here
          simp only [List.set_cons_succ, List.map_cons, List.sum_cons]
          omega

theorem sum_map_modify_le (futures : List Future) (k : Nat) :
    ((futures.modify k Future.cancel).map weightOf).sum ≤
      (futures.map weightOf).sum := by
  cases here : futures[k]? with
  | none =>
      rw [List.modify_eq_self (List.getElem?_eq_none_iff.mp here)]
  | some future =>
      obtain ⟨inside, found⟩ := List.getElem?_eq_some_iff.mp here
      have less : weightOf future.cancel ≤ weightOf future := by
        cases future <;> simp [Future.cancel, weightOf]
      have same : futures.modify k Future.cancel =
        futures.set k future.cancel := by
        rw [List.modify_eq_set_getElem?, here]
        rfl
      have sum := sum_map_set here future.cancel
      rw [same]
      omega

/-- Every step comes closer to the end. -/
theorem Taken.distance_lt
    {settings : Settings} {s s' : Pool} {a : Action}
    (taken : Taken settings s a s') : distance s' < distance s := by
  unfold distance
  cases taken with
  | claim here free =>
      have sum := sum_map_set here .claimed
      simp only [weightOf, List.length_set] at sum ⊢
      omega
  | skip here stopped =>
      have sum := sum_map_set here (.finished none)
      simp only [weightOf, List.length_set] at sum ⊢
      omega
  | enter here going =>
      have sum := sum_map_set here .running
      simp only [weightOf, List.length_set] at sum ⊢
      omega
  | @finish k cell run here selected seen =>
      rw [publish]
      split
      · have sum := sum_map_set here (.finished none)
        simp only [weightOf, List.length_set] at sum ⊢
        omega
      · have sum :=
          sum_map_set here (.finished (some (recordOf settings cell run)))
        simp only [weightOf, List.length_set] at sum ⊢
        omega
  | cancelPending here waiting stopped =>
      have sum := sum_map_set here .cancelled
      simp only [weightOf, List.length_set] at sum ⊢
      omega
  | @interrupt inShutdown first waiting =>
      cases inShutdown
      · simp [first, waiting, mainWeight]
        omega
      · simp [first, waiting, mainWeight]
  | setInterrupted caught => simp [caught, mainWeight]
  | @setStop inShutdown flagged =>
      cases inShutdown
      · simp [flagged, mainWeight]
      · simp [flagged, mainWeight]
  | poolDone waiting settled => simp [waiting, mainWeight]
  | @cancelNext next cancelling inside =>
      have sum := sum_map_modify_le s.futures next
      simp only [cancelling, mainWeight, List.length_modify]
      omega
  | cancelledAll cancelling outside =>
      simp only [cancelling, mainWeight]
      omega
  | joined joining settled => simp [joining, mainWeight]

/-- No schedule is longer than the distance it starts at. -/
theorem length_le_distance
    {settings : Settings} {actions : List Action} {s s' : Pool}
    (ran : schedule (step settings) s actions = some s') :
    actions.length ≤ distance s := by
  induction actions generalizing s with
  | nil => exact Nat.zero_le _
  | cons action actions induction =>
      rw [schedule, Option.bind_eq_some_iff] at ran
      obtain ⟨next, stepped, rest⟩ := ran
      have later := induction rest
      have less := (taken_of_step stepped).distance_lt
      rw [List.length_cons]
      omega

/-- A cell whose files cannot be set up. -/
def brokenRun : CellRun where
  escaped := some ""
  caught := none
  tapeOk := false
  generator := none
  generatedOk := false
  generatorErr := ""
  harness := none
  out := ""
  err := ""
  diag := []
  errLines := []
  files := []
  interrupted := false

section Progress

variable {settings : Settings} {s : Pool}

/-- A worker that holds a future can go on. -/
theorem exists_step_of_active
    (length : s.futures.length = settings.cells.length) {k : Nat}
    {future : Future} (here : s.futures[k]? = some future)
    (active : future.active = true) :
    ∃ a s', step settings s a = some s' := by
  cases future with
  | claimed =>
      refine ⟨.enter k, ?_⟩
      simp only [step, here]
      split
      · exact ⟨_, rfl⟩
      · exact ⟨_, rfl⟩
  | running =>
      obtain ⟨inside, -⟩ := List.getElem?_eq_some_iff.mp here
      have selected := List.getElem?_eq_getElem (length ▸ inside)
      refine ⟨.finish k brokenRun, ?_⟩
      simp only [step, here, selected]
      exact ⟨_, if_neg (by simp [brokenRun])⟩
  | _ => exact absurd active Bool.false_ne_true

/-- While a future is not settled a worker can take a step. -/
theorem exists_step_of_unsettled
    (workers : 0 < settings.jobs)
    (length : s.futures.length = settings.cells.length)
    (unsettled : ¬ s.futures.all Future.settled = true) :
    ∃ a s', step settings s a = some s' := by
  by_cases free : s.futures.countP Future.active < settings.jobs
  · rw [List.all_eq_true] at unsettled
    push Not at unsettled
    obtain ⟨future, member, open_⟩ := unsettled
    obtain ⟨k, here⟩ := List.mem_iff_getElem?.mp member
    cases future with
    | queued =>
        refine ⟨.claim k, ?_⟩
        simp only [step, here]
        exact ⟨_, if_pos free⟩
    | claimed => exact exists_step_of_active length here rfl
    | running => exact exists_step_of_active length here rfl
    | cancelled => exact absurd rfl open_
    | finished result => exact absurd rfl open_
  · have some_active : 0 < s.futures.countP Future.active := by
      omega
    obtain ⟨future, member, active⟩ := List.countP_pos_iff.mp some_active
    obtain ⟨k, here⟩ := List.mem_iff_getElem?.mp member
    exact exists_step_of_active length here active

/-- As long as the main thread is not done some step can be taken. -/
theorem exists_step
    (workers : 0 < settings.jobs)
    (length : s.futures.length = settings.cells.length)
    (going : s.main ≠ .done) : ∃ a s', step settings s a = some s' := by
  by_cases settled : s.futures.all Future.settled = true
  · cases main : s.main with
    | waiting => exact ⟨.poolDone, _, if_pos ⟨main, settled⟩⟩
    | caught inShutdown =>
        refine ⟨.setInterrupted, ?_⟩
        simp only [step, main]
        exact ⟨_, rfl⟩
    | flagged inShutdown =>
        refine ⟨.setStop, ?_⟩
        simp only [step, main]
        exact ⟨_, rfl⟩
    | cancelling next =>
        refine ⟨.cancelNext, ?_⟩
        simp only [step, main]
        split
        · exact ⟨_, rfl⟩
        · exact ⟨_, rfl⟩
    | joining => exact ⟨.joined, _, if_pos ⟨main, settled⟩⟩
    | done => exact absurd main going
  · exact exists_step_of_unsettled workers length settled

end Progress

/-- Every run can be continued to its end. -/
theorem exists_end
    {settings : Settings} (workers : 0 < settings.jobs) {s : Pool}
    (consistent : Consistent settings s) :
    ∃ more last,
      schedule (step settings) s more = some last ∧ last.main = .done := by
  induction size : distance s using Nat.strong_induction_on
    generalizing s with
  | _ bound induction =>
  by_cases ends : s.main = .done
  · exact ⟨[], s, rfl, ends⟩
  · have length := consistent.length
    rw [results, List.length_map] at length
    obtain ⟨a, next, stepped⟩ := exists_step workers length ends
    have taken := taken_of_step stepped
    obtain ⟨more, last, ran, done⟩ :=
      induction (distance next) (size ▸ taken.distance_lt)
        (taken.effect.consistent consistent) rfl
    refine ⟨a :: more, last, ?_, done⟩
    rw [schedule, stepped, Option.bind_some, ran]

/-! ## The accounts -/

/-- The accounts of a finished run, and of the steps that it took. -/
structure Accounted
    (settings : Settings) (actions : List Action) (s : Pool) : Prop where
  /-- No worker adds a record behind the summary. -/
  final : ∀ a, step settings s a = none
  /-- Each selected cell is in one record or in the list, once. -/
  once :
    (s.records.map Record.cell ++ notRun settings s).Perm settings.cells
  total :
    countedCells s + (notRun settings s).length = settings.cells.length
  counts :
    ∀ outcome, s.counts outcome = s.records.countP (·.outcome = outcome)
  /-- The JUnit totals are those of its test cases and of the summary. -/
  junit :
    ∀ label, let suite :=
        writeJunit settings.str label s.records (notRun settings s)
      SuiteAdds suite ∧
        suite.tests = settings.cells.length ∧
        suite.failures = s.counts .fail + s.counts .invalid ∧
        suite.errors =
          s.counts .crash + s.counts .timeout + s.counts .error ∧
        suite.skipped = (notRun settings s).length ∧
        (suite.cases.map fun test => (test.classname, test.name)).Perm
          (settings.cells.map caseKey)
  /-- What the schedule has as the end of a cell's run is what is recorded. -/
  made : ∀ r ∈ s.records, ∃ run, Made settings actions r run
  passes :
    ∀ r ∈ s.records, r.outcome = .pass →
      ∃ run, Made settings actions r run ∧ Proves settings r.cell run
  exit :
    exitStatus settings s = 0 ↔
      (∀ cell ∈ settings.cells,
        ∃ r ∈ s.records, r.cell = cell ∧ r.outcome = .pass) ∧
        .interrupt ∉ actions

section Accounts

variable {settings : Settings} {s : Pool}
  (consistent : Consistent settings s) (distinct : settings.cells.Nodup)
include consistent distinct

theorem Consistent.length_partition :
    s.records.length + (notRun settings s).length = settings.cells.length := by
  have size := (consistent.partition distinct).length_eq
  rwa [List.length_append, List.length_map] at size

/-- All cells pass exactly when there are as many passes as cells. -/
theorem Consistent.all_pass_iff :
    s.counts .pass = settings.cells.length ↔
      ∀ cell ∈ settings.cells,
        ∃ r ∈ s.records, r.cell = cell ∧ r.outcome = .pass := by
  have size := consistent.length_partition distinct
  rw [consistent.counts]
  constructor
  · intro full cell selected
    have atMost := @List.countP_le_length _ (·.outcome = .pass) s.records
    have all : s.records.countP (·.outcome = .pass) = s.records.length := by
      omega
    have noneLeft : notRun settings s = [] := by
      apply List.eq_nil_of_length_eq_zero
      omega
    have ran := (consistent.partition distinct).mem_iff.mpr selected
    rw [noneLeft, List.append_nil] at ran
    obtain ⟨r, member, rfl⟩ := List.mem_map.mp ran
    have pass := List.countP_eq_length.mp all r member
    exact ⟨r, member, rfl, by simpa using pass⟩
  · intro every
    have noneLeft : notRun settings s = [] := by
      apply List.filter_eq_nil_iff.mpr
      intro cell selected
      obtain ⟨r, member, rfl, -⟩ := every cell selected
      simpa using ⟨r, member, rfl⟩
    have passes : ∀ r ∈ s.records, r.outcome = .pass := by
      intro r member
      have selected := consistent.cells_subset (List.mem_map_of_mem member)
      obtain ⟨other, inside, same, pass⟩ := every r.cell selected
      have equal : other = r :=
        List.inj_on_of_nodup_map (consistent.cells_nodup distinct) inside
          member same
      exact equal ▸ pass
    have all : s.records.countP (·.outcome = .pass) = s.records.length :=
      List.countP_eq_length.mpr fun r member => by simpa using passes r member
    rw [noneLeft, List.length_nil] at size
    omega

end Accounts

/-- A run that has come to its end accounts for every selected cell. -/
theorem accounted_of_schedule
    {settings : Settings} (distinct : settings.cells.Nodup)
    {actions : List Action} {s : Pool}
    (ran : schedule (step settings) (initial settings) actions = some s)
    (ends : s.main = .done) :
    Accounted settings actions s := by
  have consistent := consistent_of_schedule ran
  have size := consistent.length_partition distinct
  have counted : ∀ r ∈ s.records, r.outcome ≠ .notRun :=
    fun _ => consistent.counted
  have made : ∀ r ∈ s.records, ∃ run, Made settings actions r run :=
    fun _ member => (made_of_schedule ran member).resolve_left nofun
  have outcomes := countP_outcomes counted
  constructor
  · exact step_of_done settings ends (settled_of_schedule ran ends)
  · exact consistent.partition distinct
  · rw [countedCells]
    simp only [consistent.counts]
    rw [outcomes, size]
  · exact consistent.counts
  · intro label suite
    refine ⟨writeJunit_adds settings.str label counted _, size, ?_, ?_, rfl, ?_⟩
    · rw [consistent.counts, consistent.counts]
      exact countP_isFailure s.records
    · rw [consistent.counts, consistent.counts, consistent.counts]
      exact countP_isError s.records
    · apply (writeJunit_keys settings.str label s.records _).trans
      exact (consistent.partition distinct).map caseKey
  · exact made
  · intro r member pass
    obtain ⟨run, made⟩ := made r member
    have same := made.record
    rw [same] at pass
    exact ⟨run, made, proves_of_pass pass⟩
  · have remembered := interrupted_iff ran
    have unset : (initial settings).interrupted = false := rfl
    rw [unset] at remembered
    have same : .interrupt ∈ actions ↔ s.interrupted = true := by
      rw [remembered]
      simp
    rw [← consistent.all_pass_iff distinct, same, exitStatus, ok]
    by_cases full : s.counts .pass = settings.cells.length
    · cases s.interrupted <;> simp [full]
    · simp [full]

/--
In whatever order the workers start, finish or skip cells and the main thread
waits, cancels or is interrupted: a run takes a bounded number of steps, can
always be continued to its end, and there accounts for every selected cell.
-/
theorem validator_accounts_for_every_cell
    {settings : Settings} (distinct : settings.cells.Nodup)
    (workers : 0 < settings.jobs) {actions : List Action} {s : Pool}
    (ran : schedule (step settings) (initial settings) actions = some s) :
    actions.length ≤ distance (initial settings) ∧
      (∃ more last,
        schedule (step settings) s more = some last ∧ last.main = .done) ∧
      (s.main = .done → Accounted settings actions s) := by
  refine ⟨length_le_distance ran, ?_, ?_⟩
  · exact exists_end workers (consistent_of_schedule ran)
  · exact accounted_of_schedule distinct ran

/-- Three cells and two workers. -/
def threeCells : Settings where
  cells := [⟨1000, "normal"⟩, ⟨1000, "static"⟩, ⟨1001, "normal"⟩]
  jobs := 2
  failFast := false
  requireValid := false
  published := fun _ => "00"
  engine := "engine.so"
  repo := "repo"
  quote := id
  str := fun _ => ""

/-- The harness has left the result of a cell, with the published hash. -/
def namedRun (cell : Cell) : CellRun :=
  { brokenRun with
    escaped := none
    tapeOk := true
    harness := some 0
    files :=
      [some (.dict
        [("seed", .number cell.seed), ("scenario", .string cell.scenario),
          ("correctness", .dict [("computed_hash", .string "00")])])] }

/--
The first cell passes, the second cannot be set up, and an interrupt comes
while the second is running and the third is still queued.
-/
def interruptedActions : List Action :=
  [.claim 0, .claim 1, .enter 0, .enter 1,
    .finish 0 (namedRun ⟨1000, "normal"⟩), .interrupt, .setInterrupted,
    .setStop, .finish 1 brokenRun, .cancelNext, .cancelNext, .cancelNext,
    .cancelNext, .joined]

theorem validator_accounts_for_every_cell_interrupted :
    ∃ s,
      schedule (step threeCells) (initial threeCells) interruptedActions =
          some s ∧
        s.records.map (fun r => (r.cell, r.outcome)) =
          [(⟨1000, "normal"⟩, .pass), (⟨1000, "static"⟩, .error)] ∧
        notRun threeCells s = [⟨1001, "normal"⟩] ∧
        exitStatus threeCells s = 1 ∧
        Accounted threeCells interruptedActions s := by
  refine ⟨_, rfl, by decide +kernel, by decide +kernel, by decide +kernel, ?_⟩
  exact
    (@validator_accounts_for_every_cell threeCells (by decide) (by decide)
      interruptedActions _ rfl).2.2 rfl

end MatchingBench.Scripts.ValidateSeedsAccounting
