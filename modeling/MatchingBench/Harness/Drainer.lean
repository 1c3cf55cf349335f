import MatchingBench.Lib.Runs
import MatchingBench.Correctness

/-!
# The report path

The engine pushes reports into the default transport while `drainer_main` of
`harness.cpp` pops them on another thread.  The queue is a bounded FIFO for
one producer and one consumer.  A schedule interleaves the two parties in any
order; the producer clears the running flag once it has pushed everything.
-/

set_option autoImplicit false

namespace MatchingBench.Harness.Drainer

open MatchingBench.Api
open MatchingBench.Correctness
open MatchingBench.Lib.Runs

/-! ## The drainer's state -/

/-- `DRAIN_BATCH`. -/
def drainBatch : Nat := 256

/-- The part of `DrainState` the drainer writes. -/
structure DrainState where
  orderAcks : Nat
  trades : Nat
  cancelAcks : Nat
  modifyAcks : Nat
  cancelRejects : Nat
  modifyRejects : Nat
  collected : List CollectedReport
deriving DecidableEq, Repr

/-- The drainer before its first report. -/
def DrainState.start : DrainState where
  orderAcks := 0
  trades := 0
  cancelAcks := 0
  modifyAcks := 0
  cancelRejects := 0
  modifyRejects := 0
  collected := []

/-- One iteration of the `consume` lambda. -/
def DrainState.consume (s : DrainState) (r : Report) : DrainState :=
  let s := { s with collected := s.collected ++ [collect r] }
  if r.type = meOrderAck then
    { s with orderAcks := s.orderAcks + 1 }
  else if r.type = meTrade then
    { s with trades := s.trades + 1 }
  else if r.type = meCancelAck then
    { s with cancelAcks := s.cancelAcks + 1 }
  else if r.type = meModifyAck then
    { s with modifyAcks := s.modifyAcks + 1 }
  else if r.type = meCancelReject then
    { s with cancelRejects := s.cancelRejects + 1 }
  else if r.type = meModifyReject then
    { s with modifyRejects := s.modifyRejects + 1 }
  else
    s

/-- The two drain loops. -/
inductive Loop where
  /-- While the running flag is set. -/
  | polling
  /-- Until a drain returns nothing. -/
  | final
deriving DecidableEq, Repr

/-- Where the drainer stands. -/
inductive DrainerPc where
  /-- Before `running.load`. -/
  | load
  /-- Before a `drain` call. -/
  | drain (loop : Loop)
  /-- Inside `consume`, with the rest of the batch. -/
  | consume (loop : Loop) (batch : List Report)
  | returned
deriving DecidableEq, Repr

/-! ## The two parties and the queue -/

/-- The engine, the queue, the flag and the drainer. -/
structure System where
  /-- The reports the engine has yet to push. -/
  todo : List Report
  queue : List Report
  running : Bool
  pc : DrainerPc
  drain : DrainState
deriving DecidableEq, Repr

/-- What the scheduler runs next. -/
inductive Action where
  /-- One `push` call; the engine calls again when the queue is full. -/
  | push
  /-- `running.store(false)`, after `engine_flush` has returned. -/
  | stop
  /-- `running.load`. -/
  | load
  /-- One `drain` call that hands over `count` reports. -/
  | pop (count : Nat)
  /-- One iteration of `consume`, or its return. -/
  | consume
deriving DecidableEq, Repr

/-- The drainer's position once a batch is consumed. -/
def afterBatch : Loop → DrainerPc
  | .polling => .load
  | .final => .drain .final

/-- The drainer's position after a `drain` call that returned nothing. -/
def afterEmpty : Loop → DrainerPc
  | .polling => .load
  | .final => .returned

/-- A `drain` call may return `count` reports of a queue. -/
def PopCount (queue : List Report) (count : Nat) : Prop :=
  count ≤ queue.length ∧ count ≤ drainBatch ∧ (count = 0 → queue = [])

instance (queue : List Report) (count : Nat) :
    Decidable (PopCount queue count) :=
  inferInstanceAs (Decidable (_ ∧ _ ∧ _))

/-- One step of either party over a queue of the given capacity. -/
def step (capacity : Nat) (s : System) : Action → Option System
  | .push =>
      match s.todo with
      | [] => none
      | report :: todo =>
          if s.queue.length < capacity then
            some { s with todo := todo, queue := s.queue ++ [report] }
          else
            some s
  | .stop =>
      if s.todo = [] then some { s with running := false } else none
  | .load =>
      if s.pc = .load then
        some { s with pc := .drain (if s.running then .polling else .final) }
      else
        none
  | .pop count =>
      match s.pc with
      | .drain loop =>
          if PopCount s.queue count then
            some
              { s with
                queue := s.queue.drop count
                pc :=
                  if count = 0 then afterEmpty loop
                  else .consume loop (s.queue.take count) }
          else
            none
      | _ => none
  | .consume =>
      match s.pc with
      | .consume loop [] => some { s with pc := afterBatch loop }
      | .consume loop (report :: batch) =>
          some
            { s with
              pc := .consume loop batch
              drain := s.drain.consume report }
      | _ => none

/-- The start of a run in which the engine pushes the given reports. -/
def start (pushed : List Report) : System where
  todo := pushed
  queue := []
  running := true
  pc := .load
  drain := DrainState.start

/-! ## Tallies -/

/-- How many reports have the given type. -/
def tally (type : UInt8) (reports : List Report) : Nat :=
  reports.countP (·.type = type)

/-- The drainer has consumed exactly the given reports, in this order. -/
structure DrainState.Consumed
    (s : DrainState) (reports : List Report) : Prop where
  collected : s.collected = reports.map collect
  orderAcks : s.orderAcks = tally meOrderAck reports
  trades : s.trades = tally meTrade reports
  cancelAcks : s.cancelAcks = tally meCancelAck reports
  modifyAcks : s.modifyAcks = tally meModifyAck reports
  cancelRejects : s.cancelRejects = tally meCancelReject reports
  modifyRejects : s.modifyRejects = tally meModifyReject reports

theorem DrainState.consumed_start : DrainState.start.Consumed [] := by
  constructor <;> rfl

theorem tally_concat (type : UInt8) (reports : List Report) (r : Report) :
    tally type (reports ++ [r]) =
      tally type reports + if r.type = type then 1 else 0 := by
  simp [tally, List.countP_append, List.countP_singleton]

theorem DrainState.Consumed.consume
    {s : DrainState} {reports : List Report}
    (consumed : s.Consumed reports) (r : Report) :
    (s.consume r).Consumed (reports ++ [r]) := by
  obtain ⟨collected, acks, trades, cancels, modifies, cancelRejects,
    modifyRejects⟩ := consumed
  unfold DrainState.consume
  split_ifs <;>
    constructor <;>
    simp_all [tally_concat, meOrderAck, meTrade, meCancelAck, meModifyAck,
      meCancelReject, meModifyReject]

/-! ## The invariant -/

/-- The reports popped but not yet consumed. -/
def DrainerPc.batch : DrainerPc → List Report
  | .consume _ batch => batch
  | _ => []

/-- The drainer has seen the flag cleared. -/
def DrainerPc.sawStop : DrainerPc → Prop
  | .load => False
  | .drain loop => loop = .final
  | .consume loop _ => loop = .final
  | .returned => True

theorem DrainerPc.sawStop_of_returned
    {pc : DrainerPc} (returned : pc = .returned) : pc.sawStop := by
  subst returned
  trivial

/--
Nothing is lost, duplicated or reordered: the consumed reports, the rest of
the batch, the queue and the reports still to be pushed make up the pushed
sequence.  The flag is cleared only after the last push, and the drainer
returns only on an empty queue.
-/
structure Invariant (pushed : List Report) (s : System) : Prop where
  conserved : ∃ consumed,
    s.drain.Consumed consumed ∧
      consumed ++ s.pc.batch ++ s.queue ++ s.todo = pushed
  stopped : s.running = false → s.todo = []
  observed : s.pc.sawStop → s.running = false
  emptied : s.pc = .returned → s.queue = []

theorem invariant_start (pushed : List Report) :
    Invariant pushed (start pushed) where
  conserved := ⟨[], DrainState.consumed_start, rfl⟩
  stopped := by simp [start]
  observed := by simp [start, DrainerPc.sawStop]
  emptied := by simp [start]

/-- A push appends the next report or, on a full queue, changes nothing. -/
theorem invariant_push
    {pushed : List Report} {capacity : Nat} {s next : System}
    (invariant : Invariant pushed s)
    (stepped : step capacity s .push = some next) :
    Invariant pushed next := by
  obtain ⟨⟨consumed, drained, conserved⟩, stopped, observed, emptied⟩ :=
    invariant
  simp only [step] at stepped
  split at stepped
  · cases stepped
  · rename_i report todo remaining
    split at stepped
    · cases stepped
      have active : s.running = true := by
        by_contra inactive
        rw [stopped (Bool.eq_false_iff.mpr inactive)] at remaining
        cases remaining
      constructor
      · refine ⟨consumed, drained, ?_⟩
        rw [← conserved, remaining]
        simp
      · simp [active]
      · exact observed
      · intro returned
        have cleared := observed (DrainerPc.sawStop_of_returned returned)
        rw [active] at cleared
        cases cleared
    · cases stepped
      exact ⟨⟨consumed, drained, conserved⟩, stopped, observed, emptied⟩

/-- The flag is cleared with nothing left to push. -/
theorem invariant_stop
    {pushed : List Report} {capacity : Nat} {s next : System}
    (invariant : Invariant pushed s)
    (stepped : step capacity s .stop = some next) :
    Invariant pushed next := by
  simp only [step] at stepped
  split at stepped
  · rename_i done
    cases stepped
    exact ⟨invariant.conserved, fun _ => done, fun _ => rfl,
      invariant.emptied⟩
  · cases stepped

/-- The drainer enters the final loop only with the flag cleared. -/
theorem invariant_load
    {pushed : List Report} {capacity : Nat} {s next : System}
    (invariant : Invariant pushed s)
    (stepped : step capacity s .load = some next) :
    Invariant pushed next := by
  obtain ⟨conserved, stopped, observed, emptied⟩ := invariant
  simp only [step] at stepped
  split at stepped
  · rename_i atLoad
    cases stepped
    constructor
    · simpa [atLoad, DrainerPc.batch] using conserved
    · exact stopped
    · cases running : s.running <;> simp [DrainerPc.sawStop]
    · simp
  · cases stepped

/-- A drain moves the front of the queue into the batch. -/
theorem invariant_pop
    {pushed : List Report} {capacity count : Nat} {s next : System}
    (invariant : Invariant pushed s)
    (stepped : step capacity s (.pop count) = some next) :
    Invariant pushed next := by
  obtain ⟨⟨consumed, drained, conserved⟩, stopped, observed, emptied⟩ :=
    invariant
  simp only [step] at stepped
  split at stepped
  · rename_i loop atDrain
    split at stepped
    · rename_i allowed
      cases stepped
      rw [atDrain] at conserved observed
      simp only [DrainerPc.batch, List.append_nil] at conserved
      by_cases nothing : count = 0
      · have empty := allowed.2.2 nothing
        subst nothing
        constructor
        · refine ⟨consumed, drained, ?_⟩
          cases loop <;>
            simpa [afterEmpty, DrainerPc.batch] using conserved
        · exact stopped
        · cases loop with
          | polling => simp [afterEmpty, DrainerPc.sawStop]
          | final => exact fun _ => observed rfl
        · simp [empty]
      · constructor
        · refine ⟨consumed, drained, ?_⟩
          rw [← conserved, if_neg nothing, DrainerPc.batch,
            List.append_assoc consumed, List.take_append_drop]
        · exact stopped
        · simpa [nothing, DrainerPc.sawStop] using observed
        · simp [nothing]
    · cases stepped
  · cases stepped

/-- Consuming a report moves it from the batch to the collected vector. -/
theorem invariant_consume
    {pushed : List Report} {capacity : Nat} {s next : System}
    (invariant : Invariant pushed s)
    (stepped : step capacity s .consume = some next) :
    Invariant pushed next := by
  obtain ⟨⟨consumed, drained, conserved⟩, stopped, observed, emptied⟩ :=
    invariant
  simp only [step] at stepped
  split at stepped
  · rename_i loop atEnd
    cases stepped
    rw [atEnd] at conserved observed
    constructor
    · refine ⟨consumed, drained, ?_⟩
      cases loop <;> simpa [afterBatch, DrainerPc.batch] using conserved
    · exact stopped
    · cases loop with
      | polling => simp [afterBatch, DrainerPc.sawStop]
      | final => exact fun _ => observed rfl
    · cases loop <;> simp [afterBatch]
  · rename_i loop report batch inBatch
    cases stepped
    rw [inBatch] at conserved observed
    constructor
    · refine ⟨consumed ++ [report], drained.consume report, ?_⟩
      rw [← conserved]
      simp [DrainerPc.batch]
    · exact stopped
    · exact observed
    · simp
  · cases stepped

theorem invariant_step
    {pushed : List Report} {capacity : Nat} (s : System) (action : Action)
    (next : System) (invariant : Invariant pushed s)
    (stepped : step capacity s action = some next) :
    Invariant pushed next := by
  cases action with
  | push => exact invariant_push invariant stepped
  | stop => exact invariant_stop invariant stepped
  | load => exact invariant_load invariant stepped
  | pop count => exact invariant_pop invariant stepped
  | consume => exact invariant_consume invariant stepped

/-- At every moment the drainer has collected the first pushed reports. -/
theorem collected_isPrefix
    {capacity : Nat} {pushed : List Report} {actions : List Action}
    {reached : System}
    (ran : schedule (step capacity) (start pushed) actions = some reached) :
    reached.drain.collected <+: pushed.map collect := by
  obtain ⟨⟨consumed, drained, conserved⟩, _⟩ :=
    schedule_invariant invariant_step (invariant_start pushed) ran
  rw [drained.collected, ← conserved, List.append_assoc, List.append_assoc,
    List.map_append]
  exact List.prefix_append _ _

/--
Under every schedule, over a queue of any capacity, a drainer that has
returned has collected exactly the pushed reports in push order and has
counted them by type.
-/
theorem drainer_collects_pushed
    (capacity : Nat) (pushed : List Report) (actions : List Action)
    {last : System}
    (ran : schedule (step capacity) (start pushed) actions = some last)
    (returned : last.pc = .returned) :
    last.drain.collected = pushed.map collect ∧
      last.drain.orderAcks = tally meOrderAck pushed ∧
      last.drain.trades = tally meTrade pushed ∧
      last.drain.cancelAcks = tally meCancelAck pushed ∧
      last.drain.modifyAcks = tally meModifyAck pushed ∧
      last.drain.cancelRejects = tally meCancelReject pushed ∧
      last.drain.modifyRejects = tally meModifyReject pushed := by
  obtain ⟨⟨consumed, drained, conserved⟩, stopped, observed, emptied⟩ :=
    schedule_invariant invariant_step (invariant_start pushed) ran
  have finished :=
    stopped (observed (DrainerPc.sawStop_of_returned returned))
  have all : consumed = pushed := by
    rw [← conserved, returned, emptied returned, finished]
    simp [DrainerPc.batch]
  subst all
  exact ⟨drained.collected, drained.orderAcks, drained.trades,
    drained.cancelAcks, drained.modifyAcks, drained.cancelRejects,
    drained.modifyRejects⟩

/-- An acknowledgement and a trade through a queue of one report. -/
def twoReports : List Report :=
  [ackReport meOrderAck 1 7 0 100 5,
    { type := meTrade, side := 0, sequenceNumber := 1, orderId := 0
      priceTicks := 100, quantity := 5, makerOrderId := 3
      takerOrderId := 7 }]

/--
A schedule in which the producer spins on the full queue, the drainer once
polls an empty queue, and the second report is left to the final loop.
-/
def lateSchedule : List Action :=
  [.load, .pop 0, .push, .push, .load, .pop 1, .consume, .consume, .load,
    .push, .stop, .pop 1, .consume, .consume, .load, .pop 0]

theorem drainer_collects_pushed_late :
    ∃ last,
      schedule (step 1) (start twoReports) lateSchedule = some last ∧
        last.drain.collected = twoReports.map collect :=
  ⟨_, rfl,
    (drainer_collects_pushed 1 twoReports lateSchedule rfl rfl).1⟩

end MatchingBench.Harness.Drainer
