import MatchingBench.Harness.Drainer
import MatchingBench.Pgellert.Refinement

/-!
# The number of reports

One message can emit any number of trades, but every trade finishes a resting
order or its aggressor.  With the number of resting orders as potential each
message pays for its own reports, so a run stays within the reservation of the
drainer's report vector.
-/

set_option autoImplicit false

namespace MatchingBench.Pgellert.ReportCount

open MatchingBench.Api
open MatchingBench.Correctness
open MatchingBench.Lib.Maps
open MatchingBench.Lib.PriceTime
open MatchingBench.Lib.OrderBook
open MatchingBench.Lib.Runs
open MatchingBench.Reference
open MatchingBench.Harness.Drainer
open MatchingBench.Pgellert.FifoBook
open MatchingBench.Pgellert.Adapter
open MatchingBench.Pgellert.Refinement

/-! ## The collected vector -/

/-- `std::vector<CollectedReport>`: its elements and its capacity. -/
structure ReportVector where
  items : List CollectedReport
  capacity : Nat

/--
An empty vector after `reserve(count)`, which may allocate `slack` more than
asked for.
-/
def ReportVector.reserve (count slack : Nat) : ReportVector where
  items := []
  capacity := count + slack

/-- `push_back`: a full vector reallocates to the capacity `grow` yields. -/
def ReportVector.pushBack
    (grow : Nat → Nat) (v : ReportVector) (r : CollectedReport) :
    ReportVector where
  items := v.items ++ [r]
  capacity :=
    if v.items.length < v.capacity then v.capacity else grow v.capacity

/-- The vector the drainer starts from for a workload of `count` messages. -/
def collectedReserve (count slack : Nat) : ReportVector :=
  ReportVector.reserve (count * 2 + 1024) slack

/-- `report_buffer_ok`. -/
def reportBufferOk (collected : ReportVector) (collectedCap0 : Nat) : Bool :=
  collected.capacity == collectedCap0

/-- Reports that fit the spare capacity do not reallocate. -/
theorem foldl_pushBack
    (grow : Nat → Nat) (reports : List CollectedReport) (v : ReportVector)
    (fits : v.items.length + reports.length ≤ v.capacity) :
    reports.foldl (ReportVector.pushBack grow) v =
      { items := v.items ++ reports, capacity := v.capacity } := by
  induction reports generalizing v with
  | nil => simp
  | cons r reports induction =>
      rw [List.length_cons] at fits
      have room : v.items.length < v.capacity := by omega
      have pushed :
          v.pushBack grow r =
            { items := v.items ++ [r], capacity := v.capacity } := by
        rw [ReportVector.pushBack, if_pos room]
      rw [List.foldl_cons, pushed, induction]
      · rw [List.append_assoc, List.singleton_append]
      · simp only [List.length_append, List.length_singleton]
        omega

/-! ## Messages of a run -/

/-- One for a new order, nothing for another message. -/
def newCredit : Msg → Nat
  | .newOrder _ => 1
  | _ => 0

/-- The number of NEW messages. -/
def newCount (msgs : List Msg) : Nat :=
  (msgs.map newCredit).sum

/-- One for a MODIFY of a live order. -/
def modifyCredit (st : State) : Msg → Nat
  | .modify m => if (liveIn st.shadow m.orderId).isSome then 1 else 0
  | _ => 0

/-- The number of MODIFY messages the adapter accepts. -/
def acceptedModifies : State → List Msg → Nat
  | _, [] => 0
  | st, m :: rest =>
      modifyCredit st m +
        match Adapter.step st m with
        | some (next, _) => acceptedModifies next rest
        | none => 0

theorem newCount_cons (m : Msg) (msgs : List Msg) :
    newCount (m :: msgs) = newCredit m + newCount msgs := by
  simp [newCount]

/-- One for each message and one more for each new order. -/
theorem sum_credits (msgs : List Msg) :
    (msgs.map fun m => 1 + newCredit m).sum =
      msgs.length + newCount msgs := by
  induction msgs with
  | nil => rfl
  | cons m msgs induction =>
      rw [List.map_cons, List.sum_cons, induction, newCount_cons,
        List.length_cons]
      omega

theorem newCount_add_acceptedModifies_le (st : State) (msgs : List Msg) :
    newCount msgs + acceptedModifies st msgs ≤ msgs.length := by
  induction msgs generalizing st with
  | nil => simp [newCount, acceptedModifies]
  | cons m msgs induction =>
      have one : newCredit m + modifyCredit st m ≤ 1 := by
        cases m with
        | newOrder o => simp [newCredit, modifyCredit]
        | cancel c => simp [newCredit, modifyCredit]
        | modify m =>
            simp only [newCredit, modifyCredit]
            split <;> omega
      rw [newCount_cons, acceptedModifies, List.length_cons]
      split
      · rename_i next _ _
        have later := induction next
        omega
      · have later := induction st
        omega

/-! ## The bound -/

section Matcher

variable [LinearOrder Int64]

/--
The reports of a message are paid for by one, one more for a new order, and
the resting orders it finishes.
-/
theorem step_reports_length (book : LiveBook) (m : Msg) :
    (Reference.step book m).2.length + (Reference.step book m).1.size ≤
      book.size + (1 + newCredit m) := by
  cases m with
  | newOrder o =>
      simp only [Reference.step, Reference.newOrder, newCredit]
      split
      · rename_i fresh
        obtain ⟨most, dropped⟩ := @Book.size_submit UInt64 Int64 _ _ book
          (sideOf o.side) (submittedOrder o) (o.ioc = 0) fresh
        simp only [List.length_append, List.length_cons, List.length_map]
        split
        · rename_i residue
          have finished := dropped (decide_eq_false residue.1) residue.2
          simp only [List.length_singleton]
          omega
        · simp only [List.length_nil]
          omega
      · simp
  | cancel c =>
      simp only [Reference.step, Reference.cancel, newCredit]
      split
      · rename_i found
        have smaller := Book.size_withdraw_lt found
        simp only [List.length_singleton]
        omega
      · simp only [List.length_singleton]
        omega
  | modify m =>
      simp only [Reference.step, Reference.modify, newCredit]
      split
      · rename_i side _ found
        have smaller := Book.size_withdraw_lt found
        obtain ⟨most, _⟩ := @Book.size_submit UInt64 Int64 _ _
          (book.withdraw m.orderId) side (modifiedOrder m) true
          (book.lookup_withdraw_self m.orderId)
        simp only [List.length_append, List.length_map,
          List.length_singleton]
        omega
      · simp only [List.length_singleton]
        omega

theorem reportsOf_length_le (msgs : List Msg) :
    (reportsOf msgs).length ≤ msgs.length + newCount msgs := by
  have paid := output_length_le step_reports_length Book.empty msgs
  have nothing : (Book.empty : LiveBook).size = 0 := rfl
  rw [sum_credits, nothing] at paid
  rw [reportsOf]
  omega

end Matcher

/-- A run of the adapter pushes at most its messages and its new orders. -/
theorem run_reports_length
    {msgs : List Msg} (legal : LegalFrom State.init msgs) :
    ∃ st reports, run Adapter.step State.init msgs = some (st, reports) ∧
      reports.length ≤ msgs.length + newCount msgs := by
  have admitted := @admitted_of_legalFrom castOrder cast_ticks _ _
    (@simulates_init castOrder AnyPrice) msgs legal
  obtain ⟨st, reports, ran, _, same⟩ :=
    @run_simulates castOrder AnyPrice cast_ticks msgs admitted
  refine ⟨st, reports, ran, ?_⟩
  rw [same.2]
  exact @reportsOf_length_le castOrder msgs

/--
A legal run never outgrows the drainer's reservation.  It pushes at most its
messages, its new orders and its accepted modifies, so at most two reports a
message; and whatever the drainer has collected of them, under every schedule,
leaves its vector at the reserved capacity.
-/
theorem report_buffer_suffices
    (msgs : List Msg) (legal : LegalFrom State.init msgs) :
    ∃ st reports, run Adapter.step State.init msgs = some (st, reports) ∧
      reports.length ≤
        msgs.length + newCount msgs + acceptedModifies State.init msgs ∧
      reports.length ≤ 2 * msgs.length ∧
      ∀ (grow : Nat → Nat) (slack queueCapacity : Nat)
        (actions : List Action) (reached : System),
        schedule (Harness.Drainer.step queueCapacity) (start reports) actions =
            some reached →
          let reserved := collectedReserve msgs.length slack
          let collected :=
            reached.drain.collected.foldl (ReportVector.pushBack grow)
              reserved
          collected.items = reached.drain.collected ∧
            reportBufferOk collected reserved.capacity = true := by
  obtain ⟨st, reports, ran, bound⟩ := run_reports_length legal
  have credits := newCount_add_acceptedModifies_le State.init msgs
  have twice : reports.length ≤ 2 * msgs.length := by omega
  refine ⟨st, reports, ran, by omega, twice, ?_⟩
  intro grow slack queueCapacity actions reached scheduled
  have drained := (collected_isPrefix scheduled).length_le
  rw [List.length_map] at drained
  have fits :
      (collectedReserve msgs.length slack).items.length +
          reached.drain.collected.length ≤
        (collectedReserve msgs.length slack).capacity := by
    simp only [collectedReserve, ReportVector.reserve, List.length_nil]
    omega
  dsimp only
  rw [foldl_pushBack grow _ _ fits]
  exact ⟨List.nil_append _, beq_self_eq_true _⟩

theorem report_buffer_suffices_mixedRun :
    ∃ st reports,
      run Adapter.step State.init mixedRun = some (st, reports) ∧
        reports.length ≤ 18 := by
  obtain ⟨st, reports, ran, _, twice, _⟩ :=
    report_buffer_suffices mixedRun
      (legalFrom_of_legalRun (by decide))
  exact ⟨st, reports, ran, twice⟩

end MatchingBench.Pgellert.ReportCount
