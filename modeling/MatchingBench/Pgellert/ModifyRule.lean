import MatchingBench.Pgellert.Lifecycles

/-!
# The consensus does not depend on the modify rule

The methodology handles every modify as cancel and re-insert, and names the
production rule: a modify that keeps the price and does not raise the open
quantity is applied in place.  On generated workloads no accepted modify is of
that kind, so the two rules give the same reports and the same books.
-/

set_option autoImplicit false

namespace MatchingBench.Pgellert.ModifyRule

open MatchingBench.Api
open MatchingBench.Correctness
open MatchingBench.Lib.Correspondence
open MatchingBench.Lib.Draws
open MatchingBench.Lib.OrderBook
open MatchingBench.Lib.PriceTime
open MatchingBench.Lib.Runs
open MatchingBench.Reference
open MatchingBench.Pgellert.Adapter
open MatchingBench.Pgellert.Lifecycles
open MatchingBench.Pgellert.Refinement
open MatchingBench.Workload.Arrivals
open MatchingBench.Workload.Generator (Numerics Request Uniform generate)
open MatchingBench.Workload.Lifetimes

section Matcher

variable [LinearOrder Int64] {allowed : Int64 → Prop}

/-! ## The production rule -/

/--
A modify under the production rule: one that keeps the price and does not
raise the open quantity is applied in place, and any other is cancel and
re-insert.
-/
def productionModify (book : LiveBook) (request : Modify) :
    LiveBook × List Report :=
  match book.lookup request.orderId with
  | some (side, order) =>
      if keeps : request.newPriceTicks = order.price ∧
          0 < request.newQuantity.toNat ∧
          request.newQuantity.toNat ≤ order.qty then
        (book.amend request.orderId request.newQuantity.toNat keeps.2.1,
          [ackReport meModifyAck request.sequenceNumber request.orderId
            (sideByte side) request.newPriceTicks request.newQuantity])
      else
        Reference.modify book request
  | none => Reference.modify book request

/-- Process one message under the production rule. -/
def productionStep (book : LiveBook) : Msg → LiveBook × List Report
  | .newOrder order => newOrder book order
  | .cancel request => cancel book request
  | .modify request => productionModify book request

/-- A message that is no modify of a resting order to at most its quantity. -/
def Raises (book : LiveBook) (m : Msg) : Prop :=
  ∀ request, m = .modify request → ∀ side order,
    book.lookup request.orderId = some (side, order) →
      order.qty < request.newQuantity.toNat

/-- The rules differ only where an open quantity is not raised. -/
theorem productionStep_eq
    {book : LiveBook} {m : Msg} (raises : Raises book m) :
    productionStep book m = Reference.step book m := by
  cases m with
  | newOrder o => rfl
  | cancel c => rfl
  | modify request =>
      rw [productionStep, Reference.step, productionModify]
      cases found : book.lookup request.orderId with
      | none => rfl
      | some entry =>
          have more := raises request rfl entry.1 entry.2 found
          exact dif_neg fun keeps => by omega

/-! ## The adapter's book -/

/-- The adapter's buckets queue the orders of a book at every price. -/
def HoldsBook (st : State) (book : LiveBook) : Prop :=
  ∀ side price,
    bucket st.book side (asU64 price) =
      (level price (book.ladder side)).map fun order =>
        FifoBookSpec.orderOf side (bookOrder order)

theorem holdsBook_of_simulates
    {st : State} {book : LiveBook} (simulates : Simulates allowed st book) :
    HoldsBook st book := by
  intro side price
  rcases simulates.ladders.holds side with ⟨ladder, alike, holds⟩
  have casts : Function.Injective asU64 :=
    Function.LeftInverse.injective asI64_asU64
  rw [bucket, holds.levels, ladder_eq_map alike, level, level,
    List.filter_map, List.map_map]
  congr 1
  apply List.filter_congr
  intro order _
  exact decide_eq_decide.mpr casts.eq_iff

/-! ## Both rules on a tape -/

/-- The same text and the same book under both rules after every message. -/
def RulesAgree (tape : List Msg) : Prop :=
  ∀ front back, tape = front ++ back →
    ∃ st reports, run Adapter.step State.init front = some (st, reports) ∧
      (buildCanonicalText (reports.map collect)).1 =
        (buildCanonicalText
          ((output productionStep Book.empty front).map collect)).1 ∧
      HoldsBook st (final productionStep Book.empty front)

/-- The adapter accepts a modify. -/
def Accepts (front : List Msg) (request : Modify) : Prop :=
  ∃ reply, replyTo front (.modify request) = some reply ∧
    ∃ r ∈ reply, r.type = meModifyAck

/--
The quantity of an accepted modify is above the order's original quantity and
above the quantity that is open when the modify arrives.
-/
def AcceptedRaise (tape : List Msg) : Prop :=
  ∀ front request back, tape = front ++ .modify request :: back →
    Accepts front request →
      ∃ st reports sh o,
        run Adapter.step State.init front = some (st, reports) ∧
          liveIn st.shadow request.orderId = some sh ∧
          sh.qty < request.newQuantity ∧
          .newOrder o ∈ front ∧ o.orderId = request.orderId ∧
          o.quantity < request.newQuantity

section Tape

variable {tape : List Msg} (arranged : Arranged tape)

include arranged

/-- Every modify of a resting order raises its open quantity. -/
theorem raises_of_arranged
    {front back : List Msg} {m : Msg} (split : tape = front ++ m :: back) :
    Raises (bookAfter front) m := by
  rintro request rfl side order found
  rcases accepted_modify arranged split found with
    ⟨_, o, _, increases, _, most⟩
  have more := increases.more
  omega

theorem admitted_raises :
    Admitted Reference.step Raises Book.empty tape :=
  admitted_iff.mpr fun _ _ _ split => raises_of_arranged arranged split

theorem rulesAgree_of_arranged
    (ticks : OrderCompatible (Ticks allowed))
    (priced : ∀ m ∈ tape, Priced allowed m) : RulesAgree tape := by
  rintro front back rfl
  have raises := (admitted_append.mp (admitted_raises arranged)).1
  have legal := legalRun_of_arranged arranged priced
  rcases run_simulates ticks (legal.of_prefix (List.prefix_append front back))
    with ⟨st, reports, ran, simulates, same⟩
  have sameReports :=
    raises.output_eq fun _ _ => Eq.symm ∘ productionStep_eq
  have sameBook :=
    raises.final_eq fun _ _ => Eq.symm ∘ productionStep_eq
  refine ⟨st, reports, ran, ?_, ?_⟩
  · rw [← sameReports]
    exact (sameCanonical_iff_text_eq _ _).mp same.1
  · rw [← sameBook]
    exact holdsBook_of_simulates simulates

theorem acceptedRaise_of_arranged
    (ticks : OrderCompatible (Ticks allowed))
    (priced : ∀ m ∈ tape, Priced allowed m) : AcceptedRaise tape := by
  rintro front request back split ⟨reply, replied, r, member, accepted⟩
  rcases exists_reply ticks arranged priced split with
    ⟨st, next, reports, out, ran, _, simulates, _⟩
  cases found : (bookAfter front).lookup request.orderId with
  | none =>
      rw [replyTo, ran, Option.bind_some, Adapter.step,
        simulates.modify_rejected found] at replied
      cases replied
      rw [List.mem_singleton.mp member] at accepted
      cases accepted
  | some entry =>
      rcases accepted_modify arranged split found with
        ⟨before, o, last, increases, _, most⟩
      have small := simulates.shadow.bounded _ _ _ found
      have more := increases.more
      refine ⟨st, reports, shadowOf entry, o, ran, ?_, ?_, ?_,
        increases.id.symm, ?_⟩
      · rw [simulates.shadow.shows, found]
        rfl
      · rw [UInt32.lt_iff_toNat_lt, shadowOf, UInt32.toNat_ofNat_of_lt' small]
        omega
      · rw [last]
        exact List.mem_append_right before List.mem_cons_self
      · rw [UInt32.lt_iff_toNat_lt]
        omega

end Tape

end Matcher

/-! ## Generated workloads -/

/--
The published consensus does not depend on the modify rule.  On every generated
workload the adapter has, after every message, the text and the book of the
production rule; prices are compared as its book compares them, which on prices
that are not negative is how signed integers compare.  An accepted modify
always raises both the original and the open quantity.
-/
theorem consensus_independent_of_modify_rule
    (num : Numerics) (request : Request) (stream : Nat → Uniform) :
    let tape := tapeOf ((generate num request).run stream)
    @RulesAgree castOrder tape ∧
      ((∀ m ∈ tape, Priced NonNegative m) → RulesAgree tape) ∧
      AcceptedRaise tape := by
  have arranged := arranged_generate num request stream
  have anyPrice (m : Msg) : Priced AnyPrice m := by
    cases m <;> trivial
  refine ⟨?_, ?_, ?_⟩
  · exact @rulesAgree_of_arranged castOrder AnyPrice _ arranged cast_ticks
      fun m _ => anyPrice m
  · exact rulesAgree_of_arranged arranged signed_ticks
  · exact @acceptedRaise_of_arranged castOrder AnyPrice _ arranged cast_ticks
      fun m _ => anyPrice m

/--
The rules are not the same: a same-price decrease keeps its place under the
production rule, and an order that came later trades first under the other.
-/
example :
    let msgs : List Msg :=
      [.newOrder { orderId := 1, sequenceNumber := 0, priceTicks := 100
                   quantity := 5, side := 1, ioc := 0 },
       .newOrder { orderId := 2, sequenceNumber := 1, priceTicks := 100
                   quantity := 5, side := 1, ioc := 0 },
       .modify { orderId := 1, sequenceNumber := 2, newPriceTicks := 100
                 newQuantity := 4, side := 1 },
       .newOrder { orderId := 3, sequenceNumber := 3, priceTicks := 100
                   quantity := 4, side := 0, ioc := 0 }]
    output productionStep Book.empty msgs ≠ reportsOf msgs := by
  decide

end MatchingBench.Pgellert.ModifyRule
