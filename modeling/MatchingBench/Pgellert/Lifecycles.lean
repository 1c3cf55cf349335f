import MatchingBench.Pgellert.Reconstruction
import MatchingBench.Workload.Lifetimes

/-!
# Which orders trade and which requests are rejected

On a generated workload the adapter's replies tell the fate of an order.  Its
own modify and cancel come before any other order can reach it, so they are
rejected when its own Trades filled it; the makers of all Trades are orders
that are never cancelled; and what is sent again is rejected.
-/

set_option autoImplicit false

namespace MatchingBench.Pgellert.Lifecycles

open MatchingBench.Api
open MatchingBench.Lib.Correspondence
open MatchingBench.Lib.Draws
open MatchingBench.Lib.Runs
open MatchingBench.Reference
open MatchingBench.Pgellert.Adapter
open MatchingBench.Pgellert.Reconstruction
open MatchingBench.Pgellert.Refinement
open MatchingBench.Workload.Arrivals
open MatchingBench.Workload.Generator (Numerics Request Uniform generate)
open MatchingBench.Workload.Lifetimes

/-! ## Replies -/

/-- What the adapter pushes for a message that comes after others. -/
def replyTo (front : List Msg) (m : Msg) : Option (List Report) :=
  (run Adapter.step State.init front).bind fun reached =>
    (Adapter.step reached.1 m).map Prod.snd

/-- The adapter rejects a cancel or a modify. -/
def Rejects (front : List Msg) (m : Msg) : Prop :=
  ∃ reply, replyTo front m = some reply ∧
    ∃ r ∈ reply, r.type = meCancelReject ∨ r.type = meModifyReject

/-- The Trades of a message fill a quantity completely. -/
def Fills (front : List Msg) (m : Msg) (quantity : UInt32) : Prop :=
  ∃ reply, replyTo front m = some reply ∧ traded reply = quantity.toNat

/-- A non-IOC order without a cancel. -/
structure Standing (tape : List Msg) (id : UInt64) : Prop where
  rests : ∃ o, .newOrder o ∈ tape ∧ o.orderId = id ∧ o.ioc = 0
  uncancelled : ∀ c, .cancel c ∈ tape → c.orderId ≠ id

/-- The fate of the orders of a tape. -/
structure Fates (tape : List Msg) : Prop where
  /-- Every message is answered. -/
  answered : ∀ front m back, tape = front ++ m :: back →
    ∃ reply, replyTo front m = some reply
  /-- A NEW is the first message of its order, so an order has only one. -/
  introduced : ∀ front o back, tape = front ++ .newOrder o :: back →
    ∀ m ∈ front, m.orderId ≠ o.orderId
  makers : ∀ front m back reply, tape = front ++ m :: back →
    replyTo front m = some reply → ∀ r ∈ reply, r.type = meTrade →
      Standing tape r.makerOrderId
  duplicateCancel : ∀ front c back, tape = front ++ .cancel c :: back →
    (∃ first, .cancel first ∈ front ∧ first.orderId = c.orderId) →
      replyTo front (.cancel c) =
        some [ackReport meCancelReject c.sequenceNumber c.orderId 0 0 0]
  staleModify : ∀ front r back, tape = front ++ .modify r :: back →
    (∃ c, .cancel c ∈ front ∧ c.orderId = r.orderId) →
      replyTo front (.modify r) =
        some [ackReport meModifyReject r.sequenceNumber r.orderId 0 0 0]
  firstModify : ∀ front r back, tape = front ++ .modify r :: back →
    (∀ first, .modify first ∈ front → first.orderId ≠ r.orderId) →
      ∃ before o between, front = before ++ .newOrder o :: between ∧
        o.orderId = r.orderId ∧
        (Rejects front (.modify r) ↔ Fills before (.newOrder o) o.quantity)
  firstCancel : ∀ front c back, tape = front ++ .cancel c :: back →
    (∀ first, .cancel first ∈ front → first.orderId ≠ c.orderId) →
      ∃ before o between, front = before ++ .newOrder o :: between ∧
        o.orderId = c.orderId ∧
        (Rejects front (.cancel c) ↔
          Fills before (.newOrder o) o.quantity ∨
            ∃ start r rest, front = start ++ .modify r :: rest ∧
              r.orderId = c.orderId ∧
              Fills start (.modify r) r.newQuantity)

section Matcher

variable [LinearOrder Int64] {allowed : Int64 → Prop} {tape : List Msg}
  (ticks : OrderCompatible (Ticks allowed)) (arranged : Arranged tape)
  (priced : ∀ m ∈ tape, Priced allowed m)

include ticks arranged priced

/-- A message is answered as the reference answers it. -/
theorem exists_reply
    {front back : List Msg} {m : Msg} (split : tape = front ++ m :: back) :
    ∃ st next reports reply,
      run Adapter.step State.init front = some (st, reports) ∧
        Adapter.step st m = some (next, reply) ∧
        Simulates allowed st (bookAfter front) ∧
        SameReports reply (Reference.step (bookAfter front) m).2 := by
  have legal := legalRun_of_arranged arranged priced
  have reached : front <+: tape := ⟨m :: back, split.symm⟩
  rcases run_simulates ticks (legal.of_prefix reached) with
    ⟨st, reports, ran, simulates, _⟩
  have admissible := legal_of_arranged arranged split (priced m (by
    rw [split]
    exact List.mem_append_right front List.mem_cons_self))
  rcases step_simulates ticks simulates admissible with
    ⟨next, reply, stepped, _, same⟩
  exact ⟨st, next, reports, reply, ran, stepped, simulates, same⟩

/-- The reply to a message shows what the reference reports. -/
theorem replyTo_same
    {front back : List Msg} {m : Msg} (split : tape = front ++ m :: back) :
    ∃ reply, replyTo front m = some reply ∧
      SameReports reply (Reference.step (bookAfter front) m).2 := by
  rcases exists_reply ticks arranged priced split with
    ⟨st, next, reports, reply, ran, stepped, _, same⟩
  refine ⟨reply, ?_, same⟩
  rw [replyTo, ran, Option.bind_some, stepped, Option.map_some]

theorem fills_iff
    {front back : List Msg} {m : Msg} (split : tape = front ++ m :: back)
    (quantity : UInt32) :
    Fills front m quantity ↔
      traded (Reference.step (bookAfter front) m).2 = quantity.toNat := by
  rcases replyTo_same ticks arranged priced split with ⟨reply, replied, same⟩
  have amount := traded_of_sameReports same (step_sequenceNumber m)
  rw [← amount]
  constructor
  · rintro ⟨other, again, filled⟩
    rw [replied] at again
    cases again
    exact filled
  · intro filled
    exact ⟨reply, replied, filled⟩

theorem rejects_iff
    {front back : List Msg} {m : Msg} (split : tape = front ++ m :: back) :
    Rejects front m ↔
      ∃ r ∈ (Reference.step (bookAfter front) m).2,
        r.type = meCancelReject ∨ r.type = meModifyReject := by
  rcases replyTo_same ticks arranged priced split with ⟨reply, replied, same⟩
  have carried {left right : List Report} (same : SameReports left right)
      (found : ∃ r ∈ left, r.type = meCancelReject ∨
        r.type = meModifyReject) :
      ∃ r ∈ right, r.type = meCancelReject ∨ r.type = meModifyReject := by
    rcases found with ⟨r, member, rejected⟩
    have known : r.type ≤ 5 := by
      rcases rejected with type | type
      · rw [type]
        decide
      · rw [type]
        decide
    rcases exists_printed same member known with ⟨r', inside, _, type, _⟩
    rw [← type] at rejected
    exact ⟨r', inside, rejected⟩
  constructor
  · rintro ⟨other, again, found⟩
    rw [replied] at again
    cases again
    exact carried same found
  · intro found
    exact ⟨reply, replied, carried same.symm found⟩

/-! ## Rejections -/

theorem rejects_cancel_iff
    {front back : List Msg} {c : Cancel}
    (split : tape = front ++ .cancel c :: back) :
    Rejects front (.cancel c) ↔
      (bookAfter front).lookup c.orderId = none := by
  rw [rejects_iff ticks arranged priced split, Reference.step,
    Reference.cancel]
  cases (bookAfter front).lookup c.orderId with
  | none =>
      constructor
      · intro
        rfl
      · intro
        exact ⟨_, List.mem_cons_self, Or.inl rfl⟩
  | some entry =>
      constructor
      · rintro ⟨r, member, rejected⟩
        rw [List.mem_singleton.mp member] at rejected
        rcases rejected with type | type <;> cases type
      · intro absent
        cases absent

theorem rejects_modify_iff
    {front back : List Msg} {r : Modify}
    (split : tape = front ++ .modify r :: back) :
    Rejects front (.modify r) ↔
      (bookAfter front).lookup r.orderId = none := by
  rw [rejects_iff ticks arranged priced split, Reference.step,
    Reference.modify]
  cases (bookAfter front).lookup r.orderId with
  | none =>
      constructor
      · intro
        rfl
      · intro
        exact ⟨_, List.mem_cons_self, Or.inr rfl⟩
  | some entry =>
      constructor
      · rintro ⟨report, member, rejected⟩
        rcases List.mem_append.mp member with inFills | inAck
        · rcases List.mem_map.mp inFills with ⟨fill, _, rfl⟩
          rcases rejected with type | type <;> cases type
        · rw [List.mem_singleton.mp inAck] at rejected
          rcases rejected with type | type <;> cases type
      · intro absent
        cases absent

theorem duplicate_cancel
    {front back : List Msg} {c : Cancel}
    (split : tape = front ++ .cancel c :: back) {first : Cancel}
    (member : .cancel first ∈ front) (own : first.orderId = c.orderId) :
    replyTo front (.cancel c) =
      some [ackReport meCancelReject c.sequenceNumber c.orderId 0 0 0] := by
  have absent := lookup_of_cancelled arranged split member
  rw [own] at absent
  rcases exists_reply ticks arranged priced split with
    ⟨st, next, reports, reply, ran, _, simulates, _⟩
  rw [replyTo, ran, Option.bind_some, Adapter.step,
    simulates.cancel_rejected absent]
  rfl

theorem stale_modify
    {front back : List Msg} {r : Modify}
    (split : tape = front ++ .modify r :: back) {c : Cancel}
    (member : .cancel c ∈ front) (own : c.orderId = r.orderId) :
    replyTo front (.modify r) =
      some [ackReport meModifyReject r.sequenceNumber r.orderId 0 0 0] := by
  have absent := lookup_of_cancelled arranged split member
  rw [own] at absent
  rcases exists_reply ticks arranged priced split with
    ⟨st, next, reports, reply, ran, _, simulates, _⟩
  rw [replyTo, ran, Option.bind_some, Adapter.step,
    simulates.modify_rejected absent]
  rfl

/-! ## Makers -/

theorem maker_standing
    {front back : List Msg} {m : Msg} (split : tape = front ++ m :: back)
    {reply : List Report} (replied : replyTo front m = some reply)
    {r : Report} (member : r ∈ reply) (trade : r.type = meTrade) :
    Standing tape r.makerOrderId := by
  rcases replyTo_same ticks arranged priced split with ⟨_, again, same⟩
  rw [replied] at again
  cases again
  have known : r.type ≤ 5 := by
    rw [trade]
    decide
  rcases exists_printed same member known with
    ⟨r', inside, _, type, printed⟩
  have trade' : r'.type = meTrade := type.trans trade
  rw [printed_trade trade, printed_trade trade', Option.some.injEq] at printed
  have maker : r'.makerOrderId = r.makerOrderId := by
    injection printed
  rcases maker_of_trade inside trade' with ⟨resting, other⟩
  rw [maker] at resting other
  rcases Option.isSome_iff_exists.mp resting with ⟨entry, found⟩
  have waits := awaits_of_arranged arranged split _ entry.1 entry.2 found
  rcases waits.sent with ⟨o, sent, own, rests, _⟩
  constructor
  · refine ⟨o, ?_, own, rests⟩
    rw [split]
    exact List.mem_append_left _ sent
  · intro c inTape
    rw [split] at inTape
    rcases List.mem_append.mp inTape with before | later
    · exact waits.open_ c before
    · rcases List.mem_cons.mp later with now | after
      · rw [← now] at other
        exact other.symm
      · rw [← own] at other ⊢
        exact arranged.settled front m back split _ sent other _ after

/-! ## The first modify and the first cancel -/

theorem first_modify
    {front back : List Msg} {r : Modify}
    (split : tape = front ++ .modify r :: back)
    (isFirst : ∀ first, .modify first ∈ front → first.orderId ≠ r.orderId) :
    ∃ before o between, front = before ++ .newOrder o :: between ∧
      o.orderId = r.orderId ∧
      (Rejects front (.modify r) ↔ Fills before (.newOrder o) o.quantity) := by
  cases arranged.arrives front _ back split with
  | @modify before o _ rests increases last =>
      refine ⟨before, o, [], last, increases.id.symm, ?_⟩
      rw [rejects_modify_iff ticks arranged priced split]
      subst last
      rw [List.append_assoc] at split
      rw [fills_iff ticks arranged priced split, increases.id]
      exact (leaves_new arranged split rests).gone
  | modifyAgain _ _ modified own _ _ => exact absurd own (isFirst _ modified)

omit [LinearOrder Int64] ticks arranged priced in
/-- A message of an order comes after its NEW. -/
theorem after_new
    {before between start rest : List Msg} {o : NewOrder} {m : Msg}
    (unseen : ∀ a ∈ before, a.orderId ≠ o.orderId)
    (other : m ≠ .newOrder o) (own : m.orderId = o.orderId)
    (split : before ++ .newOrder o :: between = start ++ m :: rest) :
    ∃ inner, start = before ++ .newOrder o :: inner ∧
      between = inner ++ m :: rest := by
  rcases List.append_eq_append_iff.mp split with
    ⟨inner, rfl, behind⟩ | ⟨inner, rfl, ahead⟩
  · cases inner with
    | nil =>
        cases behind
        exact absurd rfl other
    | cons head inner =>
        rw [List.cons_append, List.cons.injEq] at behind
        rcases behind with ⟨rfl, after⟩
        exact ⟨inner, rfl, after⟩
  · cases inner with
    | nil =>
        cases ahead
        exact absurd rfl other
    | cons head inner =>
        rw [List.cons_append, List.cons.injEq] at ahead
        rcases ahead with ⟨rfl, _⟩
        exact absurd own (unseen m
          (List.mem_append_right start List.mem_cons_self))

theorem first_cancel
    {front back : List Msg} {c : Cancel}
    (split : tape = front ++ .cancel c :: back)
    (isFirst : ∀ first, .cancel first ∈ front → first.orderId ≠ c.orderId) :
    ∃ before o between, front = before ++ .newOrder o :: between ∧
      o.orderId = c.orderId ∧
      (Rejects front (.cancel c) ↔
        Fills before (.newOrder o) o.quantity ∨
          ∃ start r rest, front = start ++ .modify r :: rest ∧
            r.orderId = c.orderId ∧
            Fills start (.modify r) r.newQuantity) := by
  rw [rejects_cancel_iff ticks arranged priced split]
  cases arranged.arrives front _ back split with
  | @cancel before o _ rests own last =>
      refine ⟨before, o, [], last, own.symm, ?_⟩
      subst last
      rw [List.append_assoc] at split
      have unseen := arranged.unseen split
      rw [own, (leaves_new arranged split rests).gone,
        ← fills_iff ticks arranged priced split]
      constructor
      · exact Or.inl
      · rintro (filled | ⟨start, r, rest, sent, named, _⟩)
        · exact filled
        · rcases @after_new _ _ _ _ _ (.modify r) unseen nofun named sent
            with ⟨inner, _, nothing⟩
          cases inner <;> cases nothing
  | @cancelModified before o r _ rests increases own last =>
      refine ⟨before, o, [.modify r], last, own.symm, ?_⟩
      subst last
      rw [List.append_assoc] at split
      have unseen := arranged.unseen split
      have later : tape =
          (before ++ [.newOrder o]) ++ .modify r :: .cancel c :: back := by
        rw [split, List.append_assoc]
        rfl
      rw [own, lookup_modified arranged split rests increases.id,
        ← fills_iff ticks arranged priced split,
        ← fills_iff ticks arranged priced later]
      constructor
      · rintro (filled | filled)
        · exact Or.inl filled
        · refine Or.inr ⟨before ++ [.newOrder o], r, [], ?_, increases.id,
            filled⟩
          rw [List.append_assoc]
          rfl
      · rintro (filled | ⟨start, r', rest, sent, named, filled⟩)
        · exact Or.inl filled
        · rcases @after_new _ _ _ _ _ (.modify r') unseen nofun named sent
            with ⟨inner, rfl, same⟩
          cases inner with
          | nil =>
              cases same
              exact Or.inr filled
          | cons head inner =>
              cases inner <;> cases same
  | cancelAgain member own => exact absurd own.symm (isFirst _ member)

/-- The fates of the orders of a tape whose messages arrive as lifecycles. -/
theorem fates_of_arranged : Fates tape where
  answered front m back split := by
    rcases replyTo_same ticks arranged priced split with ⟨reply, replied, _⟩
    exact ⟨reply, replied⟩
  introduced front o back split := arranged.unseen split
  makers front m back reply split replied r member trade :=
    maker_standing ticks arranged priced split replied member trade
  duplicateCancel front c back split := by
    rintro ⟨first, member, own⟩
    exact duplicate_cancel ticks arranged priced split member own
  staleModify front r back split := by
    rintro ⟨c, member, own⟩
    exact stale_modify ticks arranged priced split member own
  firstModify front r back split isFirst :=
    first_modify ticks arranged priced split isFirst
  firstCancel front c back split isFirst :=
    first_cancel ticks arranged priced split isFirst

end Matcher

/-! ## Generated workloads -/

/--
The fate of the orders of every generated workload, whatever its prices.  A
maker is a non-IOC order without a cancel; a repeated cancel and a modify after
the cancel are answered by one reject; a first modify is rejected exactly if the
order's NEW filled it; and a first cancel is rejected exactly if its NEW filled
it or its modify filled the new quantity.
-/
theorem generated_fates
    (num : Numerics) (request : Request) (stream : Nat → Uniform) :
    Fates (tapeOf ((generate num request).run stream)) := by
  apply @fates_of_arranged castOrder AnyPrice _ cast_ticks
  · exact arranged_generate num request stream
  · intro m _
    cases m <;> trivial

end MatchingBench.Pgellert.Lifecycles
