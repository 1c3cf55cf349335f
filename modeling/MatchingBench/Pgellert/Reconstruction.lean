import MatchingBench.Pgellert.Refinement

/-!
# The text determines the book

Two runs with the same canonical text read off the same sequence of books,
although the text leaves out inputs and report fields.  Every message answers
under its own sequence number, so the text splits into the messages' answers,
and an answer shows as much of its message as the next book depends on.
-/

set_option autoImplicit false

namespace MatchingBench.Pgellert.Reconstruction

open MatchingBench.Api
open MatchingBench.Correctness
open MatchingBench.Lib.PriceTime
open MatchingBench.Lib.OrderBook
open MatchingBench.Lib.Runs
open MatchingBench.Reference
open MatchingBench.Pgellert.FifoBook
open MatchingBench.Pgellert.FifoBookSpec
open MatchingBench.Pgellert.Adapter
open MatchingBench.Pgellert.Refinement

/-! ## Lines of one type -/

/-- The lines of a report list under a sequence number and type. -/
def linesAt (seq : UInt64) (type : UInt8) (reports : List Report) :
    List (Option CanonicalLine) :=
  (reportClass seq type (reports.map collect)).map CollectedReport.printed

/-- The lines of a type. -/
def linesOf (type : UInt8) (reports : List Report) :
    List (Option CanonicalLine) :=
  (reports.filter (·.type = type)).map fun r => (collect r).printed

theorem linesAt_append
    (seq : UInt64) (type : UInt8) (front back : List Report) :
    linesAt seq type (front ++ back) =
      linesAt seq type front ++ linesAt seq type back := by
  simp [linesAt, reportClass]

/-- Reports under one sequence number are told apart by their types. -/
theorem linesAt_eq_linesOf
    {seq : UInt64} {type : UInt8} {reports : List Report}
    (own : ∀ r ∈ reports, r.sequenceNumber = seq) :
    linesAt seq type reports = linesOf type reports := by
  simp only [linesAt, linesOf, reportClass, List.filter_map, List.map_map]
  refine congrArg₂ List.map rfl (List.filter_congr fun r member => ?_)
  simp [collect, own r member]

/-- Reports under other sequence numbers show no lines. -/
theorem linesAt_eq_nil
    {seq : UInt64} {type : UInt8} {reports : List Report}
    (other : ∀ r ∈ reports, r.sequenceNumber ≠ seq) :
    linesAt seq type reports = [] := by
  simp only [linesAt, reportClass, List.map_eq_nil_iff, List.filter_map,
    List.filter_eq_nil_iff]
  intro r member
  simp [collect, other r member]

theorem mem_linesAt
    {reports : List Report} {r : Report} (member : r ∈ reports) :
    linesAt r.sequenceNumber r.type reports ≠ [] := by
  simp only [linesAt, reportClass, ne_eq, List.map_eq_nil_iff,
    List.filter_map, List.filter_eq_nil_iff, not_forall]
  exact ⟨r, member, by simp [collect]⟩

@[simp]
theorem linesOf_nil (type : UInt8) : linesOf type [] = [] :=
  rfl

@[simp]
theorem linesOf_append (type : UInt8) (front back : List Report) :
    linesOf type (front ++ back) = linesOf type front ++ linesOf type back := by
  simp [linesOf]

@[simp]
theorem linesOf_cons (type : UInt8) (r : Report) (reports : List Report) :
    linesOf type (r :: reports) =
      (if r.type = type then [(collect r).printed] else []) ++
        linesOf type reports := by
  by_cases same : r.type = type <;> simp [linesOf, same]

/-- Trades show no lines of another type. -/
theorem linesOf_trades
    {type : UInt8} (other : meTrade ≠ type) (seq taker : UInt64)
    (fills : List (Fill UInt64 Int64)) :
    linesOf type (fills.map (tradeReport seq taker)) = [] := by
  simp only [linesOf, List.map_eq_nil_iff, List.filter_map,
    List.filter_eq_nil_iff]
  intro fill _
  simp [tradeReport, other]

/-! ## Acknowledgements -/

section Acknowledgements

variable (seq orderId : UInt64) (side : UInt8) (price : Int64) (qty : UInt32)

@[simp]
theorem printed_orderAck :
    (collect (ackReport meOrderAck seq orderId side price qty)).printed =
      some (.orderAck seq side orderId price qty) :=
  rfl

@[simp]
theorem printed_cancelAck :
    (collect (ackReport meCancelAck seq orderId side price qty)).printed =
      some (.cancelAck seq side orderId price) :=
  rfl

@[simp]
theorem printed_modifyAck :
    (collect (ackReport meModifyAck seq orderId side price qty)).printed =
      some (.modifyAck seq side orderId price qty) :=
  rfl

@[simp]
theorem type_ackReport (type : UInt8) :
    (ackReport type seq orderId side price qty).type = type :=
  rfl

end Acknowledgements

/-! ## Increasing sequence numbers -/

/-- The sequence numbers increase strictly. -/
def Increasing (msgs : List Msg) : Prop :=
  msgs.Pairwise fun a b => a.sequenceNumber < b.sequenceNumber

/-- The messages up to a sequence number. -/
def upTo (seq : UInt64) (msgs : List Msg) : List Msg :=
  msgs.filter (·.sequenceNumber ≤ seq)

theorem upTo_cons_of_le
    {seq : UInt64} {m : Msg} (reached : m.sequenceNumber ≤ seq)
    (msgs : List Msg) :
    upTo seq (m :: msgs) = m :: upTo seq msgs := by
  simp [upTo, reached]

/-- Nothing is reached before the first message. -/
theorem upTo_cons_of_not_le
    {seq : UInt64} {m : Msg} {msgs : List Msg}
    (increasing : Increasing (m :: msgs))
    (beyond : ¬m.sequenceNumber ≤ seq) :
    upTo seq (m :: msgs) = [] := by
  rw [upTo, List.filter_eq_nil_iff]
  intro n member reached
  have order : m.sequenceNumber ≤ n.sequenceNumber := by
    rcases List.mem_cons.mp member with rfl | member
    · exact UInt64.le_refl _
    · exact UInt64.le_of_lt
        ((List.pairwise_cons.mp increasing).1 n member)
  exact beyond (UInt64.le_trans order (of_decide_eq_true reached))

/-- The messages up to a sequence number come first. -/
theorem upTo_isPrefix
    (seq : UInt64) {msgs : List Msg} (increasing : Increasing msgs) :
    upTo seq msgs <+: msgs := by
  induction msgs with
  | nil => exact List.prefix_rfl
  | cons m msgs induction =>
      by_cases reached : m.sequenceNumber ≤ seq
      · rw [upTo_cons_of_le reached, List.cons_prefix_cons]
        exact ⟨rfl, induction (List.Pairwise.of_cons increasing)⟩
      · rw [upTo_cons_of_not_le increasing reached]
        exact List.nil_prefix

/-! ## One message -/

section Matcher

variable [LinearOrder Int64] {allowed : Int64 → Prop} {book : LiveBook}

/-- A message answers under its own sequence number. -/
theorem step_sequenceNumber (m : Msg) :
    ∀ r ∈ (Reference.step book m).2,
      r.sequenceNumber = m.sequenceNumber := by
  intro r member
  cases m with
  | newOrder o =>
      simp only [Reference.step, Reference.newOrder] at member
      split at member
      · simp only [List.cons_append, List.mem_cons, List.mem_append,
          List.mem_map] at member
        rcases member with rfl | ⟨fill, _, rfl⟩ | residue
        · rfl
        · rfl
        · split at residue
          · rw [List.mem_singleton.mp residue]
            rfl
          · cases residue
      · cases member
  | cancel c =>
      simp only [Reference.step, Reference.cancel] at member
      split at member <;>
        rw [List.mem_singleton.mp member] <;>
        rfl
  | modify m =>
      simp only [Reference.step, Reference.modify] at member
      split at member
      · simp only [List.mem_append, List.mem_map, List.mem_singleton]
          at member
        rcases member with ⟨fill, _, rfl⟩ | rfl <;> rfl
      · rw [List.mem_singleton.mp member]
        rfl

/-- A legal message is answered. -/
theorem step_answers {m : Msg} (legal : Legal allowed book m) :
    ∃ r ∈ (Reference.step book m).2, r.type ≤ 5 := by
  cases m with
  | newOrder o =>
      simp only [Reference.step, Reference.newOrder, dif_pos legal.1]
      exact ⟨_, List.mem_cons_self, (by decide : meOrderAck ≤ 5)⟩
  | cancel c =>
      simp only [Reference.step, Reference.cancel]
      split
      · exact ⟨_, List.mem_cons_self, (by decide : meCancelAck ≤ 5)⟩
      · exact ⟨_, List.mem_cons_self, (by decide : meCancelReject ≤ 5)⟩
  | modify m =>
      simp only [Reference.step, Reference.modify]
      split
      · exact ⟨_, List.mem_append_right _ List.mem_cons_self,
          (by decide : meModifyAck ≤ 5)⟩
      · exact ⟨_, List.mem_cons_self, (by decide : meModifyReject ≤ 5)⟩

/-- The same lines of every type. -/
def SameAnswer (left right : List Report) : Prop :=
  ∀ type : UInt8, type ≤ 5 → linesOf type left = linesOf type right

/-- A new order shows everything but its IOC flag. -/
theorem linesOf_newOrder_orderAck
    {o : NewOrder} (fresh : book.lookup o.orderId = none) :
    linesOf meOrderAck (Reference.newOrder book o).2 =
      [some (.orderAck o.sequenceNumber o.side o.orderId o.priceTicks
        o.quantity)] := by
  have residue (c : Prop) [Decidable c] :
      linesOf meOrderAck
          (if c then
            [ackReport meCancelAck o.sequenceNumber o.orderId o.side
              o.priceTicks (UInt32.ofNat (book.submit (sideOf o.side)
                (submittedOrder o) (o.ioc = 0) fresh).left)]
          else []) = [] := by
    split <;> rfl
  simp only [Reference.newOrder, dif_pos fresh, linesOf_append, linesOf_cons,
    linesOf_trades (by decide : meTrade ≠ meOrderAck), residue,
    type_ackReport, if_true, printed_orderAck, List.append_nil]

/-- A new order shows whether a remainder of it was dropped. -/
theorem linesOf_newOrder_cancelAck
    {o : NewOrder} (fresh : book.lookup o.orderId = none) :
    linesOf meCancelAck (Reference.newOrder book o).2 =
      if o.ioc ≠ 0 ∧ (book.submit (sideOf o.side) (submittedOrder o) true
          fresh).left ≠ 0 then
        [some (.cancelAck o.sequenceNumber o.side o.orderId o.priceTicks)]
      else
        [] := by
  have sameLeft :
      (book.submit (sideOf o.side) (submittedOrder o) (o.ioc = 0)
        fresh).left =
      (book.submit (sideOf o.side) (submittedOrder o) true fresh).left :=
    rfl
  simp only [Reference.newOrder, dif_pos fresh, linesOf_append, linesOf_cons,
    linesOf_trades (by decide : meTrade ≠ meCancelAck), type_ackReport,
    sameLeft, (by decide : meOrderAck ≠ meCancelAck), if_false,
    List.nil_append]
  split <;> rfl

/-- Two new orders with the same answer lead to the same book. -/
theorem newOrder_determined
    {o p : NewOrder} (freshLeft : book.lookup o.orderId = none)
    (freshRight : book.lookup p.orderId = none)
    (same :
      SameAnswer (Reference.newOrder book o).2
        (Reference.newOrder book p).2) :
    (Reference.newOrder book o).1 = (Reference.newOrder book p).1 := by
  have acks := same meOrderAck (by decide)
  have dropped := same meCancelAck (by decide)
  rw [linesOf_newOrder_orderAck freshLeft,
    linesOf_newOrder_orderAck freshRight] at acks
  rw [linesOf_newOrder_cancelAck freshLeft,
    linesOf_newOrder_cancelAck freshRight] at dropped
  obtain ⟨id, seq, price, quantity, side, ioc⟩ := o
  obtain ⟨id', seq', price', quantity', side', ioc'⟩ := p
  simp only [List.cons.injEq, Option.some.injEq,
    CanonicalLine.orderAck.injEq, and_true] at acks
  obtain ⟨rfl, rfl, rfl, rfl, rfl⟩ := acks
  simp only [Reference.newOrder, dif_pos freshLeft]
  refine Book.submit_congr_rests fun unfilled => decide_eq_decide.mpr ?_
  have remains :
      (book.submit (sideOf side)
        (submittedOrder ⟨id, seq, price, quantity, side, ioc⟩) true
        freshLeft).left ≠ 0 := unfilled
  have remains' :
      (book.submit (sideOf side)
        (submittedOrder ⟨id, seq, price, quantity, side, ioc'⟩) true
        freshLeft).left ≠ 0 := unfilled
  by_cases immediate : ioc = 0 <;> by_cases immediate' : ioc' = 0 <;>
    simp_all

/-- Two cancels with the same answer lead to the same book. -/
theorem cancel_determined
    {c d : Cancel}
    (same :
      SameAnswer (Reference.cancel book c).2 (Reference.cancel book d).2) :
    (Reference.cancel book c).1 = (Reference.cancel book d).1 := by
  have acks := same meCancelAck (by decide)
  simp only [Reference.cancel] at acks ⊢
  cases left : book.lookup c.orderId with
  | none =>
      cases right : book.lookup d.orderId with
      | none => rfl
      | some entry =>
          rw [left, right] at acks
          simp [(by decide : meCancelReject ≠ meCancelAck)] at acks
  | some entry =>
      cases right : book.lookup d.orderId with
      | none =>
          rw [left, right] at acks
          simp [(by decide : meCancelReject ≠ meCancelAck)] at acks
      | some other =>
          rw [left, right] at acks
          simp only [linesOf_cons, type_ackReport, if_true,
            printed_cancelAck, linesOf_nil, List.append_nil,
            List.cons.injEq, Option.some.injEq,
            CanonicalLine.cancelAck.injEq] at acks
          simp only [acks.1.2.2.1]

/-- Two modifies with the same answer lead to the same book. -/
theorem modify_determined
    {m n : Modify}
    (same :
      SameAnswer (Reference.modify book m).2 (Reference.modify book n).2) :
    (Reference.modify book m).1 = (Reference.modify book n).1 := by
  have acks := same meModifyAck (by decide)
  have trades := linesOf_trades (by decide : meTrade ≠ meModifyAck)
  simp only [Reference.modify] at acks ⊢
  cases left : book.lookup m.orderId with
  | none =>
      cases right : book.lookup n.orderId with
      | none => rfl
      | some entry =>
          rw [left, right] at acks
          simp [(by decide : meModifyReject ≠ meModifyAck)] at acks
  | some entry =>
      cases right : book.lookup n.orderId with
      | none =>
          rw [left, right] at acks
          simp [(by decide : meModifyReject ≠ meModifyAck)] at acks
      | some other =>
          rw [left, right] at acks
          simp only [linesOf_append, trades, linesOf_cons, type_ackReport,
            if_true, printed_modifyAck, linesOf_nil, List.append_nil,
            List.nil_append, List.cons.injEq, Option.some.injEq,
            CanonicalLine.modifyAck.injEq, and_true] at acks
          obtain ⟨id, seq, price, quantity, side⟩ := m
          obtain ⟨id', seq', price', quantity', side'⟩ := n
          obtain ⟨rfl, _, rfl, rfl, rfl⟩ := acks
          have entries : entry = other :=
            Option.some.inj (left.symm.trans right)
          rw [entries]
          rfl

/-- Only new orders are acknowledged as such. -/
theorem linesOf_orderAck_eq_nil_iff {m : Msg} (legal : Legal allowed book m) :
    linesOf meOrderAck (Reference.step book m).2 = [] ↔ m.type ≠ 0 := by
  have trades := linesOf_trades (by decide : meTrade ≠ meOrderAck)
  cases m with
  | newOrder o =>
      simp only [Reference.step, linesOf_newOrder_orderAck legal.1, Msg.type]
      simp
  | cancel c =>
      simp only [Reference.step, Reference.cancel, Msg.type]
      split <;>
        simp [(by decide : meCancelAck ≠ meOrderAck),
          (by decide : meCancelReject ≠ meOrderAck)]
  | modify m =>
      simp only [Reference.step, Reference.modify, Msg.type]
      split <;>
        simp [trades, (by decide : meModifyAck ≠ meOrderAck),
          (by decide : meModifyReject ≠ meOrderAck)]

/-- Only modifies are answered by a ModifyAck or a ModifyReject. -/
theorem linesOf_modify_eq_nil_iff {m : Msg} (legal : Legal allowed book m) :
    linesOf meModifyAck (Reference.step book m).2 = [] ∧
        linesOf meModifyReject (Reference.step book m).2 = [] ↔
      m.type ≠ 2 := by
  have acks := linesOf_trades (by decide : meTrade ≠ meModifyAck)
  have rejects := linesOf_trades (by decide : meTrade ≠ meModifyReject)
  cases m with
  | newOrder o =>
      simp only [Reference.step, Reference.newOrder, dif_pos legal.1,
        Msg.type]
      split <;>
        simp [acks, rejects, (by decide : meOrderAck ≠ meModifyAck),
          (by decide : meOrderAck ≠ meModifyReject),
          (by decide : meCancelAck ≠ meModifyAck),
          (by decide : meCancelAck ≠ meModifyReject)]
  | cancel c =>
      simp only [Reference.step, Reference.cancel, Msg.type]
      split <;>
        simp [(by decide : meCancelAck ≠ meModifyAck),
          (by decide : meCancelAck ≠ meModifyReject),
          (by decide : meCancelReject ≠ meModifyAck),
          (by decide : meCancelReject ≠ meModifyReject)]
  | modify m =>
      simp only [Reference.step, Reference.modify, Msg.type]
      split <;> simp

/-- Messages with the same answer are of the same kind. -/
theorem type_of_sameAnswer
    {m n : Msg} (legalLeft : Legal allowed book m)
    (legalRight : Legal allowed book n)
    (same : SameAnswer (Reference.step book m).2 (Reference.step book n).2) :
    m.type = n.type := by
  have orders :=
    (linesOf_orderAck_eq_nil_iff legalLeft).symm.trans
      (same meOrderAck (by decide) ▸ linesOf_orderAck_eq_nil_iff legalRight)
  have modifies :=
    (linesOf_modify_eq_nil_iff legalLeft).symm.trans
      (same meModifyAck (by decide) ▸ same meModifyReject (by decide) ▸
        linesOf_modify_eq_nil_iff legalRight)
  cases m <;> cases n <;> simp_all [Msg.type]

/-- Two legal messages with the same answer lead to the same book. -/
theorem step_determined
    {m n : Msg} (legalLeft : Legal allowed book m)
    (legalRight : Legal allowed book n)
    (same : SameAnswer (Reference.step book m).2 (Reference.step book n).2) :
    (Reference.step book m).1 = (Reference.step book n).1 := by
  have kinds := type_of_sameAnswer legalLeft legalRight same
  cases m with
  | newOrder o =>
      cases n with
      | newOrder p =>
          exact newOrder_determined legalLeft.1 legalRight.1 same
      | cancel d => simp [Msg.type] at kinds
      | modify n => simp [Msg.type] at kinds
  | cancel c =>
      cases n with
      | newOrder p => simp [Msg.type] at kinds
      | cancel d => exact cancel_determined same
      | modify n => simp [Msg.type] at kinds
  | modify m =>
      cases n with
      | newOrder p => simp [Msg.type] at kinds
      | cancel d => simp [Msg.type] at kinds
      | modify n => exact modify_determined same

/-! ## Runs -/

/-- A run answers under the sequence numbers of its messages. -/
theorem output_sequenceNumber (msgs : List Msg) :
    ∀ r ∈ output Reference.step book msgs,
      ∃ m ∈ msgs, r.sequenceNumber = m.sequenceNumber := by
  induction msgs generalizing book with
  | nil => exact fun r member => absurd member List.not_mem_nil
  | cons m msgs induction =>
      intro r member
      rcases List.mem_append.mp member with now | later
      · exact ⟨m, List.mem_cons_self, step_sequenceNumber m r now⟩
      · obtain ⟨n, inside, same⟩ := induction r later
        exact ⟨n, List.mem_cons_of_mem _ inside, same⟩

/-- The lines of a run under a sequence number that none of its messages has. -/
theorem linesAt_output_eq_nil
    {seq : UInt64} {type : UInt8} {msgs : List Msg}
    (other : ∀ m ∈ msgs, m.sequenceNumber ≠ seq) :
    linesAt seq type (output Reference.step book msgs) = [] := by
  apply linesAt_eq_nil
  intro r member
  obtain ⟨m, inside, same⟩ := output_sequenceNumber msgs r member
  rw [same]
  exact other m inside

/-- The same lines under every sequence number and type. -/
def SameLines (left right : List Report) : Prop :=
  ∀ seq (type : UInt8), type ≤ 5 →
    linesAt seq type left = linesAt seq type right

/-- A legal message's answer is missing from a run without its number. -/
theorem not_sameLines
    {m : Msg} {msgs others : List Msg} {otherBook : LiveBook}
    (legal : Legal allowed book m)
    (other : ∀ n ∈ others, n.sequenceNumber ≠ m.sequenceNumber) :
    ¬SameLines (output Reference.step book (m :: msgs))
      (output Reference.step otherBook others) := by
  intro same
  obtain ⟨r, member, known⟩ := step_answers legal
  have absent :
      linesAt r.sequenceNumber r.type
        (output Reference.step otherBook others) = [] := by
    rw [step_sequenceNumber m r member]
    exact linesAt_output_eq_nil other
  have present :
      linesAt r.sequenceNumber r.type
        (output Reference.step book (m :: msgs)) ≠ [] :=
    mem_linesAt (List.mem_append_left _ member)
  exact present ((same r.sequenceNumber r.type known).trans absent)

/-- The first of two runs with the same lines have the same number. -/
theorem head_sequenceNumber
    {m n : Msg} {msgs others : List Msg}
    (legalLeft : Legal allowed book m) (legalRight : Legal allowed book n)
    (increasingLeft : Increasing (m :: msgs))
    (increasingRight : Increasing (n :: others))
    (same :
      SameLines (output Reference.step book (m :: msgs))
        (output Reference.step book (n :: others))) :
    m.sequenceNumber = n.sequenceNumber := by
  have later {a : Msg} {rest : List Msg} (increasing : Increasing (a :: rest))
      {s : UInt64} (below : s < a.sequenceNumber) :
      ∀ b ∈ a :: rest, b.sequenceNumber ≠ s := by
    rintro b member rfl
    rcases List.mem_cons.mp member with rfl | member
    · exact UInt64.lt_irrefl _ below
    · exact UInt64.lt_irrefl _ (UInt64.lt_trans below
        ((List.pairwise_cons.mp increasing).1 b member))
  by_contra different
  rcases UInt64.lt_or_lt_of_ne different with below | above
  · exact not_sameLines legalLeft (later increasingRight below) same
  · exact not_sameLines legalRight (later increasingLeft above)
      fun seq type known => (same seq type known).symm

/-- Two runs with the same lines begin with the same answer and go on alike. -/
theorem SameLines.split
    {m n : Msg} {msgs others : List Msg}
    (increasingLeft : Increasing (m :: msgs))
    (increasingRight : Increasing (n :: others))
    (number : m.sequenceNumber = n.sequenceNumber)
    (same :
      SameLines (output Reference.step book (m :: msgs))
        (output Reference.step book (n :: others))) :
    SameAnswer (Reference.step book m).2 (Reference.step book n).2 ∧
      SameLines (output Reference.step (Reference.step book m).1 msgs)
        (output Reference.step (Reference.step book n).1 others) := by
  have rest {a : Msg} {tail : List Msg} (increasing : Increasing (a :: tail)) :
      ∀ b ∈ tail, b.sequenceNumber ≠ a.sequenceNumber := by
    intro b member equal
    have above := (List.pairwise_cons.mp increasing).1 b member
    rw [equal] at above
    exact UInt64.lt_irrefl _ above
  have leftRest := rest increasingLeft
  have rightRest := rest increasingRight
  rw [← number] at rightRest
  have own := @step_sequenceNumber _ book m
  have ownRight := @step_sequenceNumber _ book n
  rw [← number] at ownRight
  constructor
  · intro type known
    have lines := same m.sequenceNumber type known
    simp only [output, linesAt_append] at lines
    rwa [linesAt_output_eq_nil leftRest, linesAt_output_eq_nil rightRest,
      List.append_nil, List.append_nil, linesAt_eq_linesOf own,
      linesAt_eq_linesOf ownRight] at lines
  · intro seq type known
    by_cases here : m.sequenceNumber = seq
    · subst here
      rw [linesAt_output_eq_nil leftRest, linesAt_output_eq_nil rightRest]
    · have lines := same seq type known
      simp only [output, linesAt_append] at lines
      have noneLeft : linesAt seq type (Reference.step book m).2 = [] :=
        linesAt_eq_nil fun r member => by rwa [own r member]
      have noneRight : linesAt seq type (Reference.step book n).2 = [] :=
        linesAt_eq_nil fun r member => by rwa [ownRight r member]
      rwa [noneLeft, noneRight, List.nil_append, List.nil_append] at lines

/--
Two legal runs with increasing sequence numbers and the same lines have the
same sequence numbers and go through the same books.
-/
theorem run_determined
    {left right : List Msg}
    (legalLeft : Admitted Reference.step (Legal allowed) book left)
    (legalRight : Admitted Reference.step (Legal allowed) book right)
    (increasingLeft : Increasing left) (increasingRight : Increasing right)
    (same :
      SameLines (output Reference.step book left)
        (output Reference.step book right)) :
    left.map Msg.sequenceNumber = right.map Msg.sequenceNumber ∧
      ∀ seq,
        final Reference.step book (upTo seq left) =
          final Reference.step book (upTo seq right) := by
  induction left generalizing book right with
  | nil =>
      cases right with
      | nil => exact ⟨rfl, fun _ => rfl⟩
      | cons n right =>
          have back :
              SameLines (output Reference.step book (n :: right))
                (output Reference.step book []) :=
            fun seq type known => (same seq type known).symm
          exact absurd back
            (not_sameLines legalRight.1
              fun a member => absurd member List.not_mem_nil)
  | cons m left induction =>
      cases right with
      | nil =>
          exact absurd same
            (not_sameLines legalLeft.1
              fun a member => absurd member List.not_mem_nil)
      | cons n right =>
          have number := head_sequenceNumber legalLeft.1 legalRight.1
            increasingLeft increasingRight same
          have ⟨answer, rest⟩ :=
            same.split increasingLeft increasingRight number
          have next := step_determined legalLeft.1 legalRight.1 answer
          rw [← next] at rest
          have ⟨numbers, books⟩ := induction legalLeft.2
            (next ▸ legalRight.2) (List.Pairwise.of_cons increasingLeft)
            (List.Pairwise.of_cons increasingRight) rest
          refine ⟨by rw [List.map_cons, List.map_cons, number, numbers],
            fun seq => ?_⟩
          by_cases reached : m.sequenceNumber ≤ seq
          · rw [upTo_cons_of_le reached, upTo_cons_of_le (number ▸ reached),
              final_cons, final_cons, books seq, next]
          · rw [upTo_cons_of_not_le increasingLeft reached,
              upTo_cons_of_not_le increasingRight (number ▸ reached)]

/-! ## The adapter's book -/

/-- The buckets hold the reference ladder, level by level. -/
theorem Simulates.bucket_eq
    {st : State} (simulates : Simulates allowed st book)
    (side : Side) (price : Nat) :
    bucket st.book side price =
      (level price ((book.ladder side).map bookOrder)).map
        (FifoBookSpec.orderOf side) := by
  obtain ⟨ladder, alike, holds⟩ := simulates.ladders.holds side
  rw [bucket, holds.levels, ladder_eq_map alike]

end Matcher

/--
The queue at a price of a side: the identifiers of its orders, first in line
first, and their open quantities.
-/
def queueAt (st : State) (side : Side) (price : Nat) : List (UInt64 × Nat) :=
  (bucket st.book side price).map fun order =>
    (order.seqNumber, order.size)

/-- What two prefixes of legal runs show when the reference books agree. -/
theorem queues_eq_of_books_eq
    {left right : List Msg}
    (legalLeft : @LegalRun castOrder AnyPrice left)
    (legalRight : @LegalRun castOrder AnyPrice right)
    (books : @bookAfter castOrder left = @bookAfter castOrder right) :
    ∃ first firstReports second secondReports,
      run Adapter.step State.init left = some (first, firstReports) ∧
        run Adapter.step State.init right = some (second, secondReports) ∧
        ∀ side price, queueAt first side price = queueAt second side price := by
  obtain ⟨first, firstReports, ranFirst, simulatesFirst, _⟩ :=
    @run_simulates castOrder AnyPrice cast_ticks left legalLeft
  obtain ⟨second, secondReports, ranSecond, simulatesSecond, _⟩ :=
    @run_simulates castOrder AnyPrice cast_ticks right legalRight
  refine ⟨first, firstReports, second, secondReports, ranFirst, ranSecond,
    fun side price => ?_⟩
  rw [queueAt, queueAt, @Simulates.bucket_eq castOrder _ _ _ simulatesFirst,
    @Simulates.bucket_eq castOrder _ _ _ simulatesSecond, books]

/--
Equal canonical texts imply equal books at every step.  Two legal runs of the
adapter over strictly increasing sequence numbers whose reports have the same
text have the same sequence numbers, and after the messages of each of them
the same queue at every price of both sides.
-/
theorem equal_texts_equal_books
    (left right : List Msg)
    (legalLeft : LegalFrom State.init left)
    (legalRight : LegalFrom State.init right)
    (increasingLeft : Increasing left) (increasingRight : Increasing right) :
    ∃ leftLast leftReports rightLast rightReports,
      run Adapter.step State.init left = some (leftLast, leftReports) ∧
      run Adapter.step State.init right = some (rightLast, rightReports) ∧
      ((buildCanonicalText (leftReports.map collect)).1 =
          (buildCanonicalText (rightReports.map collect)).1 →
        left.map Msg.sequenceNumber = right.map Msg.sequenceNumber ∧
        ∀ seq, ∃ first firstReports second secondReports,
          run Adapter.step State.init (upTo seq left) =
              some (first, firstReports) ∧
            run Adapter.step State.init (upTo seq right) =
              some (second, secondReports) ∧
            ∀ side price,
              queueAt first side price = queueAt second side price) := by
  have admittedLeft := @admitted_of_legalFrom castOrder cast_ticks _ _
    (@simulates_init castOrder AnyPrice) left legalLeft
  have admittedRight := @admitted_of_legalFrom castOrder cast_ticks _ _
    (@simulates_init castOrder AnyPrice) right legalRight
  obtain ⟨leftLast, leftReports, ranLeft, _, sameLeft⟩ :=
    @run_simulates castOrder AnyPrice cast_ticks left admittedLeft
  obtain ⟨rightLast, rightReports, ranRight, _, sameRight⟩ :=
    @run_simulates castOrder AnyPrice cast_ticks right admittedRight
  refine ⟨leftLast, leftReports, rightLast, rightReports, ranLeft, ranRight,
    fun texts => ?_⟩
  have lines :
      SameLines (@reportsOf castOrder left) (@reportsOf castOrder right) :=
    (sameLeft.1.symm.trans ((sameCanonical_iff_text_eq _ _).mpr texts)).trans
      sameRight.1
  have ⟨numbers, books⟩ :=
    @run_determined castOrder AnyPrice _ _ _ admittedLeft admittedRight
      increasingLeft increasingRight lines
  have legalLeft (seq : UInt64) :=
    @LegalRun.of_prefix castOrder AnyPrice _ _ admittedLeft
      (upTo_isPrefix seq increasingLeft)
  have legalRight (seq : UInt64) :=
    @LegalRun.of_prefix castOrder AnyPrice _ _ admittedRight
      (upTo_isPrefix seq increasingRight)
  exact ⟨numbers, fun seq =>
    queues_eq_of_books_eq (legalLeft seq) (legalRight seq) (books seq)⟩

/-- A sell order and a buy order that it fills, whose IOC flag is left open. -/
def flagRun (ioc : UInt8) : List Msg :=
  [.newOrder { orderId := 1, sequenceNumber := 1, priceTicks := 100
               quantity := 5, side := 1, ioc := 0 },
   .newOrder { orderId := 2, sequenceNumber := 2, priceTicks := 101
               quantity := 3, side := 0, ioc := ioc }]

/-- Both runs print the same, and leave 2 of the sell behind the buy. -/
theorem equal_texts_equal_books_flagRun :
    ∃ leftLast leftReports rightLast rightReports,
      run Adapter.step State.init (flagRun 0) =
          some (leftLast, leftReports) ∧
        run Adapter.step State.init (flagRun 1) =
          some (rightLast, rightReports) ∧
        (buildCanonicalText (leftReports.map collect)).1 =
          (buildCanonicalText (rightReports.map collect)).1 ∧
        (flagRun 0).map Msg.sequenceNumber =
          (flagRun 1).map Msg.sequenceNumber ∧
        queueAt leftLast .sell 100 = [(1, 2)] ∧
        queueAt rightLast .sell 100 = [(1, 2)] := by
  have reports : (run Adapter.step State.init (flagRun 0)).map Prod.snd =
      (run Adapter.step State.init (flagRun 1)).map Prod.snd := by
    decide +kernel
  have shown : (run Adapter.step State.init (flagRun 0)).map
      (fun result => queueAt result.1 .sell 100) = some [(1, 2)] := by
    decide +kernel
  obtain ⟨leftLast, leftReports, rightLast, rightReports, ranLeft, ranRight,
    equal⟩ :=
    equal_texts_equal_books (flagRun 0) (flagRun 1)
      (legalFrom_of_legalRun (by decide)) (legalFrom_of_legalRun (by decide))
      (by simp [Increasing, flagRun, Msg.sequenceNumber])
      (by simp [Increasing, flagRun, Msg.sequenceNumber])
  rw [ranLeft, ranRight, Option.map_some, Option.map_some,
    Option.some_inj] at reports
  dsimp only at reports
  subst reports
  obtain ⟨numbers, books⟩ := equal rfl
  obtain ⟨first, _, second, _, ranFirst, ranSecond, queues⟩ := books 2
  have wholeLeft : upTo 2 (flagRun 0) = flagRun 0 := by decide
  have wholeRight : upTo 2 (flagRun 1) = flagRun 1 := by decide
  rw [wholeLeft, ranLeft] at ranFirst
  rw [wholeRight, ranRight] at ranSecond
  cases ranFirst
  cases ranSecond
  rw [ranLeft, Option.map_some, Option.some_inj] at shown
  exact ⟨leftLast, leftReports, rightLast, leftReports, ranLeft, ranRight, rfl,
    numbers, shown, (queues .sell 100).symm.trans shown⟩

end MatchingBench.Pgellert.Reconstruction
