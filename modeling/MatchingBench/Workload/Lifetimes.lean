import MatchingBench.Reference
import MatchingBench.Workload.Arrivals
import Mathlib.Data.List.Induction

/-!
# What rests during a workload

Along the messages of a workload the reference book holds non-IOC orders that
have not been cancelled yet.  An order's own modify and cancel follow its NEW
before anything else can reach it, so their fate is decided by what it traded.
-/

set_option autoImplicit false

namespace MatchingBench.Workload.Lifetimes

open MatchingBench.Api
open MatchingBench.Correctness
open MatchingBench.Lib.PriceTime
open MatchingBench.Lib.OrderBook
open MatchingBench.Lib.Runs
open MatchingBench.Reference
open MatchingBench.Workload.Arrivals

/-! ## Traded quantities -/

/-- The Trades among some reports. -/
def tradesOf (reports : List Report) : List Report :=
  reports.filter fun r => r.type = meTrade

/-- The quantity that some reports say was traded. -/
def traded (reports : List Report) : Nat :=
  ((tradesOf reports).map fun r => r.quantity.toNat).sum

@[simp]
theorem traded_append (front back : List Report) :
    traded (front ++ back) = traded front + traded back := by
  simp [traded, tradesOf]

theorem traded_ack
    {type : UInt8} (other : type ≠ meTrade) (seq orderId : UInt64)
    (side : UInt8) (price : Int64) (qty : UInt32) :
    traded [ackReport type seq orderId side price qty] = 0 := by
  simp [traded, tradesOf, ackReport, other]

theorem traded_trades
    (seq taker : UInt64) {fills : List (Fill UInt64 Int64)}
    (small : ∀ fill ∈ fills, fill.qty < 2 ^ 32) :
    traded (fills.map (tradeReport seq taker)) =
      (fills.map Fill.qty).sum := by
  have all : tradesOf (fills.map (tradeReport seq taker)) =
      fills.map (tradeReport seq taker) := by
    apply List.filter_eq_self.mpr
    intro r member
    rcases List.mem_map.mp member with ⟨fill, _, rfl⟩
    rfl
  rw [traded, all, List.map_map]
  congr 1
  apply List.map_congr_left
  intro fill member
  exact UInt32.toNat_ofNat_of_lt' (small fill member)

/-- What one of two report lists with the same text shows. -/
theorem exists_printed
    {left right : List Report} (same : SameReports left right) {r : Report}
    (member : r ∈ left) (known : r.type ≤ 5) :
    ∃ r' ∈ right, r'.sequenceNumber = r.sequenceNumber ∧
      r'.type = r.type ∧ (collect r').printed = (collect r).printed := by
  have classes := same.1 r.sequenceNumber r.type known
  have shown : (collect r).printed ∈
      (reportClass r.sequenceNumber r.type (left.map collect)).map
        CollectedReport.printed := by
    apply List.mem_map_of_mem
    apply List.mem_filter.mpr
    exact ⟨List.mem_map_of_mem member, decide_eq_true ⟨rfl, rfl⟩⟩
  rw [classes] at shown
  rcases List.mem_map.mp shown with ⟨found, inClass, printed⟩
  rcases List.mem_filter.mp inClass with ⟨inside, keys⟩
  rcases List.mem_map.mp inside with ⟨r', inRight, rfl⟩
  have ⟨sameSeq, sameType⟩ := of_decide_eq_true keys
  exact ⟨r', inRight, sameSeq, sameType, printed⟩

/-- The line of a Trade. -/
theorem printed_trade {r : Report} (trade : r.type = meTrade) :
    (collect r).printed =
      some (.trade r.sequenceNumber r.priceTicks r.quantity r.makerOrderId
        r.takerOrderId) := by
  rw [CollectedReport.printed, collect, trade]
  rfl

/-- The quantity a line shows, if it is that of a Trade. -/
def shownQuantity : Option CanonicalLine → Nat
  | some (.trade _ _ quantity _ _) => quantity.toNat
  | _ => 0

/-- The traded quantity can be read off the text. -/
theorem traded_eq_of_own
    {seq : UInt64} {reports : List Report}
    (own : ∀ r ∈ tradesOf reports, r.sequenceNumber = seq) :
    traded reports =
      (((reportClass seq meTrade (reports.map collect)).map
        CollectedReport.printed).map shownQuantity).sum := by
  have trades :
      reportClass seq meTrade (reports.map collect) =
        (tradesOf reports).map collect := by
    rw [reportClass, List.filter_map, tradesOf]
    congr 1
    apply List.filter_congr
    intro r member
    by_cases trade : r.type = meTrade
    · have named := own r (List.mem_filter.mpr ⟨member, by simpa⟩)
      simp [collect, trade, named]
    · simp [collect, trade]
  rw [trades, List.map_map, List.map_map, traded]
  congr 1
  apply List.map_congr_left
  intro r member
  have trade : r.type = meTrade := by
    simpa using (List.mem_filter.mp member).2
  rw [Function.comp_apply, Function.comp_apply, printed_trade trade]
  rfl

/-- Replies to one message with the same text trade the same quantity. -/
theorem traded_of_sameReports
    {left right : List Report} (same : SameReports left right)
    {seq : UInt64} (own : ∀ r ∈ right, r.sequenceNumber = seq) :
    traded left = traded right := by
  have ownLeft (r : Report) (member : r ∈ tradesOf left) :
      r.sequenceNumber = seq := by
    rcases List.mem_filter.mp member with ⟨inside, trade⟩
    have known : r.type ≤ 5 := by
      rw [of_decide_eq_true trade]
      decide
    rcases exists_printed same inside known with ⟨r', inRight, sameSeq, _⟩
    rw [← sameSeq]
    exact own r' inRight
  have ownRight (r : Report) (member : r ∈ tradesOf right) :
      r.sequenceNumber = seq :=
    own r (List.mem_of_mem_filter member)
  rw [traded_eq_of_own ownLeft, traded_eq_of_own ownRight,
    same.1 seq meTrade (by decide)]

section Matcher

variable [LinearOrder Int64] {book : LiveBook}

section Submission

variable {side : Side} {order : Resting UInt64 Int64} {rests : Bool}
  {fresh : book.lookup order.id = none}

/-- The maker of a fill rests, and is not the order that trades. -/
theorem maker_rests
    {fill : Fill UInt64 Int64}
    (member : fill ∈ (book.submit side order rests fresh).fills) :
    book.lookup fill.maker.id = some (side.opposite, fill.maker) ∧
      fill.maker.id ≠ order.id := by
  rcases mem_sweep_fills (book.positive side.opposite) member with
    ⟨inside, _⟩
  have found := Book.lookup_eq_some_iff.mpr ⟨inside, rfl⟩
  constructor
  · exact found
  · intro own
    rw [own, fresh] at found
    cases found

/-- The Trades of a submission and what is left make up its quantity. -/
theorem traded_fills
    (small : order.qty < 2 ^ 32) (seq taker : UInt64) :
    traded ((book.submit side order rests fresh).fills.map
        (tradeReport seq taker)) +
      (book.submit side order rests fresh).left = order.qty := by
  rw [traded_trades, book.submit_conserves]
  intro fill member
  rcases mem_sweep_fills (book.positive side.opposite) member with
    ⟨_, _, _, few, _⟩
  exact Nat.lt_of_le_of_lt few small

end Submission

/-! ## An order's own messages -/

/--
What an order's own message leaves of it: nothing when the message traded all
of a quantity, and otherwise at most that quantity on the order's side.
-/
structure Leaves
    (after : LiveBook) (id : UInt64) (side : Side) (qty : Nat)
    (reports : List Report) : Prop where
  gone : after.lookup id = none ↔ traded reports = qty
  kept : ∀ s o, after.lookup id = some (s, o) → s = side ∧ o.qty ≤ qty

theorem submit_leaves
    {side : Side} {order : Resting UInt64 Int64}
    {fresh : book.lookup order.id = none} {reports : List Report}
    (whole : traded reports +
      (book.submit side order true fresh).left = order.qty) :
    Leaves (book.submit side order true fresh).book order.id side order.qty
      reports := by
  have shown :
      (book.submit side order true fresh).book.lookup order.id =
        if (book.submit side order true fresh).left ≠ 0 then
          some (side, { order with
            qty := (book.submit side order true fresh).left })
        else
          none := by
    rw [Book.lookup_submit_rests, Function.update_self]
  constructor
  · rw [shown]
    split
    · constructor
      · intro absent
        cases absent
      · omega
    · constructor
      · omega
      · intro
        rfl
  · intro s o found
    rw [shown] at found
    split at found
    · cases found
      exact ⟨rfl, book.submit_left_le side order true fresh⟩
    · cases found

theorem traded_newOrder
    {o : NewOrder} (fresh : book.lookup o.orderId = none) :
    traded (newOrder book o).2 +
        (book.submit (sideOf o.side) (submittedOrder o) (o.ioc = 0)
          fresh).left =
      o.quantity.toNat := by
  have whole := @traded_fills _ book (sideOf o.side) (submittedOrder o)
    (o.ioc = 0) fresh o.quantity.toNat_lt o.sequenceNumber o.orderId
  have dropped (c : Prop) [Decidable c] (left : UInt32) :
      traded (if c then
        [ackReport meCancelAck o.sequenceNumber o.orderId o.side
          o.priceTicks left] else []) = 0 := by
    split
    · exact traded_ack (by decide) _ _ _ _ _
    · rfl
  rw [newOrder, dif_pos fresh]
  dsimp only
  rw [← List.singleton_append, traded_append, traded_append,
    traded_ack (by decide), dropped, Nat.zero_add, Nat.add_zero]
  exact whole

/-- A new order that may rest. -/
theorem newOrder_leaves
    {o : NewOrder} (fresh : book.lookup o.orderId = none)
    (stays : o.ioc = 0) :
    Leaves (newOrder book o).1 o.orderId (sideOf o.side) o.quantity.toNat
      (newOrder book o).2 := by
  have whole := traded_newOrder fresh
  rw [show (newOrder book o).1 =
      (book.submit (sideOf o.side) (submittedOrder o) (o.ioc = 0)
        fresh).book by rw [newOrder, dif_pos fresh]]
  rw [decide_eq_true stays] at whole ⊢
  exact submit_leaves whole

/-- An accepted modify. -/
theorem modify_leaves
    {r : Modify} {side : Side} {x : Resting UInt64 Int64}
    (found : book.lookup r.orderId = some (side, x)) :
    Leaves (modify book r).1 r.orderId side r.newQuantity.toNat
      (modify book r).2 := by
  have fresh : (book.withdraw r.orderId).lookup (modifiedOrder r).id = none :=
    book.lookup_withdraw_self r.orderId
  have whole := @traded_fills _ (book.withdraw r.orderId) side
    (modifiedOrder r) true fresh r.newQuantity.toNat_lt r.sequenceNumber
    r.orderId
  have answer : modify book r =
      (((book.withdraw r.orderId).submit side (modifiedOrder r) true
          fresh).book,
        ((book.withdraw r.orderId).submit side (modifiedOrder r) true
          fresh).fills.map (tradeReport r.sequenceNumber r.orderId) ++
        [ackReport meModifyAck r.sequenceNumber r.orderId (sideByte side)
          r.newPriceTicks r.newQuantity]) := by
    rw [Reference.modify, found]
  rw [answer]
  apply submit_leaves
  rw [traded_append, traded_ack (by decide), Nat.add_zero]
  exact whole

/-- A rejected modify. -/
theorem modify_missing
    {r : Modify} (absent : book.lookup r.orderId = none) :
    modify book r =
      (book, [ackReport meModifyReject r.sequenceNumber r.orderId 0 0 0]) := by
  rw [Reference.modify, absent]

/-! ## Makers -/

/-- The maker of a Trade rests, and is not the order of the message. -/
theorem maker_of_trade
    {m : Msg} {r : Report} (member : r ∈ (step book m).2)
    (trade : r.type = meTrade) :
    (book.lookup r.makerOrderId).isSome = true ∧
      r.makerOrderId ≠ m.orderId := by
  cases m with
  | newOrder o =>
      rw [step, newOrder] at member
      split at member
      · simp only [List.cons_append, List.mem_cons, List.mem_append,
          List.mem_map] at member
        rcases member with rfl | ⟨fill, inside, rfl⟩ | residue
        · cases trade
        · have ⟨found, other⟩ := maker_rests inside
          exact ⟨Option.isSome_of_eq_some found, other⟩
        · split at residue
          · rw [List.mem_singleton.mp residue] at trade
            cases trade
          · cases residue
      · cases member
  | cancel c =>
      rw [step, cancel] at member
      split at member
      · rw [List.mem_singleton.mp member] at trade
        cases trade
      · rw [List.mem_singleton.mp member] at trade
        cases trade
  | modify request =>
      rw [step, Reference.modify] at member
      split at member
      · rcases List.mem_append.mp member with inFills | inAck
        · rcases List.mem_map.mp inFills with ⟨fill, inside, rfl⟩
          have ⟨found, other⟩ := maker_rests inside
          have apart : fill.maker.id ≠ request.orderId := other
          rw [Book.lookup_withdraw, Function.update_of_ne apart] at found
          exact ⟨Option.isSome_of_eq_some found, other⟩
        · rw [List.mem_singleton.mp inAck] at trade
          cases trade
      · rw [List.mem_singleton.mp member] at trade
        cases trade

/-! ## Orders that wait -/

/-- An order has been sent to rest on a side, and no cancel of it has. -/
structure Awaits
    (front : List Msg) (id : UInt64) (side : Side) (_price : Int64) :
    Prop where
  sent : ∃ o, .newOrder o ∈ front ∧ o.orderId = id ∧ o.ioc = 0 ∧
    sideOf o.side = side
  open_ : ∀ c, .cancel c ∈ front → c.orderId ≠ id

omit [LinearOrder Int64] in
theorem Awaits.later
    {front : List Msg} {id : UInt64} {side : Side} {price : Int64}
    (awaits : Awaits front id side price) {m : Msg}
    (other : ∀ c, m = .cancel c → c.orderId ≠ id) :
    Awaits (front ++ [m]) id side price where
  sent := by
    rcases awaits.sent with ⟨o, member, own⟩
    exact ⟨o, List.mem_append_left _ member, own⟩
  open_ c member := by
    rcases List.mem_append.mp member with before | now
    · exact awaits.open_ c before
    · exact other c (List.mem_singleton.mp now).symm

/-- Every message leaves only orders that wait. -/
theorem step_awaits
    {front : List Msg} {m : Msg} (all : book.All (Awaits front))
    (arrives : Arrives front m) :
    (step book m).1.All (Awaits (front ++ [m])) := by
  have stays (other : ∀ c, m = .cancel c →
      book.lookup c.orderId = none) :
      book.All (Awaits (front ++ [m])) := by
    refine all.mono fun id side o found awaits => ?_
    apply awaits.later
    rintro c equal rfl
    rw [other c equal] at found
    cases found
  cases m with
  | newOrder o =>
      have kept := stays nofun
      rw [step, newOrder]
      split
      · rename_i fresh
        have own (rests : decide (o.ioc = 0) = true) :
            Awaits (front ++ [.newOrder o]) o.orderId (sideOf o.side)
              o.priceTicks := by
          constructor
          · exact ⟨o, List.mem_append_right front List.mem_cons_self, rfl,
              of_decide_eq_true rests, rfl⟩
          · intro c member
            rcases List.mem_append.mp member with before | now
            · cases arrives with
              | new _ unseen => exact unseen _ before
            · cases List.mem_singleton.mp now
        exact @Book.All.submit _ _ _ _ _ _ kept _ (submittedOrder o) _ fresh
          own
      · exact kept
  | cancel c =>
      rw [step, cancel]
      split
      · refine (all.withdraw c.orderId).mono fun id side o found awaits => ?_
        apply awaits.later
        rintro c' equal rfl
        cases equal
        rw [Book.lookup_withdraw_self] at found
        cases found
      · rename_i absent
        apply stays
        intro c' equal
        cases equal
        exact absent
  | modify r =>
      have kept := stays nofun
      rw [step, Reference.modify]
      split
      · rename_i side o found
        have own := kept r.orderId side o found
        exact @Book.All.submit _ _ _ _ _ _ (kept.withdraw r.orderId) _
          (modifiedOrder r) _ (book.lookup_withdraw_self r.orderId)
          fun _ => ⟨own.sent, own.open_⟩
      · exact kept

section Tape

variable {tape : List Msg} (arranged : Arranged tape)

include arranged

/-- Only orders that wait rest at any time. -/
theorem awaits_of_arranged
    {front back : List Msg} (split : tape = front ++ back) :
    (bookAfter front).All (Awaits front) := by
  induction front using List.reverseRecOn generalizing back with
  | nil => exact Book.all_empty
  | append_singleton front m induction =>
      rw [List.append_assoc] at split
      have before := induction split
      rw [bookAfter, final_append]
      exact step_awaits before (arranged.arrives front m back split)

/-- A cancelled order does not rest. -/
theorem lookup_of_cancelled
    {front back : List Msg} (split : tape = front ++ back) {c : Cancel}
    (member : .cancel c ∈ front) :
    (bookAfter front).lookup c.orderId = none := by
  cases found : (bookAfter front).lookup c.orderId with
  | none => rfl
  | some entry =>
      have waits := awaits_of_arranged arranged split c.orderId entry.1
        entry.2 found
      exact absurd rfl (waits.open_ c member)

/-- An order that was never mentioned does not rest. -/
theorem lookup_of_unseen
    {front back : List Msg} (split : tape = front ++ back) {id : UInt64}
    (unseen : ∀ m ∈ front, m.orderId ≠ id) :
    (bookAfter front).lookup id = none := by
  cases found : (bookAfter front).lookup id with
  | none => rfl
  | some entry =>
      have waits := awaits_of_arranged arranged split id entry.1 entry.2
        found
      rcases waits.sent with ⟨o, member, own, _⟩
      exact absurd own (unseen _ member)

/-! ## The messages of one order -/

theorem fresh_of_new
    {front back : List Msg} {o : NewOrder}
    (split : tape = front ++ .newOrder o :: back) :
    (bookAfter front).lookup o.orderId = none :=
  lookup_of_unseen arranged split (arranged.unseen split)

/-- What an order's NEW leaves of it. -/
theorem leaves_new
    {front back : List Msg} {o : NewOrder}
    (split : tape = front ++ .newOrder o :: back) (stays : o.ioc = 0) :
    Leaves (bookAfter (front ++ [.newOrder o])) o.orderId (sideOf o.side)
      o.quantity.toNat (step (bookAfter front) (.newOrder o)).2 := by
  rw [bookAfter, final_append]
  exact newOrder_leaves (fresh_of_new arranged split) stays

/-- What an order's NEW and the modify after it leave of it. -/
theorem lookup_modified
    {front back : List Msg} {o : NewOrder} {r : Modify}
    (split : tape = front ++ .newOrder o :: .modify r :: back)
    (stays : o.ioc = 0) (own : r.orderId = o.orderId) :
    (bookAfter (front ++ [.newOrder o, .modify r])).lookup o.orderId =
        none ↔
      traded (step (bookAfter front) (.newOrder o)).2 =
          o.quantity.toNat ∨
        traded (step (bookAfter (front ++ [.newOrder o])) (.modify r)).2 =
          r.newQuantity.toNat := by
  have left := leaves_new arranged split stays
  have after :
      bookAfter (front ++ [.newOrder o, .modify r]) =
        (Reference.modify (bookAfter (front ++ [.newOrder o])) r).1 := by
    rw [← List.singleton_append, ← List.append_assoc, bookAfter,
      final_append]
    rfl
  rw [after, ← left.gone, ← own]
  cases found : (bookAfter (front ++ [.newOrder o])).lookup r.orderId with
  | none =>
      rw [modify_missing found]
      constructor
      · intro
        exact Or.inl rfl
      · intro
        exact found
  | some entry =>
      have again := modify_leaves
        (show _ = some (entry.1, entry.2) from found)
      rw [again.gone]
      constructor
      · exact Or.inr
      · rintro (impossible | filled)
        · cases impossible
        · exact filled

/-- An accepted modify follows its order's NEW and asks for more. -/
theorem accepted_modify
    {front back : List Msg} {r : Modify} {side : Side}
    {x : Resting UInt64 Int64} (split : tape = front ++ .modify r :: back)
    (found : (bookAfter front).lookup r.orderId = some (side, x)) :
    ∃ before o, front = before ++ [.newOrder o] ∧ Increases o r ∧
      side = sideOf o.side ∧ x.qty ≤ o.quantity.toNat := by
  cases arranged.arrives front _ back split with
  | @modify before o _ rests increases last =>
      subst last
      rw [List.append_assoc] at split
      have left := leaves_new arranged split rests
      rw [increases.id] at found
      have ⟨own, most⟩ := left.kept side x found
      exact ⟨before, o, rfl, increases, own, most⟩
  | @modifyAgain o first _ c _ _ _ _ cancelled gone =>
      have absent := lookup_of_cancelled arranged split cancelled
      rw [gone, found] at absent
      cases absent

/-! ## The contract -/

/-- The prices of a message are allowed. -/
def Priced (allowed : Int64 → Prop) : Msg → Prop
  | .newOrder o => allowed o.priceTicks
  | .cancel _ => True
  | .modify r => allowed r.newPriceTicks

theorem legal_of_arranged
    {allowed : Int64 → Prop} {front back : List Msg} {m : Msg}
    (split : tape = front ++ m :: back) (priced : Priced allowed m) :
    Legal allowed (bookAfter front) m := by
  cases m with
  | newOrder o =>
      have proper := arranged.proper split
      exact ⟨fresh_of_new arranged split, proper.sided, proper.some, priced⟩
  | cancel c => trivial
  | modify r =>
      rcases arranged.increases split with ⟨o, proper, increases⟩
      have more := increases.more
      refine ⟨?_, by omega, priced, ?_⟩
      · rw [increases.side]
        exact proper.sided
      · intro side x found
        rcases accepted_modify arranged split found with
          ⟨before, first, rfl, own, rfl, _⟩
        rw [List.append_assoc] at split
        rw [own.side, sideByte_sideOf (arranged.proper split).sided]

/-- The messages of a workload are a legal run. -/
theorem legalRun_of_arranged
    {allowed : Int64 → Prop} (priced : ∀ m ∈ tape, Priced allowed m) :
    LegalRun allowed tape := by
  apply admitted_iff.mpr
  intro front m back split
  apply legal_of_arranged arranged split
  apply priced
  rw [split]
  exact List.mem_append_right front List.mem_cons_self

end Tape

end Matcher

end MatchingBench.Workload.Lifetimes
