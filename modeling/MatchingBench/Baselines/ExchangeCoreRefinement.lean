import MatchingBench.Adapters
import MatchingBench.Baselines.ExchangeCoreCapacity

/-!
# The exchange-core adapter refines the reference matcher

The engine knows the client's identifiers as signed numbers and their ticks,
so its ladders are the reference's under that cast.  Both deliveries answer as
the reference does as long as no message makes more trades than the stage
holds.
-/

set_option autoImplicit false

namespace MatchingBench.Baselines.ExchangeCoreRefinement

open MatchingBench.Api
open MatchingBench.Adapters
open MatchingBench.Lib.PriceTime
open MatchingBench.Lib.OrderBook
open MatchingBench.Lib.Correspondence
open MatchingBench.Lib.Ladders
open MatchingBench.Lib.Levels
open MatchingBench.Lib.Runs
open MatchingBench.Reference
open MatchingBench.Baselines.ExchangeCore
open MatchingBench.Baselines.ExchangeCoreStage
open MatchingBench.Baselines.ExchangeCoreBatch
open MatchingBench.Baselines.ExchangeCorePriceTime
open MatchingBench.Baselines.ExchangeCoreDelivery
open MatchingBench.Baselines.ExchangeCoreCapacity

/-! ## The engine -/

/-- What the adapter uses of the book beside the commands. -/
structure Snapshots (core : Core) where
  newBook : core.State
  /-- `getL2MarketDataSnapshot`: prices and volumes, best first. -/
  l2 : core.State → Side → List (Int64 × Int64)

/--
The engine is a price-time matcher at the maker's price for one user.  A new
order trades, with one Trade event per fill, and what is left of it rests
unless it is immediate-or-cancel; a cancel withdraws the order it names,
leaves its side in the command and its price in the first event, and fails
when no such order rests.
-/
structure Correct
    (core : Core) (snapshots : Snapshots core)
    (ladders : core.State → Sides Int64 Int64) : Prop where
  newBook : ladders snapshots.newBook = fun _ => []
  newOrder : ∀ st (cmd : OrderCommand), cmd.uid = uid →
    ¬Rests (ladders st) cmd.orderId → 0 < cmd.size.toInt →
      0 < cmd.price.toInt →
        let side := sideOfAction cmd.action
        let result := core.newOrder st cmd
        ladders result.1 =
            submitted (ladders st) side (restingOf cmd)
              (cmd.orderType = .gtc) ∧
          tradesOf result.2.matcherEvent =
            (cross (ladders st) side cmd.price
              cmd.size.toInt.toNat).fills.map tradeEvent
  cancelResting : ∀ st (cmd : OrderCommand) side o, cmd.uid = uid →
    o ∈ ladders st side → o.id = cmd.orderId →
      let result := core.cancelOrder st cmd
      ladders result.1 = withdrawn (ladders st) cmd.orderId ∧
        result.2.2 = .success ∧
        result.2.1.action = actionOfSide side ∧
        result.2.1.matcherEvent.head?.map MatcherTradeEvent.price =
          some o.price
  cancelUnknown : ∀ st (cmd : OrderCommand), cmd.uid = uid →
    ¬Rests (ladders st) cmd.orderId →
      let result := core.cancelOrder st cmd
      ladders result.1 = ladders st ∧ result.2.2 ≠ .success
  reduces : Reduces core
  l2 : ∀ st side,
    snapshots.l2 st side =
      (levels (ladders st side)).map fun entry =>
        (entry.1, Int64.ofNat entry.2)

/-! ## Queries -/

section Queries

variable {core : Core} (snapshots : Snapshots core)

/-- `bestBid`. -/
def bestBid (book : core.State) : Int64 :=
  match (snapshots.l2 book .buy).take 1 with
  | [] => int64Min
  | best :: _ => best.1

/-- `bestAsk`. -/
def bestAsk (book : core.State) : Int64 :=
  match (snapshots.l2 book .sell).take 1 with
  | [] => int64Max
  | best :: _ => best.1

/-- `Integer.MAX_VALUE`. -/
def maxLevels : Nat := 2 ^ 31 - 1

/-- `depthAt`. -/
def depthAt (book : core.State) (price : Int64) (side : Int32) : Int64 :=
  let entries :=
    (snapshots.l2 book (if side = 0 then .buy else .sell)).take maxLevels
  ((entries.find? (·.1 = price)).map Prod.snd).getD 0

/-- `engine_query_depth_at`. -/
def engineQueryDepthAt
    (book : core.State) (priceTicks : Int64) (side : UInt8) : UInt64 :=
  (depthAt snapshots book priceTicks (Int32.ofNat side.toNat)).toUInt64

end Queries

/-! ## The simulation -/

/-- An identifier and its cast to `jlong`. -/
def Link (id : UInt64) (name : Int64) : Prop :=
  name = id.toInt64

theorem link_inj
    {id other : UInt64} {name named : Int64} (left : Link id name)
    (right : Link other named) : id = other ↔ name = named := by
  rw [Link] at left right
  rw [left, right]
  constructor
  · exact congrArg UInt64.toInt64
  · intro same
    rw [← UInt64.toUInt64_toInt64 id, same, UInt64.toUInt64_toInt64]

/-- The engine holds the reference book. -/
abbrev Mirrors
    {core : Core} (ladders : core.State → Sides Int64 Int64)
    (st : core.State) (book : LiveBook) : Prop :=
  StandsFor Link Eq 1 (ladders st) book

section Refinement

variable {core : Core} {snapshots : Snapshots core}
  {ladders : core.State → Sides Int64 Int64} {s : EngineState core}
  {book : LiveBook}

theorem Mirrors.not_rests
    (mirrors : Mirrors ladders s.1 book) {id : UInt64}
    (absent : book.lookup id = none) :
    ¬Rests (ladders s.1) id.toInt64 := by
  rintro ⟨side, r, member, named⟩
  obtain ⟨o, inside, paired⟩ := (mirrors side).exists_left member
  have same : o.id = id := (link_inj paired.id rfl).mpr named
  have found := Book.lookup_eq_some_iff.mpr ⟨inside, same⟩
  rw [absent] at found
  cases found

/-- The reports of trades that stand for the reference's. -/
theorem eventReport_tradeEvent
    (seq taker : UInt64) {fills : List (Fill UInt64 Int64)}
    {others : List (Fill Int64 Int64)}
    (alike : List.Forall₂ (AlikeFill Link Eq 1) fills others) :
    (others.map tradeEvent).map (eventReport seq taker) =
      fills.map (tradeReport seq taker) := by
  induction alike with
  | nil => rfl
  | @cons fill other fills others head _ induction =>
      have quantity : other.qty = fill.qty :=
        head.qty.trans (Nat.one_mul _)
      have maker : other.maker.id = fill.maker.id.toInt64 := head.maker.id
      have price : fill.maker.price = other.maker.price := head.maker.price
      have reported :
          eventReport seq taker (tradeEvent other) =
            tradeReport seq taker fill := by
        simp [eventReport, tradeEvent, tradeReport, quantity, maker, price]
      rw [List.map_cons, List.map_cons, List.map_cons, induction, reported]

/-- Their sizes. -/
theorem total_tradeEvent
    {fills : List (Fill UInt64 Int64)} {others : List (Fill Int64 Int64)}
    (alike : List.Forall₂ (AlikeFill Link Eq 1) fills others)
    (small : (fills.map Fill.qty).sum < 2 ^ 63) :
    (∀ evt ∈ others.map tradeEvent, 0 ≤ evt.size.toInt) ∧
      total (others.map tradeEvent) = (fills.map Fill.qty).sum := by
  have sums : (others.map Fill.qty).sum = (fills.map Fill.qty).sum := by
    clear small
    induction alike with
    | nil => rfl
    | cons head _ induction =>
        rw [List.map_cons, List.map_cons, List.sum_cons, List.sum_cons,
          induction, head.qty, Nat.one_mul]
  rw [← sums] at small ⊢
  exact total_fills small (Nat.le_refl _)

/-- The command's action names the side of the API. -/
theorem sideOfAction_ofNat (side : UInt8) :
    sideOfAction (if Int32.ofNat side.toNat = 0 then .bid else .ask) =
      sideOf side := by
  have zero : Int32.ofNat side.toNat = 0 ↔ side = 0 := by
    have fits := side.toNat_lt
    rw [← Int32.toInt_inj, Int32.toInt_ofNat_of_lt (by omega),
      ← UInt8.toNat_inj]
    exact Int.natCast_eq_zero
  unfold sideOf
  by_cases buy : side = 0
  · rw [if_pos (zero.mpr buy), if_pos buy]
    rfl
  · rw [if_neg fun equal => buy (zero.mp equal), if_neg buy]
    rfl

/-- Placing a command submits its order. -/
theorem Mirrors.placed
    (correct : Correct core snapshots ladders)
    (mirrors : Mirrors ladders s.1 book)
    {order : Resting UInt64 Int64} (fresh : book.lookup order.id = none)
    {quantity : UInt32} (whole : order.qty = quantity.toNat)
    (positive : 1 ≤ quantity.toNat) (small : quantity.toNat < 2 ^ 31)
    (permitted : 0 < order.price.toInt) (side : UInt8)
    (orderType : ExchangeCore.OrderType) :
    let result := core.newOrder s.1
      (placeCommand s.2 order.id.toInt64 order.price quantity.toInt32
        (Int32.ofNat side.toNat) orderType)
    let submitted := book.submit (sideOf side) order (orderType = .gtc) fresh
    Mirrors ladders result.1 submitted.book ∧
      ∃ others,
        tradesOf result.2.matcherEvent = others.map tradeEvent ∧
          List.Forall₂ (AlikeFill Link Eq 1) submitted.fills others := by
  have size := toInt_quantity small
  have quantities :
      quantity.toInt32.toInt64.toInt.toNat = 1 * order.qty := by
    rw [size, Nat.one_mul, whole]
    exact Int.toNat_natCast _
  have ⟨after, trades⟩ := correct.newOrder s.1
    (placeCommand s.2 order.id.toInt64 order.price quantity.toInt32
      (Int32.ofNat side.toNat) orderType) rfl (mirrors.not_rests fresh)
    (show 0 < quantity.toInt32.toInt64.toInt by omega) permitted
  have action :
      sideOfAction (placeCommand s.2 order.id.toInt64 order.price
        quantity.toInt32 (Int32.ofNat side.toNat) orderType).action =
        sideOf side :=
    sideOfAction_ofNat side
  rw [action] at after trades
  have ⟨fills, _, _⟩ := @StandsFor.cross _ _ _ _ _ _ _ _ _ _ _ _ mirrors
    orderCompatible_eq Nat.one_pos (sideOf side) order fresh order.price rfl
  rw [← quantities] at fills
  constructor
  · rw [Mirrors, after]
    exact mirrors.submitted orderCompatible_eq Nat.one_pos
      ⟨rfl, rfl, quantities⟩
  · exact ⟨_, trades, fills⟩

/-- A cancel of a resting order withdraws it and tells its side and price. -/
theorem Mirrors.removed
    (correct : Correct core snapshots ladders)
    (mirrors : Mirrors ladders s.1 book) {id : UInt64} {side : Side}
    {o : Resting UInt64 Int64} (found : book.lookup id = some (side, o)) :
    let answer := removed core s id
    Mirrors ladders answer.1.1 (book.withdraw id) ∧ answer.2 = .success ∧
      removedSide answer.1.2 = sideByte side ∧
      removedPrice answer.1.2 = o.price := by
  obtain ⟨r, member, paired⟩ := mirrors.exists_right found
  have named : o.id = id := (Book.lookup_eq_some_iff.mp found).2
  have linked : r.id = id.toInt64 := named ▸ paired.id
  have ⟨after, success, action, price⟩ := correct.cancelResting s.1
    (cancelCommand s.2 id.toInt64) side r rfl member linked
  refine ⟨?_, success, ?_, ?_⟩
  · change StandsFor Link Eq 1
      (ladders (core.cancelOrder s.1 (cancelCommand s.2 id.toInt64)).1) _
    rw [after]
    exact mirrors.withdrawn fun _ _ _ _ other => link_inj other rfl
  · change (if (core.cancelOrder s.1
      (cancelCommand s.2 id.toInt64)).2.1.action = .bid then (0 : UInt8)
        else 1) = _
    rw [action]
    cases side <;> rfl
  · change ((core.cancelOrder s.1 (cancelCommand s.2
      id.toInt64)).2.1.matcherEvent.head?.map
        MatcherTradeEvent.price).getD 0 = _
    rw [price]
    exact paired.price.symm

/-- A cancel of anything else changes nothing. -/
theorem Mirrors.absent
    (correct : Correct core snapshots ladders)
    (mirrors : Mirrors ladders s.1 book) {id : UInt64}
    (absent : book.lookup id = none) :
    let answer := ExchangeCoreStage.removed core s id
    Mirrors ladders answer.1.1 book ∧ answer.2 ≠ .success := by
  have ⟨after, failed⟩ := correct.cancelUnknown s.1
    (cancelCommand s.2 id.toInt64) rfl (mirrors.not_rests absent)
  refine ⟨?_, failed⟩
  change StandsFor Link Eq 1
    (ladders (core.cancelOrder s.1 (cancelCommand s.2 id.toInt64)).1) _
  rw [after]
  exact mirrors

/-- The residual that the handlers cancel is what is left. -/
theorem stagedResidual_eq
    {o : NewOrder} {trades : List MatcherTradeEvent} {left : Nat}
    (nonneg : ∀ evt ∈ trades, 0 ≤ evt.size.toInt)
    (whole : total trades + left = o.quantity.toNat) :
    stagedResidual o trades =
      if o.ioc ≠ 0 ∧ left ≠ 0 then
        [ackReport meCancelAck o.sequenceNumber o.orderId o.side o.priceTicks
          (UInt32.ofNat left)]
      else [] := by
  have few := o.quantity.toNat_lt
  have staged : stagedFilled trades = UInt64.ofNat (0 + total trades) :=
    foldl_staged nonneg (by omega) 0
  rw [Nat.zero_add] at staged
  have unsigned : o.quantity.toUInt64 = UInt64.ofNat o.quantity.toNat := by
    simp
  have less :
      stagedFilled trades < o.quantity.toUInt64 ↔ left ≠ 0 := by
    rw [staged, unsigned, UInt64.lt_iff_toNat_lt,
      UInt64.toNat_ofNat_of_lt' (show total trades < 2 ^ 64 by omega),
      UInt64.toNat_ofNat_of_lt' (show o.quantity.toNat < 2 ^ 64 by omega)]
    omega
  have rest :
      (o.quantity.toUInt64 - stagedFilled trades).toUInt32 =
        UInt32.ofNat left := by
    rw [staged, unsigned, ← UInt64.ofNat_sub (by omega),
      UInt64.toUInt32_ofNat', show o.quantity.toNat - total trades = left
        by omega]
  rw [stagedResidual, rest]
  exact if_congr (and_congr_right fun _ => less) rfl rfl

/-! ## Messages -/

/-- Prices that the engine orders as numbers. -/
def Positive (allowed : Int64 → Prop) : Prop :=
  ∀ price, allowed price → 0 < price.toInt

/-- A message that is legal, in range and makes few enough trades. -/
structure Served
    (allowed : Int64 → Prop) (book : LiveBook) (m : Msg) : Prop where
  legal : Legal allowed book m
  inRange : InRange m
  few : (tradeReports (Reference.step book m).2).length ≤ stageCap

/-- The engine's answer to a message, next to the reference's. -/
structure Agrees
    (ladders : core.State → Sides Int64 Int64) (s : EngineState core)
    (book : LiveBook) (m : Msg) : Prop where
  mirrors : Mirrors ladders (next core s m).1 (Reference.step book m).1
  reports : SameReports (reportsWith stagedResidual core s m)
    (Reference.step book m).2
  batched : reportsWith batchResidual core s m =
    reportsWith stagedResidual core s m
  fills : (fills core s m).length =
    (tradeReports (Reference.step book m).2).length

variable {allowed : Int64 → Prop}

theorem Mirrors.newOrder
    (correct : Correct core snapshots ladders)
    (positive : Positive allowed) (mirrors : Mirrors ladders s.1 book)
    {o : NewOrder} (legal : Legal allowed book (.newOrder o))
    (inRange : InRange (.newOrder o)) :
    Agrees ladders s book (.newOrder o) := by
  obtain ⟨fresh, _, some_, permitted⟩ := legal
  obtain ⟨flag, small⟩ := inRange
  have flagged :
      decide (orderTypeOf (Int32.ofNat o.ioc.toNat) = .gtc) =
        decide (o.ioc = 0) := by
    rcases flag with zero | one
    · rw [zero]
      rfl
    · rw [one]
      rfl
  have ⟨kept, others, trades, alike⟩ := @Mirrors.placed _ _ _ s _ correct
    mirrors (submittedOrder o) fresh o.quantity rfl some_ small
    (positive _ permitted) o.side (orderTypeOf (Int32.ofNat o.ioc.toNat))
  rw [flagged] at kept alike
  have filled : fills core s (.newOrder o) = others.map tradeEvent := trades
  have conserved := book.submit_conserves (sideOf o.side) (submittedOrder o)
    (o.ioc = 0) fresh
  have quantity : (submittedOrder o).qty = o.quantity.toNat := rfl
  obtain ⟨nonneg, sum⟩ := total_tradeEvent alike (by omega)
  have residual := @stagedResidual_eq o (others.map tradeEvent) _ nonneg
    (by rw [sum]; exact conserved)
  have reports :
      reportsWith stagedResidual core s (.newOrder o) =
        (Reference.newOrder book o).2 := by
    rw [reportsWith, filled, residual,
      eventReport_tradeEvent _ _ alike, Reference.newOrder, dif_pos fresh]
  constructor
  · rw [Reference.step, Reference.newOrder, dif_pos fresh]
    exact kept
  · rw [reports]
    exact SameReports.refl _
  · rw [reportsWith, reportsWith, filled,
      residual_eq flag small nonneg (by omega)]
  · have same := tradeReports_reportsWith noTrades_staged core s
      (.newOrder o)
    rw [reports] at same
    rw [Reference.step, same, List.length_map]

theorem Mirrors.cancel
    (correct : Correct core snapshots ladders)
    (mirrors : Mirrors ladders s.1 book) (c : Cancel) :
    Agrees ladders s book (.cancel c) := by
  cases found : book.lookup c.orderId with
  | none =>
      obtain ⟨kept, failed⟩ := mirrors.absent correct found
      constructor
      · rw [Reference.step, Reference.cancel, found]
        exact kept
      · rw [Reference.step, Reference.cancel, found, reportsWith,
          if_pos failed]
        exact SameReports.refl _
      · rfl
      · rw [Reference.step, Reference.cancel, found]
        rfl
  | some entry =>
      obtain ⟨side, o⟩ := entry
      obtain ⟨kept, success, ownSide, price⟩ :=
        mirrors.removed correct found
      constructor
      · rw [Reference.step, Reference.cancel, found]
        exact kept
      · rw [Reference.step, Reference.cancel, found, reportsWith,
          if_neg (not_not.mpr success), ownSide, price]
        exact SameReports.singleton ⟨rfl, rfl, rfl⟩
      · rfl
      · rw [Reference.step, Reference.cancel, found]
        rfl

theorem Mirrors.modify
    (correct : Correct core snapshots ladders)
    (positive : Positive allowed) (mirrors : Mirrors ladders s.1 book)
    {m : Modify} (legal : Legal allowed book (.modify m))
    (inRange : InRange (.modify m)) :
    Agrees ladders s book (.modify m) := by
  cases found : book.lookup m.orderId with
  | none =>
      obtain ⟨kept, failed⟩ := mirrors.absent correct found
      constructor
      · rw [Reference.step, Reference.modify, found, next, if_pos failed]
        exact kept
      · rw [Reference.step, Reference.modify, found, reportsWith,
          if_pos failed]
        exact SameReports.refl _
      · rfl
      · rw [Reference.step, Reference.modify, found, fills, if_pos failed]
        rfl
  | some entry =>
      obtain ⟨side, o⟩ := entry
      obtain ⟨_, some_, permitted, own⟩ := legal
      have sided : sideOf m.side = side := by
        rw [own side o found, sideOf_sideByte]
      obtain ⟨withdrawn, success, -, -⟩ := mirrors.removed correct found
      have fresh := book.lookup_withdraw_self m.orderId
      obtain ⟨kept, others, trades, alike⟩ := @Mirrors.placed _ _ _
        (ExchangeCoreStage.removed core s m.orderId).1 _ correct withdrawn
        (modifiedOrder m) fresh m.newQuantity rfl some_ inRange
        (positive _ permitted) m.side .gtc
      rw [sided] at kept alike
      have filled : fills core s (.modify m) = others.map tradeEvent := by
        rw [fills, if_neg (not_not.mpr success)]
        exact trades
      have reports :
          reportsWith stagedResidual core s (.modify m) =
            (Reference.modify book m).2 := by
        rw [reportsWith, if_neg (not_not.mpr success), filled,
          eventReport_tradeEvent _ _ alike, Reference.modify, found,
          own side o found]
        rfl
      constructor
      · rw [Reference.step, Reference.modify, found, next,
          if_neg (not_not.mpr success)]
        exact kept
      · rw [reports]
        exact SameReports.refl _
      · rfl
      · have same := tradeReports_reportsWith noTrades_staged core s
          (.modify m)
        rw [reports] at same
        rw [Reference.step, same, List.length_map]

/-- Every legal message in range is answered as by the reference. -/
theorem Mirrors.agrees
    (correct : Correct core snapshots ladders)
    (positive : Positive allowed) (mirrors : Mirrors ladders s.1 book)
    {m : Msg} (legal : Legal allowed book m) (inRange : InRange m) :
    Agrees ladders s book m := by
  cases m with
  | newOrder o => exact mirrors.newOrder correct positive legal inRange
  | cancel c => exact mirrors.cancel correct c
  | modify m => exact mirrors.modify correct positive legal inRange

/-- A run of served messages fits and is answered as by the reference. -/
theorem Mirrors.run
    (correct : Correct core snapshots ladders)
    (positive : Positive allowed) {msgs : List Msg}
    (mirrors : Mirrors ladders s.1 book)
    (served : Admitted Reference.step (Served allowed) book msgs) :
    let machine := answers batchResidual core
    Admitted machine (FitsStage core) s msgs ∧
      Mirrors ladders (final machine s msgs).1
        (final Reference.step book msgs) ∧
      SameReports (output machine s msgs)
        (output Reference.step book msgs) := by
  induction msgs generalizing s book with
  | nil => exact ⟨trivial, mirrors, SameReports.refl []⟩
  | cons m msgs induction =>
      obtain ⟨here, later⟩ := served
      have agrees := mirrors.agrees correct positive here.legal here.inRange
      obtain ⟨fits, kept, same⟩ :=
        @induction (next core s m) _ agrees.mirrors later
      refine ⟨⟨?_, fits⟩, kept, ?_⟩
      · rw [FitsStage, agrees.fills]
        exact here.few
      · refine SameReports.append _ _ _ _ ?_ same
        rw [answers, agrees.batched]
        exact agrees.reports

/-! ## Trades -/

theorem tradeReports_tradeReport
    (seq taker : UInt64) (fills : List (Fill UInt64 Int64)) :
    tradeReports (fills.map (tradeReport seq taker)) =
      fills.map (tradeReport seq taker) := by
  apply List.filter_eq_self.mpr
  intro report member
  obtain ⟨fill, -, rfl⟩ := List.mem_map.mp member
  rfl

/-- An order makes at most one trade for each lot. -/
theorem tradeReports_length_le {m : Msg} (few : lots m ≤ stageCap) :
    (tradeReports (Reference.step book m).2).length ≤ stageCap := by
  cases m with
  | newOrder o =>
      rw [Reference.step, Reference.newOrder]
      split
      · rename_i fresh
        have trades := @length_fills_le _ _ _ (sideOf o.side) o.priceTicks _
          (book.positive (sideOf o.side).opposite) o.quantity.toNat
        have residual (left : Nat) :
            tradeReports
                (if o.ioc ≠ 0 ∧ left ≠ 0 then
                  [ackReport meCancelAck o.sequenceNumber o.orderId o.side
                    o.priceTicks (UInt32.ofNat left)]
                else []) = [] := by
          split
          · exact tradeReports_ack (by decide) _ _ _ _ _
          · rfl
        change (tradeReports ([_] ++ (_ ++ _))).length ≤ _
        rw [tradeReports_append, tradeReports_append,
          tradeReports_ack (by decide), residual, tradeReports_tradeReport,
          List.nil_append, List.append_nil, List.length_map]
        exact trades.trans few
      · exact Nat.zero_le _
  | cancel c =>
      rw [Reference.step, Reference.cancel]
      split
      · exact Nat.zero_le _
      · exact Nat.zero_le _
  | modify m =>
      rw [Reference.step, Reference.modify]
      split
      · rename_i side o found
        have trades := @length_fills_le _ _ _ side m.newPriceTicks _
          ((book.withdraw m.orderId).positive side.opposite)
          m.newQuantity.toNat
        change (tradeReports (_ ++ _)).length ≤ _
        rw [tradeReports_append, tradeReports_ack (by decide),
          tradeReports_tradeReport, List.append_nil, List.length_map]
        exact trades.trans few
      · exact Nat.zero_le _

/-- So a legal message of few lots is served. -/
theorem served_of_lots
    {m : Msg} (legal : Legal allowed book m) (flagged : Flagged m)
    (few : lots m ≤ stageCap) : Served allowed book m := by
  have small : stageCap < 2 ^ 31 := by decide
  refine ⟨legal, ?_, tradeReports_length_le few⟩
  cases m with
  | newOrder o => exact ⟨flagged, Nat.lt_of_le_of_lt few small⟩
  | cancel c => trivial
  | modify m => exact Nat.lt_of_le_of_lt few small

/-! ## Queries -/

/-- The engine publishes the levels of the reference book. -/
theorem Mirrors.l2
    (correct : Correct core snapshots ladders)
    (mirrors : Mirrors ladders s.1 book) (side : Side) :
    snapshots.l2 s.1 side =
      (levels (book.ladder side)).map fun entry =>
        (entry.1, Int64.ofNat entry.2) := by
  have alike := alike_levels orderCompatible_eq (mirrors side)
  rw [correct.l2]
  generalize levels (book.ladder side) = entries at alike ⊢
  generalize levels (ladders s.1 side) = others at alike ⊢
  induction alike with
  | nil => rfl
  | @cons entry other entries others head _ induction =>
      have volume : other.2 = entry.2 := head.qty.trans (Nat.one_mul _)
      rw [List.map_cons, List.map_cons, induction, volume, head.price]

/-- The first of the published levels. -/
theorem Mirrors.best
    (correct : Correct core snapshots ladders)
    (mirrors : Mirrors ladders s.1 book) (side : Side) :
    ((snapshots.l2 s.1 side).take 1).head?.map Prod.fst =
      book.best side := by
  rw [mirrors.l2 correct, List.head?_take, if_neg Nat.one_ne_zero,
    List.head?_map, Option.map_map, Book.best, ← head_levels]
  rfl

theorem Mirrors.bestBid
    (correct : Correct core snapshots ladders)
    (mirrors : Mirrors ladders s.1 book) :
    ExchangeCoreRefinement.bestBid snapshots s.1 =
      Reference.bestBid book := by
  rw [Reference.bestBid, ← mirrors.best correct .buy]
  unfold ExchangeCoreRefinement.bestBid
  cases (snapshots.l2 s.1 .buy).take 1 <;> rfl

theorem Mirrors.bestAsk
    (correct : Correct core snapshots ladders)
    (mirrors : Mirrors ladders s.1 book) :
    ExchangeCoreRefinement.bestAsk snapshots s.1 =
      Reference.bestAsk book := by
  rw [Reference.bestAsk, ← mirrors.best correct .sell]
  unfold ExchangeCoreRefinement.bestAsk
  cases (snapshots.l2 s.1 .sell).take 1 <;> rfl

/-- The volume at a price, as long as the snapshot shows all levels. -/
theorem Mirrors.depthAt
    (correct : Correct core snapshots ladders)
    (mirrors : Mirrors ladders s.1 book) (few : book.size ≤ maxLevels)
    (price : Int64) (side : UInt8) :
    engineQueryDepthAt snapshots s.1 price side =
      Reference.depthAt book price side := by
  have sided :
      (if Int32.ofNat side.toNat = 0 then Side.buy else .sell) =
        sideOf side := by
    rw [← sideOfAction_ofNat side]
    split <;> rfl
  have all :
      (snapshots.l2 s.1 (sideOf side)).take maxLevels =
        snapshots.l2 s.1 (sideOf side) := by
    refine List.take_of_length_le ?_
    have shown := length_levels_le (book.ladder (sideOf side))
    rw [Book.size_eq book (sideOf side)] at few
    rw [mirrors.l2 correct, List.length_map]
    omega
  rw [engineQueryDepthAt, ExchangeCoreRefinement.depthAt, sided, all,
    mirrors.l2 correct, ← depth_of_find, wireLevels, List.find?_map,
    List.find?_map]
  simp only [Function.comp_def]
  cases (levels (book.ladder (sideOf side))).find? (·.1 = price) with
  | none => rfl
  | some entry => simp

end Refinement

end MatchingBench.Baselines.ExchangeCoreRefinement
