import MatchingBench.Adapters
import MatchingBench.Baselines.QuantCup
import MatchingBench.Lib.Scans
import Mathlib.Tactic.Positivity

/-!
# The QuantCup adapter's shadow

The table of `OrderState` slots, seen by identifier: what the fill callback
does to it, and what the queries that scan it find.
-/

set_option autoImplicit false

namespace MatchingBench.Baselines.QuantCupShadow

open MatchingBench.Api
open MatchingBench.Adapters
open MatchingBench.Lib.PriceTime
open MatchingBench.Lib.OrderBook
open MatchingBench.Lib.Correspondence
open MatchingBench.Lib.Tables
open MatchingBench.Lib.Scans
open MatchingBench.Reference
open MatchingBench.Baselines.QuantCup

/-! ## Identifiers -/

theorem toNat_shiftAmount {shift : Nat} (within : shift < 64) :
    (UInt64.ofNat shift).toNat % 64 = shift := by
  rw [UInt64.toNat_ofNat_of_lt' (Nat.lt_trans within (by decide)),
    Nat.mod_eq_of_lt within]

/-- Joining a byte above a number that ends below it. -/
theorem toNat_or_shift
    {low : UInt64} {byte : UInt8} {shift : Nat}
    (below : low.toNat < 2 ^ shift) (room : shift + 8 ≤ 64) :
    (low ||| byte.toUInt64 <<< UInt64.ofNat shift).toNat =
      low.toNat + byte.toNat * 2 ^ shift := by
  have bound : byte.toNat * 2 ^ shift < 2 ^ 64 := by
    calc
      byte.toNat * 2 ^ shift < 2 ^ 8 * 2 ^ shift :=
        Nat.mul_lt_mul_of_pos_right byte.toNat_lt (by positivity)
      _ = 2 ^ (8 + shift) := (Nat.pow_add 2 8 shift).symm
      _ ≤ 2 ^ 64 := Nat.pow_le_pow_right (by decide) (by omega)
  have amount := toNat_shiftAmount (show shift < 64 by omega)
  rw [UInt64.toNat_or, UInt64.toNat_shiftLeft, UInt8.toNat_toUInt64, amount,
    Nat.shiftLeft_eq, Nat.mod_eq_of_lt bound, ← Nat.shiftLeft_eq, Nat.or_comm,
    ← Nat.shiftLeft_add_eq_or_of_lt below, Nat.add_comm]

theorem toNat_byte (word : UInt64) {shift : Nat} (within : shift < 64) :
    ((word >>> UInt64.ofNat shift) &&& 0xFF).toUInt8.toNat =
      word.toNat / 2 ^ shift % 256 := by
  have amount := toNat_shiftAmount (show shift < 64 by omega)
  rw [UInt64.toNat_toUInt8, UInt64.toNat_and, UInt64.toNat_shiftRight, amount,
    Nat.shiftRight_eq_div_pow,
    show (0xFF : UInt64).toNat = 2 ^ 8 - 1 from rfl,
    Nat.and_two_pow_sub_one_eq_mod]
  omega

theorem toNat_decodeId (f : Field) :
    (decodeId f).toNat =
      f.c0.toNat + f.c1.toNat * 2 ^ 8 + f.c2.toNat * 2 ^ 16 +
        f.c3.toNat * 2 ^ 24 := by
  have ⟨c0, c1, c2⟩ :
      f.c0.toNat < 2 ^ 8 ∧ f.c1.toNat < 2 ^ 8 ∧ f.c2.toNat < 2 ^ 8 :=
    ⟨f.c0.toNat_lt, f.c1.toNat_lt, f.c2.toNat_lt⟩
  have one : (f.c0.toUInt64 ||| f.c1.toUInt64 <<< 8).toNat =
      f.c0.toNat + f.c1.toNat * 2 ^ 8 :=
    @toNat_or_shift f.c0.toUInt64 f.c1 8 c0 (by decide)
  have two :
      (f.c0.toUInt64 ||| f.c1.toUInt64 <<< 8 ||| f.c2.toUInt64 <<< 16).toNat =
        (f.c0.toUInt64 ||| f.c1.toUInt64 <<< 8).toNat +
          f.c2.toNat * 2 ^ 16 :=
    @toNat_or_shift _ f.c2 16 (by omega) (by decide)
  have three : (decodeId f).toNat = _ :=
    @toNat_or_shift _ f.c3 24 (by omega) (by decide)
  rw [three, two, one]

/-- Identifiers of four bytes survive the encoding. -/
theorem decodeId_encodeId {id : UInt64} (small : id.toNat < 2 ^ 32) :
    decodeId (encodeId id) = id := by
  have c0 : (encodeId id).c0.toNat = id.toNat % 256 := by
    have shifted := toNat_byte id (show 0 < 64 by decide)
    simpa [encodeId] using shifted
  have c1 : (encodeId id).c1.toNat = id.toNat / 2 ^ 8 % 256 :=
    toNat_byte id (by decide)
  have c2 : (encodeId id).c2.toNat = id.toNat / 2 ^ 16 % 256 :=
    toNat_byte id (by decide)
  have c3 : (encodeId id).c3.toNat = id.toNat / 2 ^ 24 % 256 :=
    toNat_byte id (by decide)
  apply UInt64.toNat_inj.mp
  rw [toNat_decodeId, c0, c1, c2, c3]
  omega

theorem encodeId_inj
    {a b : UInt64} (smallA : a.toNat < 2 ^ 32) (smallB : b.toNat < 2 ^ 32)
    (same : encodeId a = encodeId b) : a = b := by
  rw [← decodeId_encodeId smallA, same, decodeId_encodeId smallB]

/-! ## The shadow -/

/-- A slot as a resting order. -/
def shadowOrder (id : UInt64) (s : OrderState) :
    Option (Side × Resting UInt64 Int64) :=
  if s.alive then
    some (sideOf s.side, { id := id, price := s.price, qty := s.qty.toNat })
  else
    none

/-- The shadow table, seen by identifier. -/
def shadowView (orders : List OrderState) : View UInt64 Int64 :=
  fun id => (findOrder orders id).bind (shadowOrder id)

theorem findOrder_update
    (orders : List OrderState) (id : UInt64) (change : OrderState → OrderState)
    (other : UInt64) :
    findOrder (update orders id.toNat change) other =
      if other = id then (findOrder orders other).map change
      else findOrder orders other := by
  unfold findOrder
  rw [getElem?_update]
  simp only [UInt64.toNat_inj]

theorem shadowView_update
    (orders : List OrderState) (id : UInt64)
    (change : OrderState → OrderState) :
    shadowView (update orders id.toNat change) =
      Function.update (shadowView orders) id
        ((findOrder orders id).bind fun s => shadowOrder id (change s)) := by
  funext other
  unfold shadowView
  rw [findOrder_update]
  by_cases same : other = id
  · subst same
    rw [if_pos rfl, Function.update_self, Option.bind_map]
    rfl
  · rw [if_neg same, Function.update_of_ne same]

/-- What fills leave alone in a slot. -/
def handle (s : OrderState) : UInt8 × Nat :=
  (s.side, s.qcid)

theorem handle_fill (s : OrderState) (qty : UInt32) :
    handle (s.fill qty) = handle s := by
  unfold OrderState.fill
  split <;> rfl

/-- An update that keeps the handles. -/
theorem map_handle_update
    {change : OrderState → OrderState}
    (keeps : ∀ s, handle (change s) = handle s) (orders : List OrderState)
    (index : Nat) :
    (update orders index change).map handle = orders.map handle := by
  apply List.ext_getElem?
  intro other
  rw [List.getElem?_map, List.getElem?_map, getElem?_update]
  split
  · rw [Option.map_map]
    exact congrArg (Option.map · _) (funext keeps)
  · rfl

/-- Filling a resting order reduces it in the view. -/
theorem shadowView_fill
    {orders : List OrderState} {side : Side} {fill : Fill UInt64 Int64}
    (found : shadowView orders fill.maker.id = some (side, fill.maker))
    (within : fill.qty ≤ fill.maker.qty) :
    shadowView
        (update orders fill.maker.id.toNat
          fun s => s.fill (UInt32.ofNat fill.qty)) =
      reduce side (shadowView orders) fill := by
  rw [shadowView_update, reduce]
  congr 1
  unfold shadowView at found
  cases stored : findOrder orders fill.maker.id with
  | none =>
      rw [stored] at found
      cases found
  | some s =>
      rw [stored, Option.bind_some, shadowOrder] at found
      rw [Option.bind_some]
      split at found
      · rename_i alive
        have shown := Option.some.inj found
        have sides : sideOf s.side = side := congrArg Prod.fst shown
        have maker : _ = fill.maker := congrArg Prod.snd shown
        have open_ : s.qty.toNat = fill.maker.qty := congrArg Resting.qty maker
        have price : s.price = fill.maker.price :=
          congrArg Resting.price maker
        have exact_ : (UInt32.ofNat fill.qty).toNat = fill.qty :=
          UInt32.toNat_ofNat_of_lt'
            (Nat.lt_of_le_of_lt (open_ ▸ within) s.qty.toNat_lt)
        have part : s.qty > UInt32.ofNat fill.qty ↔
            fill.qty < fill.maker.qty := by
          rw [gt_iff_lt, UInt32.lt_iff_toNat_lt, exact_, open_]
        unfold OrderState.fill
        by_cases some_ : fill.qty < fill.maker.qty
        · rw [if_pos (part.mpr some_), if_pos some_]
          have less : (s.qty - UInt32.ofNat fill.qty).toNat =
              fill.remaining := by
            rw [UInt32.toNat_sub_of_le _ _
              (UInt32.le_of_lt (part.mpr some_)), exact_, open_]
            rfl
          simp only [shadowOrder, alive, if_true, sides, price, less]
        · rw [if_neg fun more => some_ (part.mp more), if_neg some_]
          rfl
      · cases found

theorem findOrder_of_handles
    {before after : List OrderState}
    (same : after.map handle = before.map handle) (id : UInt64) :
    (findOrder after id).map handle = (findOrder before id).map handle := by
  unfold findOrder
  rw [← List.getElem?_map, same, List.getElem?_map]

/-- Every slot has a side of the API. -/
def Wired (orders : List OrderState) : Prop :=
  ∀ h ∈ orders.map handle, h.1 = 0 ∨ h.1 = 1

theorem Wired.update
    {orders : List OrderState} (wired : Wired orders) {index : Nat}
    {change : OrderState → OrderState}
    (valid : ∀ s, (s.side = 0 ∨ s.side = 1) →
      (change s).side = 0 ∨ (change s).side = 1) :
    Wired (update orders index change) := by
  intro h member
  rcases List.mem_map.mp member with ⟨s, inside, rfl⟩
  rcases List.mem_iff_getElem?.mp inside with ⟨other, found⟩
  have slot (s : OrderState) (found : orders[other]? = some s) :
      s.side = 0 ∨ s.side = 1 :=
    wired (handle s)
      (List.mem_map_of_mem (List.mem_iff_getElem?.mpr ⟨other, found⟩))
  rw [getElem?_update] at found
  split at found
  · rcases Option.map_eq_some_iff.mp found with ⟨old, stored, rfl⟩
    exact valid old (slot old stored)
  · exact slot s found

theorem wired_of_handles
    {before after : List OrderState} (wired : Wired before)
    (same : after.map handle = before.map handle) : Wired after := by
  rw [Wired, same]
  exact wired

theorem length_of_handles
    {before after : List OrderState}
    (same : after.map handle = before.map handle) :
    after.length = before.length := by
  simpa using congrArg List.length same

/-! ## The callback -/

/-- The side of a native order built for a side of the API. -/
def nativeSide (side : UInt8) : Nat :=
  if side = 0 then 0 else 1

theorem tSide_nativeSide (side : UInt8) :
    tSide (nativeSide side) = sideOf side := by
  unfold tSide nativeSide sideOf
  split <;> rfl

/-- The test of the callback for the resting party. -/
def makerCall (takerSide : UInt8) (exec : TExecution) : Bool :=
  if takerSide = 0 then exec.side == 1 else exec.side == 0

/-- Of two calls per fill, the test keeps the maker's. -/
theorem filter_makerCall
    {order : TOrder} {takerSide : UInt8}
    (sided : order.side = nativeSide takerSide)
    {fills : List (Fill (Nat × Field) Nat)} {executions : List TExecution}
    (reported : OncePerSide order fills executions) :
    executions.filter (makerCall takerSide) =
      fills.map (makerExecution order) := by
  induction reported with
  | nil => rfl
  | @cons fill pair fills executions both _ induction =>
      have own :
          [takerExecution order fill, makerExecution order fill].filter
              (makerCall takerSide) =
            [makerExecution order fill] := by
        unfold nativeSide at sided
        by_cases buys : takerSide = 0
        · rw [if_pos buys] at sided
          simp [makerCall, takerExecution, makerExecution, buys, sided]
        · rw [if_neg buys] at sided
          simp [makerCall, takerExecution, makerExecution, buys, sided]
      have kept := both.filter (makerCall takerSide)
      rw [own] at kept
      rw [List.filter_append, List.perm_singleton.mp kept, induction]
      rfl

/-- What one maker's call does, in the reference's terms. -/
def matchFill
    (seq takerId : UInt64) (m : Matching) (fill : Fill UInt64 Int64) :
    Matching where
  reports := m.reports ++ [tradeReport seq takerId fill]
  takerLeft :=
    if m.takerLeft ≥ UInt32.ofNat fill.qty then
      m.takerLeft - UInt32.ofNat fill.qty
    else
      m.takerLeft
  orders := update m.orders fill.maker.id.toNat fun s =>
    s.fill (UInt32.ofNat fill.qty)

/-- A name of the engine: its handle and the trader, who is the order. -/
def Link (orders : List OrderState) (id : UInt64) (name : Nat × Field) :
    Prop :=
  ∃ s, findOrder orders id = some s ∧ name = (s.qcid, encodeId id)

theorem Link.of_handle
    {before after : List OrderState} {id : UInt64} {name : Nat × Field}
    (same : (findOrder after id).map handle =
      (findOrder before id).map handle)
    (linked : Link before id name) : Link after id name := by
  rcases linked with ⟨s, stored, rfl⟩
  rw [stored, Option.map_some, Option.map_eq_some_iff] at same
  rcases same with ⟨other, found, handles⟩
  exact ⟨other, found, by rw [(Prod.mk.inj handles).2]⟩

theorem uint32_ofNat_of_ticks
    {price : Int64} {native : Nat}
    (ticks : ScaledTicks QcPrice 1 price native) :
    native < 2 ^ 32 ∧ Int64.ofNat (UInt32.ofNat native).toNat = price := by
  have high := ticks.1.2
  have equal := ticks.2
  have small : native < 2 ^ 32 := by
    simp only [kNumPricePoints] at high
    omega
  refine ⟨small, ?_⟩
  rw [UInt32.toNat_ofNat_of_lt' small]
  exact ofNat_of_ticks ticks

/-- The calls for a limit order's fills. -/
theorem foldl_execution
    {order : TOrder} {takerSide : UInt8}
    (sided : order.side = nativeSide takerSide) {seq takerId : UInt64}
    {link : UInt64 → Nat × Field → Prop}
    {fills : List (Fill UInt64 Int64)}
    {others : List (Fill (Nat × Field) Nat)} {executions : List TExecution}
    (reported : OncePerSide order others executions)
    (alike : List.Forall₂ (AlikeFill link (ScaledTicks QcPrice 1) 1) fills
      others)
    (trader : ∀ fill ∈ fills, ∀ name, link fill.maker.id name →
      decodeId name.2 = fill.maker.id)
    (m : Matching) :
    executions.foldl (execution seq takerId takerSide) m =
      fills.foldl (matchFill seq takerId) m := by
  have calls :
      executions.foldl (execution seq takerId takerSide) m =
        (executions.filter (makerCall takerSide)).foldl
          (execution seq takerId takerSide) m := by
    rw [List.foldl_filter]
    congr 1
    funext m exec
    unfold execution makerCall
    split <;> split <;> simp_all
  rw [calls, filter_makerCall sided reported]
  clear calls reported
  induction alike generalizing m with
  | nil => rfl
  | @cons fill other fills others head _ induction =>
      have called :
          execution seq takerId takerSide m (makerExecution order other) =
            matchFill seq takerId m fill := by
        have resting : (makerExecution order other).side = 1 - order.side :=
          rfl
        have id : decodeId (makerExecution order other).trader =
            fill.maker.id :=
          trader fill List.mem_cons_self _ head.maker.id
        have size : (makerExecution order other).size = fill.qty :=
          head.qty.trans (Nat.one_mul _)
        have price :
            Int64.ofNat (makerExecution order other).price.toNat =
              fill.maker.price :=
          (uint32_ofNat_of_ticks head.maker.price).2
        have call :
            (if takerSide = 0 then (makerExecution order other).side = 1
              else (makerExecution order other).side = 0) := by
          rw [resting, sided, nativeSide]
          split <;> rfl
        unfold execution
        simp only [call, if_true, id, size, price]
        rfl
      rw [List.map_cons, List.foldl_cons, List.foldl_cons, called]
      exact induction
        (fun later member =>
          trader later (List.mem_cons_of_mem _ member)) _

/--
The callback's state while an order trades: the other orders are as in a view,
the order's own slot has not been touched.
-/
structure InStep
    (takerId : UInt64) (before : List OrderState) (view : View UInt64 Int64)
    (m : Matching) : Prop where
  others : Function.update (shadowView m.orders) takerId none = view
  own : findOrder m.orders takerId = findOrder before takerId
  handles : m.orders.map handle = before.map handle

theorem InStep.matchFill
    {seq takerId : UInt64} {before : List OrderState}
    {view : View UInt64 Int64} {m : Matching} {side : Side}
    {fill : Fill UInt64 Int64} (inStep : InStep takerId before view m)
    (found : view fill.maker.id = some (side, fill.maker))
    (within : fill.qty ≤ fill.maker.qty) :
    InStep takerId before (reduce side view fill)
      (matchFill seq takerId m fill) := by
  have other : fill.maker.id ≠ takerId := by
    intro same
    rw [same, ← inStep.others, Function.update_self] at found
    cases found
  have shown : shadowView m.orders fill.maker.id = some (side, fill.maker) := by
    rw [← inStep.others, Function.update_of_ne other] at found
    exact found
  constructor
  · rw [QuantCupShadow.matchFill, shadowView_fill shown within, reduce,
      Function.update_comm other, inStep.others]
    rfl
  · rw [QuantCupShadow.matchFill, findOrder_update,
      if_neg (Ne.symm other)]
    exact inStep.own
  · rw [QuantCupShadow.matchFill,
      map_handle_update fun s => handle_fill s _]
    exact inStep.handles

theorem foldl_matchFill_reports
    (seq takerId : UInt64) (fills : List (Fill UInt64 Int64)) (m : Matching) :
    (fills.foldl (matchFill seq takerId) m).reports =
      m.reports ++ fills.map (tradeReport seq takerId) := by
  induction fills generalizing m with
  | nil => simp
  | cons fill fills induction =>
      rw [List.foldl_cons, induction]
      simp [matchFill]

theorem foldl_matchFill_takerLeft
    (seq takerId : UInt64) {fills : List (Fill UInt64 Int64)} {m : Matching}
    (enough : (fills.map Fill.qty).sum ≤ m.takerLeft.toNat) :
    (fills.foldl (matchFill seq takerId) m).takerLeft.toNat =
      m.takerLeft.toNat - (fills.map Fill.qty).sum := by
  induction fills generalizing m with
  | nil => simp
  | cons fill fills induction =>
      rw [List.map_cons, List.sum_cons] at enough
      have bound := m.takerLeft.toNat_lt
      have size : (UInt32.ofNat fill.qty).toNat = fill.qty :=
        UInt32.toNat_ofNat_of_lt' (by simp only [UInt32.size]; omega)
      have covers : UInt32.ofNat fill.qty ≤ m.takerLeft := by
        rw [UInt32.le_iff_toNat_le, size]
        omega
      have less : (matchFill seq takerId m fill).takerLeft.toNat =
          m.takerLeft.toNat - fill.qty := by
        rw [matchFill, if_pos covers, UInt32.toNat_sub_of_le _ _ covers, size]
      rw [List.foldl_cons, induction (by rw [less]; omega), less,
        List.map_cons, List.sum_cons, Nat.sub_sub]

/-! ## Scanning the shadow -/

/-- The order a scan finds in a slot, if it is on the side. -/
def scannedSlot (side : Side) (slot : OrderState × Nat) :
    Option (Resting UInt64 Int64) :=
  if slot.1.alive = true ∧ sideOf slot.1.side = side then
    some
      { id := UInt64.ofNat slot.2
        price := slot.1.price
        qty := slot.1.qty.toNat }
  else
    none

/-- The orders a scan finds on a side. -/
def scanned (side : Side) (orders : List OrderState) :
    List (Resting UInt64 Int64) :=
  orders.zipIdx.filterMap (scannedSlot side)

section Scanned

variable {orders : List OrderState} {side : Side}

theorem mem_scanned
    (bounded : orders.length ≤ 2 ^ 64) {o : Resting UInt64 Int64} :
    o ∈ scanned side orders ↔ shadowView orders o.id = some (side, o) := by
  unfold scanned shadowView
  rw [List.mem_filterMap, Option.bind_eq_some_iff]
  constructor
  · rintro ⟨⟨s, index⟩, member, found⟩
    rw [List.mem_zipIdx_iff_getElem?] at member
    rw [scannedSlot] at found
    split at found
    · rename_i live
      cases found
      have inside := (List.getElem?_eq_some_iff.mp member).1
      have back : (UInt64.ofNat index).toNat = index :=
        UInt64.toNat_ofNat_of_lt' (Nat.lt_of_lt_of_le inside bounded)
      refine ⟨s, by rw [findOrder, back]; exact member, ?_⟩
      rw [shadowOrder, if_pos live.1, live.2]
    · cases found
  · rintro ⟨s, stored, shows⟩
    refine ⟨(s, o.id.toNat), List.mem_zipIdx_iff_getElem?.mpr stored, ?_⟩
    rw [shadowOrder] at shows
    split at shows
    · rename_i alive
      have parts := Prod.mk.inj (Option.some.inj shows)
      rw [scannedSlot, if_pos ⟨alive, parts.1⟩, ← parts.2,
        UInt64.ofNat_toNat]
    · cases shows

theorem nodup_scanned (bounded : orders.length ≤ 2 ^ 64) :
    (scanned side orders).Nodup := by
  have indices : orders.zipIdx.Pairwise fun a b => a.2 ≠ b.2 := by
    have range := @List.nodup_range' 0 orders.length 1
    rw [← List.zipIdx_map_snd] at range
    exact List.pairwise_map.mp range
  refine List.pairwise_filterMap.mpr (indices.imp_of_mem ?_)
  rintro ⟨s, i⟩ ⟨t, j⟩ first second different o found p also same
  subst same
  rw [List.mem_zipIdx_iff_getElem?] at first second
  have insideI := (List.getElem?_eq_some_iff.mp first).1
  have insideJ := (List.getElem?_eq_some_iff.mp second).1
  rw [scannedSlot] at found also
  split at found
  · cases found
    split at also
    · have ids := congrArg UInt64.toNat
        (congrArg Resting.id (Option.some.inj also))
      rw [UInt64.toNat_ofNat_of_lt' (Nat.lt_of_lt_of_le insideJ bounded),
        UInt64.toNat_ofNat_of_lt' (Nat.lt_of_lt_of_le insideI bounded)] at ids
      exact different ids.symm
    · cases also
  · cases found

/-- A scan of a side finds its ladder, in another order. -/
theorem scanned_perm
    (bounded : orders.length ≤ 2 ^ 64) {book : LiveBook}
    (shadow : shadowView orders = book.lookup) :
    (scanned side orders).Perm (book.ladder side) := by
  refine (List.perm_ext_iff_of_nodup (nodup_scanned bounded)
    (List.Nodup.of_map _ (book.distinct_ladder side))).mpr fun o => ?_
  rw [mem_scanned bounded, shadow, Book.lookup_eq_some_iff]
  exact and_iff_left rfl

/-- Folding over the slots is folding over what a scan finds. -/
theorem foldl_scanned
    {β : Type} {combine : β → OrderState → β}
    {seen : β → Resting UInt64 Int64 → β}
    (combines : ∀ total s index, s ∈ orders →
      combine total s =
        match scannedSlot side (s, index) with
        | some o => seen total o
        | none => total)
    (start : β) :
    orders.foldl combine start = (scanned side orders).foldl seen start := by
  have slots :
      orders.foldl combine start =
        orders.zipIdx.foldl (fun total slot => combine total slot.1) start := by
    rw [← @List.foldl_map _ _ _ Prod.fst combine, List.zipIdx_map_fst]
  rw [slots, scanned, List.foldl_filterMap]
  refine List.foldl_ext _ _ _ fun total slot member => ?_
  have seen := combines total slot.1 slot.2 (List.fst_mem_of_mem_zipIdx member)
  rw [seen]
  split <;> simp_all

/-- The test of a scan for the live orders of a side. -/
theorem scannedSlot_eq
    (wired : Wired orders) {s : OrderState} (member : s ∈ orders)
    (index : Nat) :
    scannedSlot side (s, index) =
      if s.alive && s.side == sideByte side then
        some
          { id := UInt64.ofNat index, price := s.price, qty := s.qty.toNat }
      else
        none := by
  have valid : sideByte (sideOf s.side) = s.side :=
    sideByte_sideOf (wired (handle s) (List.mem_map_of_mem member))
  have same : s.side = sideByte side ↔ sideOf s.side = side := by
    constructor
    · intro equal
      rw [equal, sideOf_sideByte]
    · intro equal
      rw [← equal, valid]
  simp only [scannedSlot, Bool.and_eq_true, beq_iff_eq, same]

variable {book : LiveBook}

/-- A scan for the best price of a side. -/
theorem foldl_best
    (bounded : orders.length ≤ 2 ^ 64) (wired : Wired orders)
    (shadow : shadowView orders = book.lookup)
    {better : Int64 → Int64 → Bool}
    (beats : ∀ price best,
      better price best = true ↔ ¬side.atLeast best price)
    {start : Int64} (worst : ∀ price, side.atLeast price start) :
    orders.foldl
        (fun best s =>
          if s.alive && s.side == sideByte side && better s.price best then
            s.price
          else
            best)
        start =
      (book.best side).getD start := by
  have scan := @foldl_scanned orders side Int64
    (fun best s =>
      if s.alive && s.side == sideByte side && better s.price best then
        s.price
      else
        best)
    (fun best o => if side.atLeast best o.price then best else o.price)
    (fun best s index member => by
      rw [scannedSlot_eq wired member]
      by_cases live : (s.alive && s.side == sideByte side) = true
      · rw [if_pos live, live, Bool.true_and]
        simp only [beats, ite_not]
      · rw [if_neg live, eq_false_of_ne_true live, Bool.false_and]
        rfl)
    start
  have ladder := bestOf_ladder (scanned_perm bounded shadow)
    (book.sorted side) worst
  rw [bestOf, List.foldl_map] at ladder
  rw [scan, ladder, Book.best]

theorem queryBestBid_eq
    {core : Core} {st : State core} (bounded : st.orders.length ≤ 2 ^ 64)
    (wired : Wired st.orders) (shadow : shadowView st.orders = book.lookup) :
    engineQueryBestBid st = bestBid book :=
  @foldl_best _ .buy _ bounded wired shadow (fun price best => price > best)
    (fun price best => by
      rw [decide_eq_true_eq]
      exact not_le.symm)
    int64Min Int64.minValue_le

theorem queryBestAsk_eq
    {core : Core} {st : State core} (bounded : st.orders.length ≤ 2 ^ 64)
    (wired : Wired st.orders) (shadow : shadowView st.orders = book.lookup) :
    engineQueryBestAsk st = bestAsk book :=
  @foldl_best _ .sell _ bounded wired shadow (fun price best => price < best)
    (fun price best => by
      rw [decide_eq_true_eq]
      exact not_le.symm)
    int64Max Int64.le_maxValue

theorem queryDepthAt_eq
    {core : Core} {st : State core} (bounded : st.orders.length ≤ 2 ^ 64)
    (wired : Wired st.orders) (shadow : shadowView st.orders = book.lookup)
    (price : Int64) (side : Side) :
    engineQueryDepthAt st price (sideByte side) =
      depthAt book price (sideByte side) := by
  have scan := @foldl_scanned st.orders side UInt64
    (fun total s =>
      if s.alive && s.side == sideByte side && s.price == price then
        total + s.qty.toUInt64
      else
        total)
    (fun total o =>
      if o.price = price then total + UInt64.ofNat o.qty else total)
    (fun total s index member => by
      rw [scannedSlot_eq wired member]
      by_cases live : (s.alive && s.side == sideByte side) = true
      · have wide : s.qty.toUInt64 = UInt64.ofNat s.qty.toNat := by simp
        rw [if_pos live, live, Bool.true_and, wide]
        simp only [beq_iff_eq]
      · rw [if_neg live, eq_false_of_ne_true live, Bool.false_and]
        rfl)
    0
  have total := sum_level (@scanned_perm _ side bounded _ shadow) price
  unfold engineQueryDepthAt depthAt Book.depth
  rw [scan, sideOf_sideByte, ← total, ← UInt64.zero_add (UInt64.ofNat _),
    ← foldl_add_ofNat, level, List.foldl_filter]
  simp only [decide_eq_true_eq]

end Scanned

end MatchingBench.Baselines.QuantCupShadow
