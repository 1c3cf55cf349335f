import MatchingBench.Adapters
import MatchingBench.Oracles.HroptatyrClob

/-!
# The hroptatyr/clob adapter refines the reference matcher

A resting order is linked to the engine by the handle in its slot, which leads
back through its `usr`, and the liveness bits are those of the resting orders.
A handle is therefore only used while it rests.
-/

set_option autoImplicit false

namespace MatchingBench.Oracles.HroptatyrClobRefinement

open MatchingBench.Api
open MatchingBench.Adapters
open MatchingBench.Lib.PriceTime
open MatchingBench.Lib.OrderBook
open MatchingBench.Lib.Correspondence
open MatchingBench.Lib.Ladders
open MatchingBench.Lib.Levels
open MatchingBench.Lib.Tables
open MatchingBench.Reference
open MatchingBench.Oracles.HroptatyrClob

/-! ## Numbers -/

theorem toDec_exact
    {v : Int64} (small : v.toInt.natAbs < 10 ^ 16) : toDec v = v.toInt :=
  if_pos small

theorem toInt_toI64
    {n : Nat} (few : n < 2 ^ 63) : (toI64 n).toInt = n := by
  rw [toI64, Int64.ofInt_eq_ofNat]
  exact Int64.toInt_ofNat_of_lt few

theorem toUInt64_toI64 (n : Nat) : (toI64 n).toUInt64 = UInt64.ofNat n :=
  UInt64.eq_of_toBitVec_eq rfl

theorem toUInt32_toI64 (n : Nat) :
    (toI64 n).toUInt64.toUInt32 = UInt32.ofNat n := by
  rw [toUInt64_toI64]
  simp

theorem toI64_nonpos_iff
    {n : Nat} (few : n < 2 ^ 63) : toI64 n ≤ 0 ↔ n = 0 := by
  rw [Int64.le_iff_toInt_le, toInt_toI64 few, Int64.toInt_zero]
  omega

/-- A 32-bit quantity is exact. -/
theorem toDec_quantity (quan : UInt32) :
    toDec quan.toUInt64.toInt64 = quan.toNat := by
  have few := quan.toNat_lt
  rw [toDec_exact, toInt_quantity]
  rw [toInt_quantity]
  omega

theorem toDec_tick
    {price : Int64} (permitted : TickPrice price) :
    toDec price = price.toInt := by
  have ⟨low, high⟩ := permitted
  exact toDec_exact (by omega)

/-- An engine's price is an allowed tick. -/
def DecimalTicks (price : Int64) (native : Decimal64) : Prop :=
  TickPrice price ∧ native = price.toInt

theorem decimalTicks_compatible : OrderCompatible DecimalTicks := by
  rintro a a' b b' ⟨_, rfl⟩ ⟨_, rfl⟩
  exact Int64.le_iff_toInt_le

theorem toI64_ticks
    {price : Int64} {native : Decimal64} (ticks : DecimalTicks price native) :
    toI64 native = price := by
  rw [ticks.2]
  exact Int64.ofInt_toInt price

/-! ## Sizing the shadow -/

/-- Doubling passes every identifier below `2 ^ 63`. -/
theorem doubled_passes
    {fuel : Nat} {nuz id : UInt64} (small : id.toNat < 2 ^ 63)
    (enough : id.toNat < nuz.toNat * 2 ^ fuel) :
    ∃ size, doubled (fuel + 1) nuz id = some size := by
  induction fuel generalizing nuz with
  | zero =>
      rw [Nat.pow_zero, Nat.mul_one] at enough
      refine ⟨nuz, ?_⟩
      rw [doubled, if_neg]
      rw [UInt64.le_iff_toNat_le]
      exact Nat.not_le.mpr enough
  | succ fuel induction =>
      rw [doubled]
      split
      · rename_i below
        rw [UInt64.le_iff_toNat_le] at below
        have twice : (nuz * 2).toNat = nuz.toNat * 2 := by
          rw [UInt64.toNat_mul, show (2 : UInt64).toNat = 2 from rfl,
            Nat.mod_eq_of_lt (by omega)]
        refine induction ?_
        rw [twice, Nat.mul_assoc, ← Nat.pow_succ']
        exact enough
      · exact ⟨nuz, rfl⟩

/-- The loop ends above the identifier, and no later than it has to. -/
theorem doubled_above
    {fuel : Nat} {nuz id size : UInt64}
    (found : doubled fuel nuz id = some size) :
    id.toNat < size.toNat ∧
      (size.toNat ≤ nuz.toNat ∨ size.toNat ≤ 2 * id.toNat) := by
  induction fuel generalizing nuz with
  | zero => cases found
  | succ fuel induction =>
      rw [doubled] at found
      split at found
      · rename_i below
        rw [UInt64.le_iff_toNat_le] at below
        have ⟨above, least⟩ := induction found
        have twice : (nuz * 2).toNat ≤ nuz.toNat * 2 := by
          rw [UInt64.toNat_mul]
          exact Nat.mod_le _ _
        exact ⟨above, Or.inr (by omega)⟩
      · rename_i above
        cases found
        rw [UInt64.le_iff_toNat_le] at above
        exact ⟨Nat.lt_of_not_le above, Or.inl (Nat.le_refl _)⟩

/-- The block of a size that does not wrap holds all of its slots. -/
theorem reallocated_of_lt
    {bytes nuz : UInt64} (fits : nuz.toNat * bytes.toNat < 2 ^ 64)
    (shadow : List Shadow) :
    reallocated bytes shadow nuz =
      some (resize shadow nuz.toNat zeroShadow) := by
  rw [reallocated, UInt64.toNat_mul, Nat.mod_eq_of_lt fits, if_pos le_rfl]

theorem reallocated_eq_some
    {bytes nuz : UInt64} {shadow next : List Shadow}
    (found : reallocated bytes shadow nuz = some next) :
    next = resize shadow nuz.toNat zeroShadow := by
  unfold reallocated at found
  split at found
  · exact (Option.some.inj found).symm
  · cases found

/-! ## The shadow -/

/-- The handle in the slot of an identifier. -/
def handleOf (shadow : List Shadow) (id : UInt64) : Option Oid :=
  (shadow[id.toNat]?).map Shadow.oid

/-- The liveness bit of an identifier; a missing slot is not live. -/
def isLive (shadow : List Shadow) (id : UInt64) : Bool :=
  (liveSlot shadow id).isSome

/-- A shadow with more slots of zeros. -/
structure Grown (before after : List Shadow) : Prop where
  handles : ∀ id oid, handleOf before id = some oid →
    handleOf after id = some oid
  live : isLive after = isLive before

theorem Grown.refl (shadow : List Shadow) : Grown shadow shadow where
  handles _ _ := id
  live := rfl

theorem grown_resize
    {shadow : List Shadow} {size : Nat} (longer : shadow.length ≤ size) :
    Grown shadow (resize shadow size zeroShadow) where
  handles id oid held := by
    unfold handleOf at held ⊢
    rw [getElem?_resize longer]
    by_cases inside : id.toNat < shadow.length
    · rw [if_pos inside]
      exact held
    · rw [List.getElem?_eq_none (Nat.le_of_not_lt inside)] at held
      cases held
  live := by
    funext id
    unfold isLive liveSlot
    rw [getElem?_resize longer]
    by_cases inside : id.toNat < shadow.length
    · rw [if_pos inside]
    · rw [if_neg inside, List.getElem?_eq_none (Nat.le_of_not_lt inside)]
      split <;> rfl

/-- Sizing the shadow adds slots up to the identifier's. -/
theorem shadowEnsure_grown
    {bytes : UInt64} {shadow next : List Shadow} {id : UInt64}
    (found : shadowEnsure bytes shadow id = some next) :
    Grown shadow next ∧ id.toNat < next.length := by
  unfold shadowEnsure at found
  split at found
  · rename_i inside
    cases found
    exact ⟨Grown.refl shadow, inside⟩
  · rename_i beyond
    rcases Option.bind_eq_some_iff.mp found with ⟨size, passed, sized⟩
    obtain rfl := reallocated_eq_some sized
    have ⟨above, _⟩ := doubled_above passed
    rw [length_resize]
    exact ⟨grown_resize (by omega), above⟩

/--
Sizing the shadow succeeds for identifiers below `2 ^ 57`: its size is not more
than twice the identifier, and a slot has no more than 64 bytes.
-/
theorem shadowEnsure_some
    {bytes : UInt64} (slot : bytes.toNat ≤ 64)
    {shadow : List Shadow} {id : UInt64}
    (small : id.toNat < shadow.length ∨ id.toNat < 2 ^ 57) :
    ∃ next, shadowEnsure bytes shadow id = some next := by
  unfold shadowEnsure
  by_cases inside : id.toNat < shadow.length
  · rw [if_pos inside]
    exact ⟨shadow, rfl⟩
  · have few := small.resolve_left inside
    rw [if_neg inside]
    dsimp only
    generalize first : (if shadow.length ≠ 0 then
      UInt64.ofNat shadow.length * 2 else UInt64.ofNat (2 ^ 21)) = nuz
    have start :
        0 < nuz.toNat ∧ (nuz.toNat ≤ 2 ^ 21 ∨ nuz.toNat ≤ 2 * id.toNat) := by
      rw [← first]
      split
      · rename_i something
        have length : (UInt64.ofNat shadow.length).toNat = shadow.length :=
          UInt64.toNat_ofNat_of_lt' (show shadow.length < 2 ^ 64 by omega)
        rw [UInt64.toNat_mul, length, show (2 : UInt64).toNat = 2 from rfl,
          Nat.mod_eq_of_lt (by omega)]
        omega
      · exact ⟨by decide, Or.inl (by decide)⟩
    rcases @doubled_passes 64 nuz id (by omega)
      (Nat.lt_of_lt_of_le (show id.toNat < 2 ^ 64 by omega)
        (Nat.le_mul_of_pos_left _ start.1)) with ⟨size, passed⟩
    have ⟨_, least⟩ := doubled_above passed
    have product : size.toNat * bytes.toNat ≤ (2 ^ 58 - 1) * 64 :=
      Nat.mul_le_mul (by omega) slot
    rw [passed, Option.bind_some, reallocated_of_lt (by omega)]
    exact ⟨_, rfl⟩

theorem handleOf_clearLive (shadow : List Shadow) (id : UInt64) :
    handleOf (clearLive shadow id) = handleOf shadow := by
  funext other
  unfold handleOf clearLive
  rw [getElem?_update]
  split
  · rw [Option.map_map]
    rfl
  · rfl

theorem isLive_clearLive (shadow : List Shadow) (id : UInt64) :
    isLive (clearLive shadow id) =
      Function.update (isLive shadow) id false := by
  funext other
  unfold isLive liveSlot clearLive
  rw [getElem?_update]
  by_cases same : other = id
  · subst same
    rw [if_pos rfl, Function.update_self]
    cases shadow[other.toNat]? <;> rfl
  · rw [if_neg fun equal => same (UInt64.toNat_inj.mp equal),
      Function.update_of_ne same]

/-- A resting order's handle and liveness are stored in its slot. -/
theorem stored_slot
    {shadow : List Shadow} {id : UInt64} (inside : id.toNat < shadow.length)
    (oid : Oid) :
    let next := update shadow id.toNat
      fun _ => ({ oid := oid, live := true } : Shadow)
    handleOf next = Function.update (handleOf shadow) id (some oid) ∧
      isLive next = Function.update (isLive shadow) id true := by
  constructor
  · funext other
    unfold handleOf
    rw [getElem?_update]
    by_cases same : other = id
    · subst same
      rw [if_pos rfl, Function.update_self,
        List.getElem?_eq_getElem inside]
      rfl
    · rw [if_neg fun equal => same (UInt64.toNat_inj.mp equal),
        Function.update_of_ne same]
  · funext other
    unfold isLive liveSlot
    rw [getElem?_update]
    by_cases same : other = id
    · subst same
      rw [if_pos rfl, Function.update_self,
        List.getElem?_eq_getElem inside]
      rfl
    · rw [if_neg fun equal => same (UInt64.toNat_inj.mp equal),
        Function.update_of_ne same]

/-- A shadow in which an identifier was given a live slot. -/
structure Slotted
    (before after : List Shadow) (id : UInt64) (oid : Oid) : Prop where
  here : handleOf after id = some oid
  others : ∀ other handle, other ≠ id →
    handleOf before other = some handle → handleOf after other = some handle
  live : isLive after = Function.update (isLive before) id true

/-- Sizing the shadow and then storing the slot. -/
theorem slotted_ensured
    {bytes : UInt64} {shadow ensured : List Shadow} {id : UInt64}
    (found : shadowEnsure bytes shadow id = some ensured) (oid : Oid) :
    Slotted shadow
      (update ensured id.toNat fun _ => { oid := oid, live := true }) id
      oid := by
  have ⟨grown, inside⟩ := shadowEnsure_grown found
  have ⟨handles, live⟩ := stored_slot inside oid
  constructor
  · rw [handles, Function.update_self]
  · intro other handle different held
    rw [handles, Function.update_of_ne different]
    exact grown.handles other handle held
  · rw [live, grown.live]

/-! ## Fills -/

/-- A resting order is linked to the handle in its slot, stamped with it. -/
def Link (shadow : List Shadow) (id : UInt64) (oid : Oid) : Prop :=
  handleOf shadow id = some oid ∧ oid.usr = id

/-- The handle in the slot of an identifier has this side and price. -/
def Echoed
    (shadow : List Shadow) (id : UInt64) (side : Side) (price : Int64) :
    Prop :=
  ∃ oid, handleOf shadow id = some oid ∧ oid.sid = side ∧
    oid.prc = price.toInt

/-- The liveness bits are those of the orders a view shows. -/
def LiveAs (view : View UInt64 Int64) (shadow : List Shadow) : Prop :=
  ∀ id, isLive shadow id = (view id).isSome

/-- A trade, with the taker as the order the report is about. -/
def takerTrade
    (seq takerOrderId : UInt64) (fill : Fill UInt64 Int64) : Report :=
  { tradeReport seq takerOrderId fill with orderId := takerOrderId }

/-- The canonical text leaves that order out. -/
theorem prints_takerTrades
    (seq takerOrderId : UInt64) (fills : List (Fill UInt64 Int64)) :
    List.Forall₂ Prints (fills.map (takerTrade seq takerOrderId))
      (fills.map (tradeReport seq takerOrderId)) := by
  induction fills with
  | nil => exact List.Forall₂.nil
  | cons fill fills induction =>
      exact List.Forall₂.cons ⟨rfl, rfl, rfl⟩ induction

/-- What a fill does to the liveness of its maker. -/
def clearUsed (shadow : List Shadow) (fill : Fill UInt64 Int64) :
    List Shadow :=
  if fill.remaining = 0 then clearLive shadow fill.maker.id else shadow

/-- Draining the executions of alike fills. -/
theorem drainExecutions_eq
    {link : UInt64 → Oid → Prop} (seq taker : UInt64)
    {fills : List (Fill UInt64 Int64)}
    {others : List (Fill Oid Decimal64)}
    (alike : List.Forall₂ (AlikeFill link DecimalTicks 1) fills others)
    (stamped : ∀ id oid, link id oid → oid.usr = id)
    (few : ∀ fill ∈ fills, fill.maker.qty < 2 ^ 32)
    (shadow : List Shadow) :
    drainExecutions seq taker shadow (others.map executionOf) =
      (fills.foldl clearUsed shadow, fills.map (takerTrade seq taker)) := by
  unfold drainExecutions
  induction alike generalizing shadow with
  | nil => rfl
  | @cons fill other fills others head _ induction =>
      have small := few fill List.mem_cons_self
      have quantity : other.qty = fill.qty := head.qty.trans (Nat.one_mul _)
      have before : other.maker.qty = fill.maker.qty :=
        head.maker.qty.trans (Nat.one_mul _)
      have usr := stamped _ _ head.maker.id
      have remaining : other.remaining = fill.remaining := by
        rw [Fill.remaining, Fill.remaining, quantity, before]
      have nothing :
          toI64 (executionOf other).makerLeft.total ≤ 0 ↔
            fill.remaining = 0 := by
        rw [executionOf, Qty.total, Int.add_zero, remaining]
        refine toI64_nonpos_iff ?_
        rw [Fill.remaining]
        omega
      have cleared :
          clearFilled shadow (executionOf other) = clearUsed shadow fill := by
        unfold clearFilled clearUsed
        simp only [nothing]
        rw [show (executionOf other).maker.usr = fill.maker.id from usr]
      have reported :
          executionReport seq taker (executionOf other) =
            takerTrade seq taker fill := by
        simp only [executionReport, executionOf, takerTrade, tradeReport,
          toUInt32_toI64, quantity, usr, toI64_ticks head.maker.price]
      have rest := induction
        (fun later member => few later (List.mem_cons_of_mem _ member))
        (clearUsed shadow fill)
      rw [Prod.mk.injEq] at rest
      rw [List.map_cons, List.foldl_cons, List.map_cons, cleared, reported,
        rest.1, rest.2]
      rfl

/-- Using up makers leaves the handles alone. -/
theorem handleOf_clearUsed
    (fills : List (Fill UInt64 Int64)) (shadow : List Shadow) :
    handleOf (fills.foldl clearUsed shadow) = handleOf shadow := by
  induction fills generalizing shadow with
  | nil => rfl
  | cons fill fills induction =>
      rw [List.foldl_cons, induction, clearUsed]
      split
      · exact handleOf_clearLive _ _
      · rfl

theorem length_clearUsed
    (fills : List (Fill UInt64 Int64)) (shadow : List Shadow) :
    (fills.foldl clearUsed shadow).length = shadow.length := by
  induction fills generalizing shadow with
  | nil => rfl
  | cons fill fills induction =>
      rw [List.foldl_cons, induction, clearUsed]
      split
      · exact length_update _ _ _
      · rfl

/-- One fill keeps the liveness bits in step with the orders shown. -/
theorem liveAs_reduce
    {side : Side} {view : View UInt64 Int64} {shadow : List Shadow}
    {fill : Fill UInt64 Int64} (alive : LiveAs view shadow)
    (found : view fill.maker.id = some (side, fill.maker)) :
    LiveAs (reduce side view fill) (clearUsed shadow fill) := by
  intro id
  unfold reduce clearUsed Fill.remaining
  by_cases own : id = fill.maker.id
  · subst own
    rw [Function.update_self]
    by_cases used : fill.qty < fill.maker.qty
    · rw [if_pos used, if_neg (by omega), alive, found]
      rfl
    · rw [if_neg used, if_pos (by omega), isLive_clearLive,
        Function.update_self]
      rfl
  · rw [Function.update_of_ne own]
    split
    · rw [isLive_clearLive, Function.update_of_ne own]
      exact alive id
    · exact alive id

/-! ## The simulation -/

/-- The adapter's state stands for a reference book. -/
structure Holds
    {core : Core} (ladders : core.State → Sides Oid Decimal64)
    (st : State core) (book : LiveBook) : Prop where
  stands : StandsFor (Link st.shadow) DecimalTicks 1 (ladders st.book) book
  alive : LiveAs book.lookup st.shadow
  echoed : book.All (Echoed st.shadow)
  below : book.Below (2 ^ 32)

/-- It does, and the new orders to come fit the shadow. -/
structure Simulates
    {core : Core} (ladders : core.State → Sides Oid Decimal64)
    (rest : List Msg) (st : State core) (book : LiveBook) : Prop where
  holds : Holds ladders st book
  small : GtcIds (2 ^ 57) rest

section Refinement

variable {core : Core} {ladders : core.State → Sides Oid Decimal64}
  {rest : List Msg} {st : State core} {book : LiveBook}

/-- A change that keeps the handles. -/
theorem Holds.of_handles
    {before : List Shadow} {next : core.State}
    (stands : StandsFor (Link before) DecimalTicks 1 (ladders next) book)
    (echoed : book.All (Echoed before)) (below : book.Below (2 ^ 32))
    {after : List Shadow}
    (kept : ∀ id oid, handleOf before id = some oid →
      handleOf after id = some oid)
    (alive : LiveAs book.lookup after) :
    Holds ladders { book := next, shadow := after } book where
  stands := stands.relink fun _ o _ oid linked =>
    ⟨kept o.id oid linked.1, linked.2⟩
  alive := alive
  echoed := echoed.mono fun id _ _ _ echo => by
    rcases echo with ⟨oid, held, sided, priced⟩
    exact ⟨oid, kept id oid held, sided, priced⟩
  below := below

/-- A live slot holds the handle of the resting order. -/
theorem Holds.slot_of_lookup
    (holds : Holds ladders st book)
    {id : UInt64} {side : Side} {o : Resting UInt64 Int64}
    (found : book.lookup id = some (side, o)) :
    ∃ s, liveSlot st.shadow id = some s ∧ Link st.shadow id s.oid ∧
      s.oid.sid = side ∧ s.oid.prc = o.price.toInt ∧
      Rests (ladders st.book) s.oid := by
  have live := holds.alive id
  rw [found, isLive, Option.isSome_some, Option.isSome_iff_exists] at live
  rcases live with ⟨s, stored⟩
  have held : handleOf st.shadow id = some s.oid := by
    rw [handleOf, Option.map_eq_some_iff]
    exact ⟨s, (Option.filter_eq_some_iff.mp stored).1, rfl⟩
  rcases holds.echoed id side o found with ⟨oid, same, sided, priced⟩
  rw [held] at same
  cases same
  rcases holds.stands.exists_right found with ⟨r, member, paired⟩
  have named := (Book.lookup_eq_some_iff.mp found).2
  have linked := paired.id
  rw [named] at linked
  have handle : r.id = s.oid :=
    Option.some.inj (linked.1.symm.trans held)
  exact ⟨s, stored, ⟨held, handle ▸ linked.2⟩, sided, priced,
    side, r, member, handle⟩

/-- An order that does not rest has no live slot. -/
theorem Holds.slot_of_none
    (holds : Holds ladders st book) {id : UInt64}
    (absent : book.lookup id = none) : liveSlot st.shadow id = none := by
  have dead := holds.alive id
  rw [absent, isLive, Option.isSome_none, Option.isSome_eq_false_iff,
    Option.isNone_iff_eq_none] at dead
  exact dead

/-- The handle of a live slot always rests. -/
theorem Holds.handle_rests
    (holds : Holds ladders st book) {id : UInt64} {s : Shadow}
    (stored : liveSlot st.shadow id = some s) :
    Rests (ladders st.book) s.oid := by
  cases found : book.lookup id with
  | none =>
      rw [holds.slot_of_none found] at stored
      cases stored
  | some entry =>
      rcases holds.slot_of_lookup
        (show book.lookup id = some (entry.1, entry.2) from found) with
        ⟨other, same, _, _, _, rests⟩
      rw [stored] at same
      cases same
      exact rests

/-- Deleting the handle of a live slot withdraws the order. -/
theorem Holds.deleted
    (correct : core.Correct ladders) (holds : Holds ladders st book)
    {id : UInt64} {oid : Oid} (linked : Link st.shadow id oid)
    (rests : Rests (ladders st.book) oid) :
    0 ≤ (core.clobDel st.book oid).2 ∧
      Holds ladders
        { book := (core.clobDel st.book oid).1
          shadow := clearLive st.shadow id }
        (book.withdraw id) := by
  have ⟨after, accepted⟩ := correct.clobDel st.book oid rests
  refine ⟨accepted, @Holds.of_handles _ _ _ st.shadow _ ?_ ?_ ?_ _ ?_ ?_⟩
  · rw [after]
    refine holds.stands.withdrawn fun _ o _ r link => ?_
    constructor
    · intro named
      rw [named] at link
      exact Option.some.inj (link.1.symm.trans linked.1)
    · intro handle
      rw [← link.2, handle]
      exact linked.2
  · exact holds.echoed.withdraw id
  · exact holds.below.withdraw id
  · intro other held kept
    rw [handleOf_clearLive]
    exact kept
  · intro other
    rw [isLive_clearLive, Book.lookup_withdraw]
    by_cases same : other = id
    · subst same
      rw [Function.update_self, Function.update_self]
      rfl
    · rw [Function.update_of_ne same, Function.update_of_ne same]
      exact holds.alive other

/-! ## Crossing and resting -/

/-- The order `cross_and_rest` crosses, in exact decimals. -/
theorem crossingOrder_eq
    {id : UInt64} {side : UInt8} {price : Int64} {quan : UInt32}
    (permitted : TickPrice price) :
    crossingOrder id side price quan =
      { sid := sideOf side
        qty := { dis := quan.toNat, hid := 0 }
        lmt := price.toInt
        usr := id } := by
  have sided :
      (if side ≠ 0 then Side.sell else Side.buy) = sideOf side := by
    unfold sideOf
    by_cases buy : side = 0 <;> simp [buy]
  unfold crossingOrder
  rw [sided, toDec_quantity, toDec_tick permitted,
    show toDec 0 = 0 by decide]

/-- What crossing an order leaves: the rest of it, the trades, the shadow. -/
structure Crossed
    (ladders : core.State → Sides Oid Decimal64) (st : State core)
    (seq : UInt64) (side : UInt8) (quan : UInt32)
    (order : Resting UInt64 Int64) (dropped : Submission UInt64 Int64) :
    Prop where
  rem : (core.unxsOrder st.book
      (crossingOrder order.id side order.price quan)).2.1 =
    { sid := sideOf side
      qty := { dis := dropped.left, hid := 0 }
      lmt := order.price.toInt
      usr := order.id }
  drained : drainExecutions seq order.id st.shadow
      (core.unxsOrder st.book
        (crossingOrder order.id side order.price quan)).2.2 =
    (dropped.fills.foldl clearUsed st.shadow,
      dropped.fills.map (takerTrade seq order.id))
  holds : Holds ladders
    { book := (core.unxsOrder st.book
        (crossingOrder order.id side order.price quan)).1
      shadow := dropped.fills.foldl clearUsed st.shadow }
    dropped.book

theorem Holds.crossed
    (correct : core.Correct ladders) (holds : Holds ladders st book)
    {order : Resting UInt64 Int64} (fresh : book.lookup order.id = none)
    {quan : UInt32} (whole : order.qty = quan.toNat)
    (positive : 1 ≤ quan.toNat) (permitted : TickPrice order.price)
    (seq : UInt64) (side : UInt8) :
    Crossed ladders st seq side quan order
      (book.submit (sideOf side) order false fresh) := by
  have ⟨low, _⟩ := permitted
  have made := @crossingOrder_eq order.id side order.price quan permitted
  have result := correct.unxsOrder st.book
    (crossingOrder order.id side order.price quan)
  rw [made] at result
  have ⟨after, rem, exe⟩ := result rfl
    (show (0 : Int) < quan.toNat by omega)
    (show (0 : Int) < order.price.toInt by omega)
  have quantity : ((quan.toNat : Int)).toNat = 1 * order.qty := by
    rw [Int.toNat_natCast, Nat.one_mul, whole]
  rw [quantity] at after rem exe
  have ⟨fills, left, stands⟩ := @StandsFor.cross _ _ _ _ _ _ _ _ _ _ _ _
    holds.stands decimalTicks_compatible Nat.one_pos (sideOf side) order fresh
    order.price.toInt ⟨permitted, rfl⟩
  constructor
  · rw [made, rem, left, Nat.one_mul]
  · rw [made, exe]
    refine drainExecutions_eq seq order.id fills (fun _ _ link => link.2)
      (fun fill member => ?_) st.shadow
    have ⟨maker, _⟩ :=
      mem_sweep_fills (book.positive (sideOf side).opposite) member
    exact holds.below _ _ maker
  · rw [made]
    refine @Holds.of_handles _ _ _ st.shadow _ ?_ ?_ ?_ _ ?_ ?_
    · rw [after]
      exact stands
    · exact holds.echoed.submit fun rests => absurd rests Bool.false_ne_true
    · exact holds.below.submit (by rw [whole]; exact quan.toNat_lt)
    · intro id oid held
      rw [handleOf_clearUsed]
      exact held
    · rw [Book.lookup_submit_dropped]
      exact Book.submit_applies.foldl
        (fun _ _ _ alive found _ _ => liveAs_reduce alive found) holds.alive

/-- Clearing the liveness of an order that does not rest changes nothing. -/
theorem Holds.cleared
    (holds : Holds ladders st book) {id : UInt64}
    (absent : book.lookup id = none) :
    Holds ladders { st with shadow := clearLive st.shadow id } book := by
  refine @Holds.of_handles _ _ _ st.shadow _ holds.stands holds.echoed
    holds.below _ (fun other oid held => ?_) fun other => ?_
  · rw [handleOf_clearLive]
    exact held
  · rw [isLive_clearLive]
    by_cases same : other = id
    · subst same
      rw [Function.update_self, absent]
      rfl
    · rw [Function.update_of_ne same]
      exact holds.alive other

/-- The orders next to a new slot keep their handles. -/
theorem Slotted.relinks
    {before after : List Shadow} {order : Resting UInt64 Int64} {oid : Oid}
    (slotted : Slotted before after order.id oid) {side : Side}
    {fresh : book.lookup order.id = none} {sides : Sides Oid Decimal64}
    (stands : StandsFor (Link before) DecimalTicks 1 sides
      (book.submit side order false fresh).book) :
    StandsFor (Link after) DecimalTicks 1 sides
      (book.submit side order false fresh).book := by
  refine stands.relink fun s o member handle linked => ?_
  have different : o.id ≠ order.id := by
    intro same
    have resting := Book.lookup_eq_some_iff.mpr ⟨member, rfl⟩
    rw [same, Book.lookup_submit_dropped_self] at resting
    cases resting
  exact ⟨slotted.others o.id handle different linked.1, linked.2⟩

/-- Queueing the rest of a crossed order under a new handle. -/
theorem Holds.rested
    (correct : core.Correct ladders)
    {order : Resting UInt64 Int64} {fresh : book.lookup order.id = none}
    {side : UInt8}
    (holds : Holds ladders st
      (book.submit (sideOf side) order false fresh).book)
    (below : book.Below (2 ^ 32)) (few : order.qty < 2 ^ 32)
    (permitted : TickPrice order.price)
    (unfilled : (book.submit (sideOf side) order true fresh).left ≠ 0)
    (small : order.id.toNat < st.shadow.length ∨ order.id.toNat < 2 ^ 57) :
    let rem : Ord :=
      { sid := sideOf side
        qty :=
          { dis := (book.submit (sideOf side) order true fresh).left
            hid := 0 }
        lmt := order.price.toInt
        usr := order.id }
    let added := core.clobAdd st.book rem
    ∃ ensured,
      shadowEnsure core.sizeofShadow st.shadow order.id = some ensured ∧
      Holds ladders
        { book := added.1
          shadow := update ensured order.id.toNat
            fun _ => { oid := added.2, live := true } }
        (book.submit (sideOf side) order true fresh).book := by
  dsimp only
  generalize kept : (book.submit (sideOf side) order true fresh).left = left
    at unfilled
  rcases shadowEnsure_some correct.sizeofShadow small with ⟨ensured, found⟩
  have ⟨new, sided, priced, stamped, after⟩ := correct.clobAdd st.book
    { sid := sideOf side
      qty := { dis := left, hid := 0 }
      lmt := order.price.toInt
      usr := order.id }
    rfl (show (0 : Int) < left by omega)
  generalize core.clobAdd st.book
    { sid := sideOf side
      qty := { dis := left, hid := 0 }
      lmt := order.price.toInt
      usr := order.id } = added at new sided priced stamped after
  have slotted := slotted_ensured found added.2
  have shown := @Book.lookup_submit_rests _ _ _ _ book (sideOf side) order
    fresh
  rw [kept, if_pos unfilled] at shown
  refine ⟨ensured, found, ?_, ?_, ?_, below.submit few⟩
  · dsimp only
    rw [after]
    refine (slotted.relinks holds.stands).queue decimalTicks_compatible
      (by rwa [kept]) ?_
    refine ⟨⟨slotted.here, stamped⟩, ⟨permitted, rfl⟩, ?_⟩
    rw [kept, Nat.one_mul]
    exact Int.toNat_natCast left
  · intro id
    rw [slotted.live, shown]
    by_cases own : id = order.id
    · subst own
      rw [Function.update_self, Function.update_self]
      rfl
    · rw [Function.update_of_ne own, Function.update_of_ne own]
      exact holds.alive id
  · intro id s o resting
    rw [shown] at resting
    by_cases own : id = order.id
    · subst own
      rw [Function.update_self] at resting
      cases resting
      exact ⟨added.2, slotted.here, sided, priced⟩
    · rw [Function.update_of_ne own] at resting
      rcases holds.echoed id s o resting with ⟨oid, held, echo⟩
      exact ⟨oid, slotted.others id oid own held, echo⟩

/-- Crossing and resting submits the order. -/
theorem crossAndRest_eq
    (correct : core.Correct ladders) (holds : Holds ladders st book)
    {order : Resting UInt64 Int64} (fresh : book.lookup order.id = none)
    {quan : UInt32} (whole : order.qty = quan.toNat)
    (positive : 1 ≤ quan.toNat) (permitted : TickPrice order.price)
    (seq : UInt64) (side ioc : UInt8)
    (small : ioc = 0 →
      order.id.toNat < st.shadow.length ∨ order.id.toNat < 2 ^ 57) :
    let submitted := book.submit (sideOf side) order (ioc = 0) fresh
    ∃ next,
      crossAndRest st seq order.id side order.price quan ioc =
          some
            (next,
              submitted.fills.map (takerTrade seq order.id) ++
                if ioc ≠ 0 ∧ submitted.left ≠ 0 then
                  [ackReport meCancelAck seq order.id side order.price
                    (UInt32.ofNat submitted.left)]
                else
                  []) ∧
        Holds ladders next submitted.book := by
  have crossed := holds.crossed correct fresh whole positive permitted seq side
  have absent : (book.submit (sideOf side) order false fresh).book.lookup
      order.id = none := Book.lookup_submit_dropped_self
  have few : (book.submit (sideOf side) order false fresh).left < 2 ^ 63 := by
    have most := book.submit_left_le (sideOf side) order false fresh
    have word := quan.toNat_lt
    omega
  have left :
      ({ dis := (book.submit (sideOf side) order false fresh).left
         hid := 0 } : Qty).total =
        (book.submit (sideOf side) order false fresh).left :=
    Int.add_zero _
  unfold crossAndRest
  dsimp only
  rw [crossed.rem, crossed.drained]
  dsimp only
  rw [left]
  simp only [toI64_nonpos_iff few, toUInt32_toI64]
  by_cases filled : (book.submit (sideOf side) order false fresh).left = 0
  · have settled :
        (book.submit (sideOf side) order (ioc = 0) fresh).book =
          (book.submit (sideOf side) order false fresh).book :=
      Book.submit_of_filled filled
    rw [if_pos filled, if_neg fun dropped => dropped.2 filled,
      List.append_nil, settled]
    exact ⟨_, rfl, crossed.holds.cleared absent⟩
  · rw [if_neg filled]
    by_cases limit : ioc = 0
    · rw [if_neg (not_not_intro limit), if_neg fun dropped => dropped.1 limit,
        List.append_nil, decide_eq_true limit]
      have slot :
          order.id.toNat <
              ((book.submit (sideOf side) order false fresh).fills.foldl
                clearUsed st.shadow).length ∨
            order.id.toNat < 2 ^ 57 := by
        rw [length_clearUsed]
        exact small limit
      rcases crossed.holds.rested correct holds.below
        (by rw [whole]; exact quan.toNat_lt) permitted filled slot with
        ⟨ensured, found, rested⟩
      refine ⟨_, ?_, rested⟩
      have sized :
          shadowEnsure core.sizeofShadow
              ((book.submit (sideOf side) order false fresh).fills.foldl
                clearUsed st.shadow) order.id =
            some ensured := found
      rw [sized]
      rfl
    · rw [if_pos limit, if_pos ⟨limit, filled⟩, decide_eq_false limit]
      exact ⟨_, rfl, crossed.holds.cleared absent⟩

/-! ## Messages -/

theorem newOrder_simulates
    (correct : core.Correct ladders) {o : NewOrder}
    (simulates : Simulates ladders (.newOrder o :: rest) st book)
    (legal : Legal TickPrice book (.newOrder o)) :
    ∃ next out, engineOnNewOrder st o = some (next, out) ∧
      Simulates ladders rest next (Reference.newOrder book o).1 ∧
      SameReports out (Reference.newOrder book o).2 := by
  obtain ⟨fresh, _, positive, permitted⟩ := legal
  rcases @crossAndRest_eq core ladders st book correct simulates.holds
    (submittedOrder o) fresh o.quantity rfl positive permitted
    o.sequenceNumber o.side o.ioc
    (fun limit => Or.inr (simulates.small o List.mem_cons_self limit)) with
    ⟨next, ran, holds⟩
  have crossed :
      crossAndRest st o.sequenceNumber o.orderId o.side o.priceTicks
        o.quantity o.ioc = _ := ran
  unfold engineOnNewOrder Reference.newOrder
  rw [dif_pos fresh, crossed]
  refine ⟨next, _, rfl, ⟨holds, simulates.small.tail⟩, ?_⟩
  have trades := SameReports.of_prints
    (prints_takerTrades o.sequenceNumber o.orderId
      (book.submit (sideOf o.side) (submittedOrder o) (o.ioc = 0)
        fresh).fills)
  exact SameReports.append [_] [_] _ _ (SameReports.refl _)
    (SameReports.append _ _ _ _ trades (SameReports.refl _))

theorem cancel_simulates
    (correct : core.Correct ladders) {c : Cancel}
    (simulates : Simulates ladders (.cancel c :: rest) st book) :
    Simulates ladders rest (engineOnCancel st c).1
        (Reference.cancel book c).1 ∧
      SameReports (engineOnCancel st c).2 (Reference.cancel book c).2 := by
  unfold engineOnCancel Reference.cancel
  cases found : book.lookup c.orderId with
  | none =>
      rw [simulates.holds.slot_of_none found]
      exact ⟨⟨simulates.holds, simulates.small.tail⟩, SameReports.refl _⟩
  | some entry =>
      rcases entry with ⟨side, o⟩
      rcases simulates.holds.slot_of_lookup found with
        ⟨s, stored, linked, sided, priced, rests⟩
      have ⟨accepted, holds⟩ := simulates.holds.deleted correct linked rests
      rw [stored]
      dsimp only
      rw [if_neg (Int.not_lt.mpr accepted)]
      refine ⟨⟨holds, simulates.small.tail⟩,
        SameReports.singleton ⟨rfl, rfl, ?_⟩⟩
      have echo :
          (if s.oid.sid = .sell then (1 : UInt8) else 0) = sideByte side := by
        rw [sided]
        cases side <;> rfl
      rw [echo, priced, toI64, Int64.ofInt_toInt]
      rfl

theorem modify_simulates
    (correct : core.Correct ladders) {m : Modify}
    (simulates : Simulates ladders (.modify m :: rest) st book)
    (legal : Legal TickPrice book (.modify m)) :
    ∃ next out, engineOnModify st m = some (next, out) ∧
      Simulates ladders rest next (Reference.modify book m).1 ∧
      SameReports out (Reference.modify book m).2 := by
  unfold engineOnModify Reference.modify
  cases found : book.lookup m.orderId with
  | none =>
      rw [simulates.holds.slot_of_none found]
      exact ⟨_, _, rfl, ⟨simulates.holds, simulates.small.tail⟩,
        SameReports.refl _⟩
  | some entry =>
      rcases entry with ⟨side, o⟩
      obtain ⟨_, positive, permitted, own⟩ := legal
      have sameSide := own side o found
      rcases simulates.holds.slot_of_lookup found with
        ⟨s, stored, linked, _, _, rests⟩
      have ⟨_, deleted⟩ := simulates.holds.deleted correct linked rests
      have inside : m.orderId.toNat <
          (clearLive st.shadow m.orderId).length := by
        rw [clearLive, length_update]
        rcases Option.map_eq_some_iff.mp linked.1 with ⟨slot, here, _⟩
        exact (List.getElem?_eq_some_iff.mp here).1
      have fresh := book.lookup_withdraw_self m.orderId
      rcases @crossAndRest_eq core ladders
        { book := (core.clobDel st.book s.oid).1
          shadow := clearLive st.shadow m.orderId }
        (book.withdraw m.orderId) correct deleted (modifiedOrder m) fresh
        m.newQuantity rfl positive permitted m.sequenceNumber m.side 0
        (fun _ => Or.inl inside) with ⟨next, ran, holds⟩
      have crossed :
          crossAndRest
            ({ book := (core.clobDel st.book s.oid).1
               shadow := clearLive st.shadow m.orderId } : State core)
            m.sequenceNumber m.orderId m.side m.newPriceTicks m.newQuantity
            0 = _ := ran
      rw [if_neg fun dropped => dropped.1 rfl, List.append_nil,
        decide_eq_true rfl, sameSide, sideOf_sideByte] at crossed
      rw [decide_eq_true rfl, sameSide, sideOf_sideByte] at holds
      rw [stored]
      dsimp only
      rw [sameSide, crossed]
      refine ⟨next, _, rfl, ⟨holds, simulates.small.tail⟩, ?_⟩
      have trades := SameReports.of_prints
        (prints_takerTrades m.sequenceNumber m.orderId
          ((book.withdraw m.orderId).submit side (modifiedOrder m) true
            fresh).fills)
      exact SameReports.append _ _ _ _ trades (SameReports.refl _)

/-- Every legal message keeps the simulation. -/
theorem step_forward (correct : core.Correct ladders) :
    Forward TickPrice (@HroptatyrClob.step core) (Simulates ladders) := by
  intro m rest st book simulates legal
  cases m with
  | newOrder o => exact newOrder_simulates correct simulates legal
  | cancel c =>
      have ⟨kept, reports⟩ := cancel_simulates correct simulates
      exact ⟨_, _, rfl, kept, reports⟩
  | modify m => exact modify_simulates correct simulates legal

/-! ## Prebuilding -/

/-- Sizing the shadow ahead of a run changes neither book nor liveness. -/
theorem prebuildAll_grown
    {passed : List Msg} {st start : State core}
    (prebuilt : prebuildAll st passed = some start) :
    start.book = st.book ∧ isLive start.shadow = isLive st.shadow := by
  induction passed generalizing st with
  | nil =>
      cases prebuilt
      exact ⟨rfl, rfl⟩
  | cons m passed induction =>
      rw [prebuildAll, List.foldlM_cons, Option.bind_eq_bind,
        Option.bind_eq_some_iff] at prebuilt
      rcases prebuilt with ⟨middle, first, later⟩
      rcases Option.map_eq_some_iff.mp first with ⟨shadow, sized, rfl⟩
      have ⟨grown, _⟩ := shadowEnsure_grown sized
      have ⟨book, live⟩ := induction later
      exact ⟨book, live.trans grown.live⟩

/-- Sizing succeeds for messages that name identifiers below `2 ^ 57`. -/
theorem prebuildAll_some
    (correct : core.Correct ladders)
    {passed : List Msg} (small : ∀ m ∈ passed, m.orderId.toNat < 2 ^ 57)
    (st : State core) : ∃ start, prebuildAll st passed = some start := by
  induction passed generalizing st with
  | nil => exact ⟨st, rfl⟩
  | cons m passed induction =>
      rcases @shadowEnsure_some _ correct.sizeofShadow st.shadow m.orderId
        (Or.inr (small m List.mem_cons_self)) with ⟨shadow, sized⟩
      rcases induction
        (fun other member => small other (List.mem_cons_of_mem _ member))
        { st with shadow := shadow } with ⟨start, later⟩
      refine ⟨start, ?_⟩
      rw [prebuildAll, List.foldlM_cons, enginePrebuild, sized]
      exact later

/-- A prebuilt adapter stands for the empty book. -/
theorem simulates_prebuilt
    (correct : core.Correct ladders) {passed msgs : List Msg}
    {start : State core}
    (prebuilt : prebuildAll (engineInit core) passed = some start)
    (small : GtcIds (2 ^ 57) msgs) :
    Simulates ladders msgs start Book.empty := by
  have ⟨same, live⟩ := prebuildAll_grown prebuilt
  refine ⟨⟨?_, ?_, Book.all_empty, Book.below_empty⟩, small⟩
  · rw [same]
    dsimp only [engineInit]
    rw [correct.ladders_init]
    exact standsFor_empty _ _ _
  · intro id
    have zeros := (@grown_resize [] (2 ^ 21) (Nat.zero_le _)).live
    rw [live]
    dsimp only [engineInit]
    rw [zeros]
    rfl

/-! ## Queries -/

/-- The engine lists the levels of the book. -/
theorem aggiter_eq
    (correct : core.Correct ladders) (holds : Holds ladders st book)
    (bounded : Bounded book) (side : Side) :
    core.aggiter st.book side =
      (levels (book.ladder side)).map fun entry =>
        (entry.1.toInt, { dis := entry.2, hid := 0 }) := by
  have alike := alike_levels decimalTicks_compatible (holds.stands side)
  have same :
      levels (ladders st.book side) =
        (levels (book.ladder side)).map fun entry =>
          (entry.1.toInt, entry.2) := by
    generalize levels (book.ladder side) = left at alike ⊢
    generalize levels (ladders st.book side) = right at alike ⊢
    induction alike with
    | nil => rfl
    | @cons entry other left right head _ induction =>
        rw [List.map_cons, ← induction]
        congr 1
        exact Prod.ext head.price.2 (head.qty.trans (Nat.one_mul _))
  rw [correct.aggiter st.book side, same, List.map_map]
  · rfl
  · rw [same]
    intro entry member
    rcases List.mem_map.mp member with ⟨inner, inside, rfl⟩
    have few := bounded.total side inner inside
    dsimp only
    omega

theorem queryBestBid_eq
    (correct : core.Correct ladders) (holds : Holds ladders st book)
    (bounded : Bounded book) : engineQueryBestBid st = bestBid book := by
  rw [bestBid, ← best_of_levels, wireLevels]
  unfold engineQueryBestBid
  rw [aggiter_eq correct holds bounded]
  cases levels (book.ladder .buy) with
  | nil => rfl
  | cons entry later => exact Int64.ofInt_toInt entry.1

theorem queryBestAsk_eq
    (correct : core.Correct ladders) (holds : Holds ladders st book)
    (bounded : Bounded book) : engineQueryBestAsk st = bestAsk book := by
  rw [bestAsk, ← best_of_levels, wireLevels]
  unfold engineQueryBestAsk
  rw [aggiter_eq correct holds bounded]
  cases levels (book.ladder .sell) with
  | nil => rfl
  | cons entry later => exact Int64.ofInt_toInt entry.1

theorem queryDepthAt_eq
    (correct : core.Correct ladders) (holds : Holds ladders st book)
    (bounded : Bounded book) (price : Int64) (side : UInt8) :
    engineQueryDepthAt st price side = depthAt book price side := by
  have sided :
      (if side ≠ 0 then Side.sell else Side.buy) = sideOf side := by
    unfold sideOf
    by_cases buy : side = 0 <;> simp [buy]
  rw [← depth_of_find, wireLevels]
  unfold engineQueryDepthAt
  dsimp only
  rw [sided, aggiter_eq correct holds bounded]
  induction levels (book.ladder (sideOf side)) with
  | nil => rfl
  | cons entry later induction =>
      have back : toI64 entry.1.toInt = entry.1 := Int64.ofInt_toInt entry.1
      rw [List.map_cons, List.map_cons, List.find?_cons, List.find?_cons]
      dsimp only
      rw [back]
      by_cases here : entry.1 = price
      · rw [decide_eq_true here]
        dsimp only
        rw [Qty.total, Int.add_zero]
        exact toUInt64_toI64 entry.2
      · rw [decide_eq_false here]
        exact induction

end Refinement

end MatchingBench.Oracles.HroptatyrClobRefinement
