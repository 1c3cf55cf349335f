import MatchingBench.Workload.RealNumerics
import MatchingBench.Workload.Structure

/-!
# The prices of a workload

The generator clamps a price when it places an order, and reprices a modified
order without looking again.  So a price below one tick has exactly one source:
a sell that was placed at the first tick and whose draws reprice it.
-/

set_option autoImplicit false

namespace MatchingBench.Workload.Prices

open MatchingBench.Lib.Draws
open MatchingBench.Workload.Generator
open MatchingBench.Workload.Structure

/-! ## What the draws decide -/

section Draws

variable (num : Numerics) (scenario : Scenario) (count : UInt64)

/-- The mid price that the order of index `k` is placed at. -/
def midPath (mid : num.Mid) (stream : Nat → Uniform) : Nat → num.Mid
  | 0 => num.step scenario count mid (stream 0) (stream 1)
  | k + 1 =>
      num.step scenario count (midPath mid stream k)
        (stream (4 * (k + 1))) (stream (4 * (k + 1) + 1))

/-- The level that the order of index `k` is placed at. -/
def levelAt (stream : Nat → Uniform) (k : Nat) : Nat :=
  (sample num).run fun n => stream (4 * k + 2 + n)

/-- The ticks at which the sell of index `k` is placed, before the clamp. -/
def sellTicks (mid : num.Mid) (stream : Nat → Uniform) (k : Nat) : Int64 :=
  num.midTicks (midPath num scenario count mid stream k) +
    Int64.ofNat (levelAt num stream k + 1)

/-- The draws of a lifecycle modify its order and reprice it. -/
def Reprices (stream : Nat → Uniform) : Prop :=
  ¬(stream 0).val < iocPct ∧ (stream 1).val < modifyPct ∧
    (stream 3).val < repricePct

/-- The orders as they arrive, each with the draws that are left for it. -/
def lifecycles (news : List NewOrder) :
    List Nat → Timeline → (Nat → Uniform) → List (Nat × (Nat → Uniform))
  | [], _, _ => []
  | i :: later, t, stream =>
      let own := lifecycle num (news.getD i default) (UInt64.ofNat (i + 1)) t
      (i, stream) :: lifecycles news later (own.run stream) (own.after stream)

end Draws

/-- The placement of a request. -/
def placing (num : Numerics) (request : Request) : Draw (List NewOrder) :=
  placeAll num request.scenario request.count
    (List.range request.count.toNat) num.startMid

/-- The shuffle of a request. -/
def shuffling (num : Numerics) (request : Request) : Draw (Array Nat) :=
  shuffle num (request.count.toNat - 1) (Array.range request.count.toNat)

/-- The arrivals of a request: the orders, each with its draws. -/
def arrivals (num : Numerics) (request : Request) (stream : Nat → Uniform) :
    List (Nat × (Nat → Uniform)) :=
  let placed := (placing num request).after stream
  lifecycles num ((placing num request).run stream)
    ((shuffling num request).run placed).toList { tl := [], now := 0 }
    ((shuffling num request).after placed)

/-! ## Placement -/

/-- The clamp. -/
def clamped (px : Int64) : Int64 :=
  if px < 1 then 1 else px

theorem clamped_pos (px : Int64) : 1 ≤ (clamped px).toInt := by
  unfold clamped
  split
  · decide
  · rename_i large
    rw [Int64.lt_iff_toInt_lt, Int64.toInt_one] at large
    omega

section Placement

variable (num : Numerics) (scenario : Scenario) (count : UInt64)

/-- The side and price of an order are those of its index. -/
structure PlacedAt (mid : num.Mid) (stream : Nat → Uniform) (k i : Nat)
    (n : NewOrder) : Prop where
  side : n.side = if i < count.toNat / 2 then 0 else 1
  price : n.priceTicks = clamped
    (if i < count.toNat / 2 then
      num.midTicks (midPath num scenario count mid stream k) -
        Int64.ofNat (levelAt num stream k + 1)
    else sellTicks num scenario count mid stream k)

theorem midPath_succ
    (mid : num.Mid) (stream : Nat → Uniform) (k : Nat) :
    midPath num scenario count mid stream (k + 1) =
      midPath num scenario count
        (num.step scenario count mid (stream 0) (stream 1))
        (fun n => stream (n + 4)) k := by
  induction k with
  | zero => rfl
  | succ k induction =>
      rw [midPath, induction]
      rfl

theorem PlacedAt.succ
    {mid : num.Mid} {stream : Nat → Uniform} {k i : Nat} {n : NewOrder}
    (placed : PlacedAt num scenario count
      (num.step scenario count mid (stream 0) (stream 1))
      (fun n => stream (n + 4)) k i n) :
    PlacedAt num scenario count mid stream (k + 1) i n := by
  have level : levelAt num (fun n => stream (n + 4)) k =
      levelAt num stream (k + 1) := by
    unfold levelAt
    congr 1
    funext m
    show stream (4 * k + 2 + m + 4) = stream (4 * (k + 1) + 2 + m)
    rw [show 4 * k + 2 + m + 4 = 4 * (k + 1) + 2 + m by omega]
  rcases placed with ⟨side, price⟩
  refine ⟨side, ?_⟩
  rw [price, sellTicks, sellTicks, level, midPath_succ]

theorem place_placed (i : Nat) (mid : num.Mid) (stream : Nat → Uniform) :
    PlacedAt num scenario count mid stream 0 i
      ((place num scenario count i mid).run stream).2 := by
  have side : ((place num scenario count i mid).run stream).2.side =
      if decide (i < count.toNat / 2) = true then 0 else 1 := rfl
  have price : ((place num scenario count i mid).run stream).2.priceTicks =
      clamped (if decide (i < count.toNat / 2) = true then
        num.midTicks (midPath num scenario count mid stream 0) -
          Int64.ofNat (levelAt num stream 0 + 1)
      else sellTicks num scenario count mid stream 0) := rfl
  simp only [decide_eq_true_eq] at side price
  exact ⟨side, price⟩

/-- Every order is placed at the mid price and level of its own draws. -/
theorem placeAll_placed
    (indices : List Nat) (mid : num.Mid) (stream : Nat → Uniform)
    {k i : Nat} (at_ : indices[k]? = some i) :
    ∃ n, ((placeAll num scenario count indices mid).run stream)[k]? = some n ∧
      PlacedAt num scenario count mid stream k i n := by
  induction indices generalizing mid stream k with
  | nil => cases at_
  | cons j later induction =>
      have placed :
          (placeAll num scenario count (j :: later) mid).run stream =
            ((place num scenario count j mid).run stream).2 ::
              (placeAll num scenario count later
                (num.step scenario count mid (stream 0) (stream 1))).run
                fun n => stream (n + 4) :=
        (Sampler.run_bind (place num scenario count j mid) _ stream).trans
          (Sampler.run_bind_pure _ _ _)
      rw [placed]
      cases k with
      | zero =>
          cases at_
          exact ⟨_, rfl, place_placed num scenario count _ mid stream⟩
      | succ k =>
          rw [List.getElem?_cons_succ] at at_ ⊢
          rcases induction _ (fun n => stream (n + 4)) at_ with
            ⟨n, found, placed⟩
          exact ⟨n, found, placed.succ num scenario count⟩

end Placement

/-! ## The modified price -/

section Repriced

variable {num : Numerics} {scenario : Scenario} {count : UInt64}
  {mid : num.Mid} {stream : Nat → Uniform} {k i : Nat} {n : NewOrder}

theorem toInt_levelAt (num : Numerics) (stream : Nat → Uniform) (k : Nat) :
    (Int64.ofNat (levelAt num stream k + 1)).toInt =
      levelAt num stream k + 1 ∧ levelAt num stream k ≤ 799 := by
  have bounded : levelAt num stream k ≤ maxLevel := by
    show (if _ > maxLevel then maxLevel else _) ≤ maxLevel
    split
    · exact Nat.le_refl _
    · omega
  rw [maxLevel] at bounded
  exact ⟨Int64.toInt_ofNat_of_lt (by omega), bounded⟩

/-- A buy above a non-negative mid price can be repriced. -/
theorem PlacedAt.modified_buy
    (placed : PlacedAt num scenario count mid stream k i n)
    (buys : i < count.toNat / 2)
    (nonneg :
      0 ≤ (num.midTicks (midPath num scenario count mid stream k)).toInt) :
    1 ≤ (modifiedPrice n true).toInt := by
  have least := clamped_pos
    (num.midTicks (midPath num scenario count mid stream k) -
      Int64.ofNat (levelAt num stream k + 1))
  have most := (num.midTicks
    (midPath num scenario count mid stream k)).toInt_lt
  have level := toInt_levelAt num stream k
  have difference := Int64.toInt_sub
    (num.midTicks (midPath num scenario count mid stream k))
    (Int64.ofNat (levelAt num stream k + 1))
  rw [level.1, Int.bmod_eq_of_le_mul_two (by omega) (by omega)] at difference
  have room : (clamped (num.midTicks
      (midPath num scenario count mid stream k) -
        Int64.ofNat (levelAt num stream k + 1))).toInt < 2 ^ 63 - 1 := by
    unfold clamped
    split
    · decide
    · omega
  have price := placed.price
  rw [if_pos buys] at price
  rw [modifiedPrice, if_pos rfl, placed.side, if_pos buys, if_pos rfl, price,
    Int64.toInt_add, Int64.toInt_one,
    Int.bmod_eq_of_le_mul_two (by omega) (by omega)]
  omega

/-- A sell can be repriced when it was placed above the first tick. -/
theorem PlacedAt.modified_sell
    (placed : PlacedAt num scenario count mid stream k i n)
    (sells : ¬i < count.toNat / 2) :
    1 ≤ (modifiedPrice n true).toInt ↔
      1 < (sellTicks num scenario count mid stream k).toInt := by
  have most := (sellTicks num scenario count mid stream k).toInt_lt
  have price := placed.price
  rw [if_neg sells] at price
  have repriced : (modifiedPrice n true).toInt =
      (clamped (sellTicks num scenario count mid stream k)).toInt - 1 := by
    have least := clamped_pos (sellTicks num scenario count mid stream k)
    have below := (clamped (sellTicks num scenario count mid stream k)).toInt_lt
    rw [modifiedPrice, if_pos rfl, placed.side, if_neg sells,
      if_neg (by decide), price, Int64.toInt_add,
      show (-1 : Int64).toInt = -1 from rfl,
      Int.bmod_eq_of_le_mul_two (by omega) (by omega)]
    omega
  rw [repriced, clamped]
  split
  · rename_i small
    rw [Int64.lt_iff_toInt_lt, Int64.toInt_one] at small
    rw [Int64.toInt_one]
    omega
  · omega

/-- Above a mid price of a tick or more, a sell is placed beyond a tick. -/
theorem sellTicks_gt
    (some_ : 1 ≤ (num.midTicks
      (midPath num scenario count mid stream k)).toInt)
    (fits : (num.midTicks
      (midPath num scenario count mid stream k)).toInt < 2 ^ 63 - 800) :
    1 < (sellTicks num scenario count mid stream k).toInt := by
  have level := toInt_levelAt num stream k
  rw [sellTicks, Int64.toInt_add, level.1,
    Int.bmod_eq_of_le_mul_two (by omega) (by omega)]
  omega

end Repriced

/-! ## Lifecycles -/

/-- Every NEW and every MODIFY has a price of at least one tick. -/
def ValidPrices (msgs : List Msg) : Prop :=
  ∀ m ∈ msgs, m.type ≠ msgCancel → 1 ≤ m.priceTicks.toInt

theorem validPrices_append (before after : List Msg) :
    ValidPrices (before ++ after) ↔
      ValidPrices before ∧ ValidPrices after :=
  List.forall_mem_append

theorem validPrices_untimed (msgs : List Msg) :
    ValidPrices (msgs.map untimed) ↔ ValidPrices msgs :=
  List.forall_mem_map

theorem validPrices_extends
    {t t' : Timeline} {added : List Msg} (sent : Extends t added t') :
    ValidPrices t'.tl ↔ ValidPrices t.tl ∧ ValidPrices added := by
  rw [← validPrices_untimed, sent.sent, validPrices_append,
    validPrices_untimed]

section Lifecycle

variable (num : Numerics) (n : NewOrder) (oid : UInt64)

theorem validPrices_new (isIoc : Bool) :
    ValidPrices [newMsg n oid isIoc 0] ↔ 1 ≤ n.priceTicks.toInt := by
  rw [ValidPrices, List.forall_mem_singleton]
  exact forall_prop_of_true (by decide : msgNew ≠ msgCancel)

theorem validPrices_modify (mprice : Int64) :
    ValidPrices [modifyMsg n oid mprice 0] ↔ 1 ≤ mprice.toInt := by
  rw [ValidPrices, List.forall_mem_singleton]
  exact forall_prop_of_true (by decide : msgModify ≠ msgCancel)

theorem validPrices_cancelPart (cancel : Option Bool) :
    ValidPrices (cancelPart n oid cancel) := by
  intro m member kind
  have cancels : m = cancelMsg n oid 0 := by
    cases cancel with
    | none => cases member
    | some duplicate =>
        rcases List.mem_cons.mp member with first | again
        · exact first
        · split at again
          · exact List.mem_singleton.mp again
          · cases again
  subst cancels
  exact absurd rfl kind

/-- A stale modify repeats the price of the modify before it. -/
theorem validPrices_stalePart
    {modify : Option Bool} {stale : Bool}
    (late : stale = true → modify.isSome = true)
    (first : ValidPrices (modifyPart n oid modify)) :
    ValidPrices (stalePart n oid (lastPrice n modify) stale) := by
  cases stale with
  | false => exact List.forall_mem_nil _
  | true =>
      rw [modifyPart, if_pos (late rfl)] at first
      exact first

/-- What the draws of a modify decide. -/
theorem maybeModify_run (t : Timeline) (stream : Nat → Uniform) :
    ((maybeModify num n oid t).run stream).2 =
      if (stream 0).val < modifyPct then
        (true, modifiedPrice n (decide ((stream 2).val < repricePct)))
      else (false, n.priceTicks) := by
  have ran : (maybeModify num n oid t).run stream =
      (if (stream 0).val < modifyPct then do
        let gap ← uniform .timing
        let tmod := t.now + 30 + (num.scaled gap 70).toNat
        let r ← uniform .content
        let mprice := modifiedPrice n (r.val < repricePct)
        return (t.push (modifyMsg n oid mprice tmod), true, mprice)
      else return (t, false, n.priceTicks) :
        Draw (Timeline × Bool × Int64)).run fun n => stream (n + 1) := rfl
  rw [ran]
  split <;> rfl

/-- The optional modify is valid when its own draws do not misprice it. -/
theorem validPrices_modifyPart
    {t : Timeline} {stream : Nat → Uniform} {modify : Option Bool}
    (modified : ((maybeModify num n oid t).run stream).2 =
      (modify.isSome, lastPrice n modify))
    (placed : 1 ≤ n.priceTicks.toInt) :
    ValidPrices (modifyPart n oid modify) ↔
      ((stream 0).val < modifyPct → (stream 2).val < repricePct →
        1 ≤ (modifiedPrice n true).toInt) := by
  rw [maybeModify_run] at modified
  by_cases sent : (stream 0).val < modifyPct
  · rw [if_pos sent, Prod.mk.injEq] at modified
    rw [modifyPart, if_pos modified.1.symm, validPrices_modify,
      ← modified.2]
    by_cases reprices : (stream 2).val < repricePct
    · rw [decide_eq_true reprices]
      exact ⟨fun valid _ _ => valid, fun valid => valid sent reprices⟩
    · rw [decide_eq_false reprices]
      exact ⟨fun _ _ reprices' => absurd reprices' reprices, fun _ => placed⟩
  · rw [if_neg sent, Prod.mk.injEq] at modified
    rw [modifyPart, if_neg (by rw [← modified.1]; exact Bool.false_ne_true)]
    exact ⟨fun _ sent' => absurd sent' sent,
      fun _ => List.forall_mem_nil _⟩

/-- What follows the NEW of an order that rests. -/
theorem validPrices_resting
    (t : Timeline) (stream : Nat → Uniform)
    (placed : 1 ≤ n.priceTicks.toInt) :
    ValidPrices ((do
        let first ← maybeModify num n oid t
        let second ← maybeCancel num n oid first.1
        let last ← maybeStale num n oid first.2.1 second.2 first.2.2 second.1
        return last.tick : Draw Timeline).run stream).tl ↔
      ValidPrices t.tl ∧
        ((stream 0).val < modifyPct → (stream 2).val < repricePct →
          1 ≤ (modifiedPrice n true).toInt) := by
  rw [Sampler.run_bind, Sampler.run_bind, Sampler.run_bind_pure]
  rcases (maybeModify_all num n oid t).run stream with
    ⟨modify, afterModify, modified⟩
  rw [← validPrices_modifyPart num n oid modified placed]
  generalize (maybeModify num n oid t).run stream = first at *
  generalize (maybeModify num n oid t).after stream = second
  rcases (maybeCancel_all num n oid first.1).run second with
    ⟨cancel, afterCancel, cancelled⟩
  generalize (maybeCancel num n oid first.1).run second = third at *
  generalize (maybeCancel num n oid first.1).after second = fourth
  rcases (maybeStale_all num n oid first.2.1 third.2 first.2.2 third.1).run
    fourth with ⟨stale, late, afterStale⟩
  have whole := validPrices_extends
    ((afterModify.trans afterCancel).trans (afterStale.trans (.tick _)))
  refine whole.trans (and_congr_right fun _ => ?_)
  rw [List.append_nil, validPrices_append, validPrices_append]
  rw [modified] at late ⊢
  constructor
  · exact fun valid => valid.1.1
  · exact fun valid => ⟨⟨valid, validPrices_cancelPart n oid cancel⟩,
      validPrices_stalePart n oid (fun isStale => (late isStale).1) valid⟩

/-- A lifecycle sends valid prices unless its draws misprice the modify. -/
theorem validPrices_lifecycle
    (t : Timeline) (stream : Nat → Uniform)
    (placed : 1 ≤ n.priceTicks.toInt) :
    ValidPrices ((lifecycle num n oid t).run stream).tl ↔
      ValidPrices t.tl ∧
        (Reprices stream → 1 ≤ (modifiedPrice n true).toInt) := by
  have ran : (lifecycle num n oid t).run stream =
      (if decide ((stream 0).val < iocPct) = true then
        pure (t.push (newMsg n oid (decide ((stream 0).val < iocPct))
          t.now)).tick
      else do
        let first ← maybeModify num n oid (t.push (newMsg n oid
          (decide ((stream 0).val < iocPct)) t.now))
        let second ← maybeCancel num n oid first.1
        let last ← maybeStale num n oid first.2.1 second.2 first.2.2
          second.1
        return last.tick : Draw Timeline).run fun k => stream (k + 1) := rfl
  have sent (isIoc : Bool) :
      ValidPrices (t.push (newMsg n oid isIoc t.now)).tl ↔
        ValidPrices t.tl := by
    rw [validPrices_extends (@Extends.push t (newMsg n oid isIoc t.now)
      (Int.le_refl _))]
    exact and_iff_left ((validPrices_new n oid isIoc).mpr placed)
  rw [ran]
  by_cases immediate : (stream 0).val < iocPct
  · rw [decide_eq_true immediate, if_pos rfl]
    refine (sent true).trans (and_iff_left ?_).symm
    exact fun reprices => absurd immediate reprices.1
  · rw [decide_eq_false immediate, if_neg Bool.false_ne_true,
      validPrices_resting num n oid _ _ placed, sent]
    refine and_congr_right fun _ => ?_
    exact ⟨fun fine reprices => fine reprices.2.1 reprices.2.2,
      fun fine modifies reprices => fine ⟨immediate, modifies, reprices⟩⟩

end Lifecycle

/-! ## Workloads -/

/-- The lifecycles send valid prices unless one of them misprices its order. -/
theorem validPrices_expand
    (num : Numerics) (news : List NewOrder) (order : List Nat)
    (placed : ∀ i ∈ order, 1 ≤ (news.getD i default).priceTicks.toInt)
    (t : Timeline) (stream : Nat → Uniform) :
    ValidPrices ((expand num news order t).run stream).tl ↔
      ValidPrices t.tl ∧
        ∀ arrival ∈ lifecycles num news order t stream,
          Reprices arrival.2 →
            1 ≤ (modifiedPrice (news.getD arrival.1 default) true).toInt := by
  induction order generalizing t stream with
  | nil => exact (and_iff_left (List.forall_mem_nil _)).symm
  | cons i later induction =>
      rw [expand, Sampler.run_bind,
        induction fun j member => placed j (List.mem_cons_of_mem i member),
        validPrices_lifecycle num _ _ t stream (placed i List.mem_cons_self),
        lifecycles, List.forall_mem_cons, and_assoc]

theorem mem_lifecycles
    {num : Numerics} {news : List NewOrder} {order : List Nat}
    {t : Timeline} {stream : Nat → Uniform}
    {arrival : Nat × (Nat → Uniform)}
    (member : arrival ∈ lifecycles num news order t stream) :
    arrival.1 ∈ order := by
  induction order generalizing t stream with
  | nil => cases member
  | cons i later induction =>
      rcases List.mem_cons.mp member with rfl | behind
      · exact List.mem_cons_self
      · exact List.mem_cons_of_mem i (induction behind)

/-- The messages are those of the lifecycles of the arrivals. -/
theorem generate_run_expand
    (num : Numerics) (request : Request) (stream : Nat → Uniform) :
    (generate num request).run stream =
      ((expand num ((placing num request).run stream)
        ((shuffling num request).run
          ((placing num request).after stream)).toList
        { tl := [], now := 0 }).run
          ((shuffling num request).after
            ((placing num request).after stream))).tl := by
  rw [generate_run, emission, Sampler.run_bind, Sampler.run_bind,
    Sampler.run_bind]
  rfl

/-- The arrivals are orders of the request. -/
theorem shuffled_lt
    (num : Numerics) (request : Request) (stream : Nat → Uniform)
    {i : Nat} (member : i ∈ ((shuffling num request).run stream).toList) :
    i < request.count.toNat := by
  have shuffled := (shuffle_all num (request.count.toNat - 1)
    (Array.range request.count.toNat)).run stream
  rw [Array.toList_range] at shuffled
  exact List.mem_range.mp (shuffled.mem_iff.mp member)

/-- The order of an index is placed with the index's own draws. -/
theorem placing_placed
    (num : Numerics) (request : Request) (stream : Nat → Uniform)
    {i : Nat} (below : i < request.count.toNat) :
    PlacedAt num request.scenario request.count num.startMid stream i i
      (((placing num request).run stream).getD i default) := by
  have at_ : (List.range request.count.toNat)[i]? = some i := by
    rw [List.getElem?_range below]
  rcases placeAll_placed num request.scenario request.count _ num.startMid
    stream at_ with ⟨n, found, placed⟩
  rw [placing, List.getD_eq_getElem?_getD, found]
  exact placed

/-- Every order has been placed at one tick or more. -/
theorem placing_pos
    (num : Numerics) (request : Request) (stream : Nat → Uniform)
    {i : Nat} (below : i < request.count.toNat) :
    1 ≤ (((placing num request).run stream).getD i
      default).priceTicks.toInt := by
  rw [(placing_placed num request stream below).price]
  exact clamped_pos _

/-- A workload has valid prices unless an arrival misprices its order. -/
theorem validPrices_generate
    (num : Numerics) (request : Request) (stream : Nat → Uniform) :
    ValidPrices ((generate num request).run stream) ↔
      ∀ arrival ∈ arrivals num request stream, Reprices arrival.2 →
        1 ≤ (modifiedPrice
          (((placing num request).run stream).getD arrival.1 default)
          true).toInt := by
  have valid := validPrices_expand num ((placing num request).run stream) _
    (fun i member => placing_pos num request stream
      (shuffled_lt num request ((placing num request).after stream) member))
    { tl := [], now := 0 } ((shuffling num request).after
      ((placing num request).after stream))
  rw [← generate_run_expand] at valid
  exact valid.trans (and_iff_right (List.forall_mem_nil _))

/-- The repriced order of a sell is valid when it was placed beyond a tick. -/
theorem placing_modified_sell
    (num : Numerics) (request : Request) (stream : Nat → Uniform)
    {i : Nat} (below : i < request.count.toNat)
    (sells : ¬i < request.count.toNat / 2) :
    1 ≤ (modifiedPrice (((placing num request).run stream).getD i default)
        true).toInt ↔
      1 < (sellTicks num request.scenario request.count num.startMid
        stream i).toInt :=
  (placing_placed num request stream below).modified_sell sells

/--
On a mid path of non-negative ticks, every NEW and every MODIFY of a generated
workload has a price of at least one tick exactly when no sell that was placed
at one tick is repriced.
-/
theorem generated_prices_valid
    (num : Numerics) (request : Request) (stream : Nat → Uniform)
    (nonneg : ∀ k < request.count.toNat,
      0 ≤ (num.midTicks (midPath num request.scenario request.count
        num.startMid stream k)).toInt) :
    (∀ m ∈ (generate num request).run stream, m.type ≠ msgCancel →
        1 ≤ m.priceTicks.toInt) ↔
      ∀ arrival ∈ arrivals num request stream, Reprices arrival.2 →
        request.count.toNat / 2 ≤ arrival.1 →
          1 < (sellTicks num request.scenario request.count num.startMid
            stream arrival.1).toInt := by
  refine (validPrices_generate num request stream).trans ?_
  refine forall₂_congr fun arrival member => imp_congr_right fun _ => ?_
  have below := shuffled_lt num request _ (mem_lifecycles member)
  by_cases buys : arrival.1 < request.count.toNat / 2
  · exact ⟨fun _ sells => absurd buys (Nat.not_lt.mpr sells),
      fun _ => (placing_placed num request stream below).modified_buy buys
        (nonneg _ below)⟩
  · rw [placing_modified_sell num request stream below buys]
    exact (imp_iff_right (Nat.not_lt.mp buys)).symm

theorem generated_prices_valid_steady :
    (∀ k < threeOrders.count.toNat,
      0 ≤ (steady.midTicks (midPath steady threeOrders.scenario
        threeOrders.count steady.startMid halves k)).toInt) ∧
    ∀ m ∈ (generate steady threeOrders).run halves, m.type ≠ msgCancel →
      1 ≤ m.priceTicks.toInt := by
  have nonneg : ∀ k < threeOrders.count.toNat,
      0 ≤ (steady.midTicks (midPath steady threeOrders.scenario
        threeOrders.count steady.startMid halves k)).toInt :=
    fun _ _ => (by decide : 0 ≤ (33504 : Int64).toInt)
  refine ⟨nonneg,
    (generated_prices_valid steady threeOrders halves nonneg).mpr ?_⟩
  intro arrival _ _ _
  exact sellTicks_gt (by decide : 1 ≤ (33504 : Int64).toInt)
    (by decide : (33504 : Int64).toInt < 2 ^ 63 - 800)

/-! ## A crash to zero ticks -/

/-- A level within the profile is taken as it was drawn. -/
theorem levelAt_of_le
    (num : Numerics) {stream : Nat → Uniform} {k : Nat}
    (within : num.lowerBound (stream (4 * k + 2)) ≤ maxLevel) :
    levelAt num stream k = num.lowerBound (stream (4 * k + 2)) :=
  if_neg (Nat.not_lt.mpr within)

/-- A buy and a sell in the steepest scenario. -/
def twoOrders : Request where
  scenario := .flashCrash
  count := 2
  enough := twoSides.enough

/--
The draws of a crash: `u1` and the levels are 0 and `u2` is 1/2.  The sell
arrives first, is no IOC order, and all else is 0.
-/
def crashDraws (k : Nat) : Uniform :=
  if k = 1 ∨ k = 5 ∨ k = 9 then half else least

/-- Both mid prices are zero ticks. -/
theorem crash_midTicks {k : Nat} (below : k < 2) :
    RealNumerics.midTicks (midPath RealNumerics.exact .flashCrash 2
      RealNumerics.startMid crashDraws k) = 0 := by
  have start : (0 : ℝ) ≤ RealNumerics.startMid := by
    norm_num [RealNumerics.startMid]
  have first := RealNumerics.step_crash start
  have second := RealNumerics.step_crash first.1
  have price : RealNumerics.startMid / 10 ^ 5 < RealNumerics.tickSize / 2 := by
    norm_num [RealNumerics.startMid, RealNumerics.tickSize]
  have path_zero : midPath RealNumerics.exact .flashCrash 2
      RealNumerics.startMid crashDraws 0 =
        RealNumerics.step .flashCrash 2 RealNumerics.startMid
          least half := rfl
  have path_one : midPath RealNumerics.exact .flashCrash 2
      RealNumerics.startMid crashDraws 1 =
        RealNumerics.step .flashCrash 2
          (RealNumerics.step .flashCrash 2 RealNumerics.startMid
            least half)
          least half := rfl
  cases k with
  | zero =>
      rw [path_zero]
      exact RealNumerics.midTicks_eq_zero first.1 (by linarith [first.2])
  | succ k =>
      obtain rfl : k = 0 := by omega
      rw [path_one]
      refine RealNumerics.midTicks_eq_zero second.1 ?_
      have less : RealNumerics.step .flashCrash 2 RealNumerics.startMid
          least half / 10 ^ 5 ≤
            RealNumerics.startMid / 10 ^ 5 / 10 ^ 5 := by
        linarith [first.2]
      have small : RealNumerics.startMid / 10 ^ 5 / 10 ^ 5 ≤
          RealNumerics.startMid / 10 ^ 5 :=
        div_le_self (by positivity) (by norm_num)
      linarith [second.2]

/-- The sell is placed at one tick. -/
theorem crash_sellTicks :
    sellTicks RealNumerics.exact .flashCrash 2 RealNumerics.startMid
      crashDraws 1 = 1 := by
  have draw : crashDraws (4 * 1 + 2) = least := rfl
  have lowest : RealNumerics.exact.lowerBound (crashDraws (4 * 1 + 2)) = 0 := by
    rw [draw, RealNumerics.exact_lowerBound, RealNumerics.lowerBound_least]
  have level : levelAt RealNumerics.exact crashDraws 1 = 0 := by
    rw [levelAt_of_le, lowest]
    rw [lowest]
    exact Nat.zero_le _
  have mid : RealNumerics.exact.midTicks (midPath RealNumerics.exact
      .flashCrash 2 RealNumerics.startMid crashDraws 1) = 0 :=
    crash_midTicks (by decide)
  unfold sellTicks
  rw [mid, level]
  rfl

/-- The sell arrives first, with the draws from the ninth on. -/
theorem crash_arrives :
    (1, fun k => crashDraws (k + 9)) ∈
      arrivals RealNumerics.exact twoOrders crashDraws := by
  have placed : (placing RealNumerics.exact twoOrders).after crashDraws =
      fun k => crashDraws (k + 8) := rfl
  have shuffled : ((shuffling RealNumerics.exact twoOrders).run
      fun k => crashDraws (k + 8)).toList = [1, 0] := by
    decide +kernel
  have left : (shuffling RealNumerics.exact twoOrders).after
      (fun k => crashDraws (k + 8)) = fun k => crashDraws (k + 9) := rfl
  rw [arrivals, placed, shuffled, left]
  exact List.mem_cons_self

/-- The sell is placed at one tick and repriced to zero. -/
theorem sell_repriced_below_tick :
    ¬∀ (num : Numerics) (request : Request) (stream : Nat → Uniform),
      (∀ k < request.count.toNat,
        0 ≤ (num.midTicks (midPath num request.scenario request.count
          num.startMid stream k)).toInt) →
      ∀ m ∈ (generate num request).run stream, m.type ≠ msgCancel →
        1 ≤ m.priceTicks.toInt := by
  intro valid
  have prices := valid RealNumerics.exact twoOrders crashDraws
    fun k below => by
      have none_ : RealNumerics.exact.midTicks (midPath RealNumerics.exact
          twoOrders.scenario twoOrders.count RealNumerics.exact.startMid
          crashDraws k) = 0 := crash_midTicks below
      rw [none_]
      decide
  have reprices : Reprices fun k => crashDraws (k + 9) := by
    unfold Reprices
    decide +kernel
  have repriced := (validPrices_generate _ _ _).mp prices _ crash_arrives
    reprices
  rw [placing_modified_sell _ _ _ (by decide) (by decide)] at repriced
  rw [show sellTicks RealNumerics.exact twoOrders.scenario twoOrders.count
    RealNumerics.exact.startMid crashDraws 1 = 1 from crash_sellTicks]
    at repriced
  revert repriced
  decide

end MatchingBench.Workload.Prices
