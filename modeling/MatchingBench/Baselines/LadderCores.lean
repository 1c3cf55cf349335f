import MatchingBench.Baselines.Liquibook
import MatchingBench.Baselines.QuantCup

/-!
# Engines that are their ladders

The least engines that satisfy what the two adapters assume of theirs: the
state is the pair of ladders itself, with the invariant that the assumptions
need.  Behind them stands the order that leaves the tables of both adapters.
-/

set_option autoImplicit false

namespace MatchingBench.Baselines.LadderCores

open MatchingBench.Lib.PriceTime
open MatchingBench.Lib.Ladders

/-! ## QuantCup -/

/-- Ladders whose handles were all given out, each to one order. -/
structure HandleLadders where
  ladders : Sides (Nat × QuantCup.Field) Nat
  calls : Nat
  given : ∀ name, Rests ladders name → name.1 < calls
  unique : ∀ a b, Rests ladders a → Rests ladders b → a.1 = b.1 → a = b

/-- Trade an order and queue the rest of it under the next handle. -/
def HandleLadders.limit (st : HandleLadders) (order : QuantCup.TOrder) :
    HandleLadders where
  ladders := submitted st.ladders (QuantCup.tSide order.side)
    (order.resting st.calls) true
  calls := st.calls + 1
  given name rests := by
    rcases rests_submitted rests with rfl | old
    · exact Nat.lt_succ_self _
    · exact Nat.lt_succ_of_lt (st.given name old)
  unique a b restsA restsB same := by
    rcases rests_submitted restsA with rfl | oldA <;>
      rcases rests_submitted restsB with rfl | oldB
    · rfl
    · exact absurd (st.given b oldB) (same ▸ Nat.lt_irrefl _)
    · exact absurd (st.given a oldA) (same ▸ Nat.lt_irrefl _)
    · exact st.unique a b oldA oldB same

/-- Withdraw whatever rests under a handle. -/
def HandleLadders.cancel (st : HandleLadders) (handle : Nat) :
    HandleLadders where
  ladders side := (st.ladders side).filter (·.id.1 ≠ handle)
  calls := st.calls
  given name rests := by
    rcases rests with ⟨side, o, member, named⟩
    exact st.given name ⟨side, o, List.mem_of_mem_filter member, named⟩
  unique a b restsA restsB same := by
    rcases restsA with ⟨side, o, member, named⟩
    rcases restsB with ⟨side', o', member', named'⟩
    exact st.unique a b ⟨side, o, List.mem_of_mem_filter member, named⟩
      ⟨side', o', List.mem_of_mem_filter member', named'⟩ same

/-- A QuantCup engine. -/
def quantCup : QuantCup.Core where
  State := HandleLadders
  init :=
    { ladders := fun _ => []
      calls := 0
      given := fun _ rests => by
        rcases rests with ⟨_, _, member, _⟩
        cases member
      unique := fun _ _ rests => by
        rcases rests with ⟨_, _, member, _⟩
        cases member }
  limit st order :=
    (st.limit order, st.calls,
      (cross st.ladders (QuantCup.tSide order.side) order.price.toNat
          order.size).fills.flatMap fun fill =>
        [QuantCup.takerExecution order fill,
          QuantCup.makerExecution order fill])
  cancel := HandleLadders.cancel

theorem quantCup_correct (kMaxNumOrders : Nat) :
    quantCup.Correct kMaxNumOrders HandleLadders.ladders
      HandleLadders.calls where
  ladders_init := rfl
  calls_init := rfl
  limit st order _ _ _ _ _ := by
    refine ⟨rfl, rfl, ?_, fun trader rests =>
      Nat.lt_irrefl _ (st.given _ rests)⟩
    dsimp only [quantCup]
    generalize (cross st.ladders (QuantCup.tSide order.side)
      order.price.toNat order.size).fills = fills
    induction fills with
    | nil => exact QuantCup.OncePerSide.nil
    | cons fill fills induction =>
        exact QuantCup.OncePerSide.cons (List.Perm.refl _) induction
  cancel st handle trader rests := by
    refine ⟨?_, rfl⟩
    funext side
    refine List.filter_congr fun o member => ?_
    have same : o.id.1 = handle ↔ o.id = (handle, trader) := by
      constructor
      · exact st.unique _ _ ⟨side, o, member, rfl⟩ rests
      · rintro equal
        rw [equal]
    rw [decide_eq_decide, not_iff_not]
    exact same

/-! ## Liquibook -/

/-- Ladders without empty orders. -/
structure OpenLadders where
  ladders : Sides Nat Nat
  positive : ∀ side, Positive (ladders side)

/-- Trade an order and queue the rest of it if it may rest. -/
def OpenLadders.add
    (st : OpenLadders) (order : Liquibook.SimpleOrder) (rests : Bool) :
    OpenLadders where
  ladders := submitted st.ladders order.bookSide order.resting rests
  positive := positive_submitted st.positive

/-- Withdraw an order. -/
def OpenLadders.cancel (st : OpenLadders) (orderId : Nat) : OpenLadders where
  ladders := withdrawn st.ladders orderId
  positive side o member :=
    st.positive side o (List.mem_of_mem_filter member)

/-- The resting order with an `order_id_`. -/
def OpenLadders.find? (st : OpenLadders) (orderId : Nat) :
    Option (Resting Nat Nat) :=
  lookup (st.ladders .buy ++ st.ladders .sell) orderId

/-- A Liquibook engine with 64-bit prices. -/
def liquibook : Liquibook.Core where
  State := OpenLadders
  init :=
    { ladders := fun _ => []
      positive := fun _ _ member => nomatch member }
  priceBits := 64
  add st order ioc :=
    (st.add order (!ioc),
      (cross st.ladders order.bookSide order.price order.qty).fills.map
        (Liquibook.onFillOf order))
  cancel := OpenLadders.cancel
  orderState st orderId :=
    if (st.find? orderId).isSome then .osAccepted else .osComplete
  openQty st orderId := ((st.find? orderId).map Resting.qty).getD 0
  bids st := (st.ladders .buy).map Liquibook.trackerOf
  asks st := (st.ladders .sell).map Liquibook.trackerOf

theorem liquibook_correct : liquibook.Correct OpenLadders.ladders where
  bits := by decide
  ladders_init := rfl
  add _ _ _ _ _ _ := ⟨rfl, rfl⟩
  cancel _ _ _ := rfl
  resting st orderId := by
    have inside {o : Resting Nat Nat} :
        o ∈ st.ladders .buy ++ st.ladders .sell ↔
          ∃ side, o ∈ st.ladders side := by
      rw [List.mem_append]
      constructor
      · rintro (bid | ask)
        · exact ⟨.buy, bid⟩
        · exact ⟨.sell, ask⟩
      · rintro ⟨_ | _, member⟩
        · exact Or.inl member
        · exact Or.inr member
    dsimp only [liquibook]
    cases found : st.find? orderId with
    | none =>
        refine iff_of_false (fun accepted => nomatch accepted.1) ?_
        rintro ⟨side, o, member, named⟩
        exact lookup_eq_none_iff.mp found
          (List.mem_map.mpr ⟨o, inside.mpr ⟨side, member⟩, named⟩)
    | some o =>
        rcases inside.mp (mem_of_lookup found) with ⟨side, member⟩
        refine iff_of_true ⟨rfl, ?_⟩ ⟨side, o, member, lookup_id found⟩
        exact st.positive side o member
  bids _ := rfl
  asks _ := rfl

/-! ## The largest identifier -/

/-- A new order whose identifier plus one is zero. -/
def largestOrder : Api.NewOrder where
  orderId := 18446744073709551615
  sequenceNumber := 1
  priceTicks := 100
  quantity := 5
  side := 1
  ioc := 0

end MatchingBench.Baselines.LadderCores
