import MatchingBench.Lib.Ladders
import MatchingBench.Lib.Levels
import MatchingBench.Reference
import Mathlib.Data.Nat.Basic

/-!
# Adapters over an engine

What the comparisons of the adapters with the reference share.  An adapter
drives an engine that is taken to be a price-time matcher over its own names
and units; its state stands for a reference book, possibly in a way that
depends on the messages still to come.
-/

set_option autoImplicit false

namespace MatchingBench.Adapters

open MatchingBench.Api
open MatchingBench.Lib.PriceTime
open MatchingBench.Lib.OrderBook
open MatchingBench.Lib.Correspondence
open MatchingBench.Lib.Ladders
open MatchingBench.Lib.Levels
open MatchingBench.Lib.Runs
open MatchingBench.Reference

/-! ## Prices -/

/-- The prices from `low` to `high`. -/
def Between (low high : Int) (price : Int64) : Prop :=
  low ≤ price.toInt ∧ price.toInt ≤ high

instance (low high : Int) : DecidablePred (Between low high) :=
  fun _ => inferInstanceAs (Decidable (_ ∧ _))

/-- Positive prices of at most eleven digits. -/
abbrev TickPrice : Int64 → Prop :=
  Between 1 99999999999

/-- An engine's price is a multiple of an allowed tick. -/
def ScaledTicks
    (allowed : Int64 → Prop) (unit : Nat) (price : Int64) (native : Nat) :
    Prop :=
  allowed price ∧ (native : Int) = unit * price.toInt

theorem scaledTicks_compatible
    {allowed : Int64 → Prop} {unit : Nat} (positive : 0 < unit) :
    OrderCompatible (ScaledTicks allowed unit) := by
  rintro a a' b b' ⟨_, first⟩ ⟨_, second⟩
  rw [Int64.le_iff_toInt_le, ← Int.ofNat_le, first, second]
  exact (Int.mul_le_mul_left (Int.natCast_pos.mpr positive)).symm

/-- A tick is recovered from an unscaled price. -/
theorem ofNat_of_ticks
    {allowed : Int64 → Prop} {price : Int64} {native : Nat}
    (ticks : ScaledTicks allowed 1 price native) :
    Int64.ofNat native = price := by
  have equal : (native : Int) = price.toInt :=
    ticks.2.trans (Int.one_mul _)
  rw [← Int64.ofInt_toInt price, ← equal, Int64.ofInt_eq_ofNat]

/-- A 32-bit quantity as a signed number. -/
theorem toInt64_quantity (quantity : UInt32) :
    quantity.toUInt64.toInt64 = Int64.ofNat quantity.toNat := by
  have word : quantity.toUInt64 = UInt64.ofNat quantity.toNat := by simp
  rw [word, UInt64.toInt64_ofNat']

theorem toInt_quantity (quantity : UInt32) :
    quantity.toUInt64.toInt64.toInt = quantity.toNat := by
  have few := quantity.toNat_lt
  rw [toInt64_quantity]
  exact Int64.toInt_ofNat_of_lt (by omega)

/-! ## Queries -/

/-- The best price of a ladder that stands for the book's. -/
theorem best_of_alike
    {κ ρ : Type} {link : UInt64 → κ → Prop} {same : Int64 → ρ → Prop}
    {unit : Nat} {orders : List (Resting UInt64 Int64)}
    {others : List (Resting κ ρ)} {back : ρ → Int64}
    (alike : AlikeLadders link same unit orders others)
    (recovers : ∀ price native, same price native → back native = price)
    (sentinel : Int64) :
    ((others.head?.map Resting.price).map back).getD sentinel =
      (orders.head?.map Resting.price).getD sentinel := by
  cases alike with
  | nil => rfl
  | cons head _ => exact recovers _ _ head.price

/-- The open quantities of the orders an engine finds at a price. -/
theorem depth_of_alike
    {κ ρ : Type} {link : UInt64 → κ → Prop} {same : Int64 → ρ → Prop}
    {unit : Nat} {orders : List (Resting UInt64 Int64)}
    {others : List (Resting κ ρ)} {price : Int64} {found : Resting κ ρ → Bool}
    (alike : AlikeLadders link same unit orders others)
    (finds : ∀ o r, Alike link same unit o r →
      (o.price = price ↔ found r = true)) :
    ((others.filter found).map Resting.qty).sum =
      unit * ((level price orders).map Resting.qty).sum := by
  have levels :
      AlikeLadders link same unit (level price orders)
        (others.filter found) := by
    refine List.rel_filter (fun o r paired => ?_) alike
    simp only [decide_eq_true_eq]
    exact finds o r paired
  exact levels.sum_qty

/-! ## Levels -/

/-- The levels of a side as the API answers them: ticks and quantities. -/
def wireLevels (book : LiveBook) (side : Side) : List (Int64 × UInt64) :=
  (levels (book.ladder side)).map fun entry =>
    (entry.1, UInt64.ofNat entry.2)

/-- Levels of at most eleven digits, and not too many of them. -/
structure Bounded (book : LiveBook) : Prop where
  total : ∀ side, ∀ entry ∈ levels (book.ladder side), entry.2 < 10 ^ 11
  count : ∀ side, (levels (book.ladder side)).length ≤ 2 ^ 20

/-- The best price from the levels. -/
theorem best_of_levels (book : LiveBook) (side : Side) (sentinel : Int64) :
    ((wireLevels book side).head?.map Prod.fst).getD sentinel =
      (book.best side).getD sentinel := by
  rw [wireLevels, List.head?_map, Option.map_map, Book.best,
    ← head_levels]
  rfl

/-- The depth at a price from the first level there. -/
theorem depth_of_find (book : LiveBook) (price : Int64) (side : UInt8) :
    (((wireLevels book (sideOf side)).find? (·.1 = price)).map
        Prod.snd).getD 0 =
      depthAt book price side := by
  have found := find?_levels (book.sorted (sideOf side)) price
  rw [depthAt, Book.depth, ← found, wireLevels, List.find?_map]
  change (Option.map Prod.snd (Option.map _
    ((levels (book.ladder (sideOf side))).find? (·.1 = price)))).getD 0 = _
  cases (levels (book.ladder (sideOf side))).find? (·.1 = price) <;> rfl

/-- Adding up in a `uint64_t` wraps once at the end. -/
theorem foldl_add_ofNat
    {α : Type} (size : α → Nat) (items : List α) (total : UInt64) :
    items.foldl (fun total item => total + UInt64.ofNat (size item)) total =
      total + UInt64.ofNat (items.map size).sum := by
  induction items generalizing total with
  | nil => simp
  | cons item items induction =>
      rw [List.foldl_cons, induction, List.map_cons, List.sum_cons,
        UInt64.ofNat_add, UInt64.add_assoc]

/-- The depth at a price from all levels there. -/
theorem depth_of_foldl (book : LiveBook) (price : Int64) (side : UInt8) :
    (wireLevels book (sideOf side)).foldl
        (fun total entry =>
          if entry.1 = price then total + entry.2 else total) 0 =
      depthAt book price side := by
  have total := foldl_add_ofNat Prod.snd
    ((levels (book.ladder (sideOf side))).filter (·.1 = price)) 0
  rw [UInt64.zero_add, sum_levels, List.foldl_filter] at total
  rw [wireLevels, List.foldl_map, depthAt, Book.depth, ← total]
  simp only [decide_eq_true_eq]

/-! ## Messages -/

/-- One for a message that makes an engine order: a new order or a modify. -/
def orderCredit : Msg → Nat
  | .cancel _ => 0
  | _ => 1

/-- How many messages of a workload make an engine order. -/
def orderCount (msgs : List Msg) : Nat :=
  (msgs.map orderCredit).sum

@[simp]
theorem orderCount_nil : orderCount [] = 0 :=
  rfl

@[simp]
theorem orderCount_cons (m : Msg) (msgs : List Msg) :
    orderCount (m :: msgs) = orderCredit m + orderCount msgs := by
  simp [orderCount]

/-- The lots that a message asks for. -/
def lots : Msg → Nat
  | .newOrder o => o.quantity.toNat
  | .cancel _ => 0
  | .modify m => m.newQuantity.toNat

/-- The IOC flag of a new order is 0 or 1. -/
def Flagged : Msg → Prop
  | .newOrder o => o.ioc = 0 ∨ o.ioc = 1
  | _ => True

/-- The identifiers of the new orders of a workload satisfy a bound. -/
def NewIds (bound : Nat) (msgs : List Msg) : Prop :=
  ∀ o, Msg.newOrder o ∈ msgs → o.orderId.toNat < bound

theorem NewIds.tail
    {bound : Nat} {m : Msg} {msgs : List Msg}
    (ids : NewIds bound (m :: msgs)) : NewIds bound msgs :=
  fun o member => ids o (List.mem_cons_of_mem _ member)

theorem NewIds.mono
    {few many : Nat} (fewer : few ≤ many) {msgs : List Msg}
    (ids : NewIds few msgs) : NewIds many msgs :=
  fun o member => Nat.lt_of_lt_of_le (ids o member) fewer

/-- The largest identifier is the one whose successor wraps to zero. -/
theorem toNat_succ_id {id : UInt64} (small : id + 1 ≠ 0) :
    (id + 1).toNat = id.toNat + 1 := by
  have fits := id.toNat_lt
  have apart : (id + 1).toNat ≠ 0 := fun wrapped =>
    small (UInt64.toNat_inj.mp wrapped)
  rw [UInt64.toNat_add, show (1 : UInt64).toNat = 1 from rfl] at apart ⊢
  omega

theorem succ_id_ne_zero {id : UInt64} (small : id.toNat < 2 ^ 64 - 1) :
    id + 1 ≠ 0 := by
  intro wrapped
  have zero : (id + 1).toNat = 0 := congrArg UInt64.toNat wrapped
  rw [UInt64.toNat_add, show (1 : UInt64).toNat = 1 from rfl] at zero
  omega

/-- The identifiers of the new orders that may rest satisfy a bound. -/
def GtcIds (bound : Nat) (msgs : List Msg) : Prop :=
  ∀ o, Msg.newOrder o ∈ msgs → o.ioc = 0 → o.orderId.toNat < bound

theorem GtcIds.tail
    {bound : Nat} {m : Msg} {msgs : List Msg}
    (ids : GtcIds bound (m :: msgs)) : GtcIds bound msgs :=
  fun o member => ids o (List.mem_cons_of_mem _ member)

theorem GtcIds.mono
    {few many : Nat} (fewer : few ≤ many) {msgs : List Msg}
    (ids : GtcIds few msgs) : GtcIds many msgs :=
  fun o member limit => Nat.lt_of_lt_of_le (ids o member limit) fewer

/-! ## Runs -/

/-- A step that simulates the reference on every legal message. -/
def Forward
    {σ : Type} (allowed : Int64 → Prop)
    (step : σ → Msg → Option (σ × List Report))
    (related : List Msg → σ → LiveBook → Prop) : Prop :=
  ∀ m rest st book, related (m :: rest) st book → Legal allowed book m →
    ∃ next out, step st m = some (next, out) ∧
      related rest next (Reference.step book m).1 ∧
      SameReports out (Reference.step book m).2

/-- A run of such steps pushes the reference reports. -/
theorem Forward.run
    {σ : Type} {allowed : Int64 → Prop}
    {step : σ → Msg → Option (σ × List Report)}
    {related : List Msg → σ → LiveBook → Prop}
    (forward : Forward allowed step related) {front back : List Msg} {st : σ}
    (initial : related (front ++ back) st Book.empty)
    (legal : LegalRun allowed (front ++ back)) :
    ∃ last out, Lib.Runs.run step st front = some (last, out) ∧
      related back last (bookAfter front) ∧
      SameReports out (reportsOf front) :=
  simulation (SameReports.refl []) SameReports.append forward back front
    initial (legal.of_prefix (List.prefix_append front back))

/-- The book after the messages of a run that are behind. -/
def Reached (msgs rest : List Msg) (book : LiveBook) : Prop :=
  ∃ front, front ++ rest = msgs ∧ bookAfter front = book

/-- Such steps only meet books that the run reaches. -/
theorem Forward.reached
    {σ : Type} {allowed : Int64 → Prop}
    {step : σ → Msg → Option (σ × List Report)}
    {related : List Msg → σ → LiveBook → Prop}
    (forward : Forward allowed step related) (msgs : List Msg) :
    Forward allowed step fun rest st book =>
      related rest st book ∧ Reached msgs rest book := by
  rintro m rest st book ⟨here, front, split, rfl⟩ legal
  obtain ⟨next, out, stepped, kept, same⟩ := forward m rest st _ here legal
  refine ⟨next, out, stepped, ⟨kept, front ++ [m], ?_, ?_⟩, same⟩
  · rw [List.append_assoc, List.singleton_append, split]
  · rw [bookAfter, final_append, final_cons, final_nil]
    rfl

end MatchingBench.Adapters
