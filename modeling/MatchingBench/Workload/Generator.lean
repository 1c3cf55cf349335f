import MatchingBench.Lib.Draws
import MatchingBench.Lib.KeyedSort
import Mathlib.Data.Rat.Defs
import Mathlib.Algebra.Order.Ring.Unbundled.Rat

/-!
# The workload generator

`workload/generator.cpp`.  The generator is a program over uniform draws; its
floating-point functions are parameters, of which only the ranges matter.
Timestamps are unbounded integers: a signed overflow would be undefined.
-/

set_option autoImplicit false

namespace MatchingBench.Workload.Generator

open MatchingBench.Lib.Draws
open MatchingBench.Lib.KeyedSort

/-! ## Draws -/

/-- A uniform real in [0,1). -/
abbrev Uniform : Type :=
  { u : ℚ // 0 ≤ u ∧ u < 1 }

/-- What a draw decides: the messages, or only when one is sent. -/
inductive Purpose where
  | content
  | timing
deriving DecidableEq, Repr

/-- A program of the generator. -/
abbrev Draw (α : Type) : Type :=
  Sampler Purpose Uniform α

/-- `Rng::uniform`. -/
def uniform (purpose : Purpose) : Draw Uniform :=
  Sampler.ask purpose

/-- The scenarios of `SCENARIOS`. -/
inductive Scenario where
  | static
  | normal
  | swing25
  | swing40
  | flashCrash
deriving DecidableEq, Repr

/-- `MAX_LEVEL`. -/
def maxLevel : Nat := 799

/-- `CANCEL_PCT`: the double 0.95. -/
def cancelPct : ℚ := 4278419646001971 / 4503599627370496

/-- `MODIFY_PCT`: the double 0.20. -/
def modifyPct : ℚ := 3602879701896397 / 18014398509481984

/-- `DUP_CANCEL_PCT`: the double 0.02. -/
def dupCancelPct : ℚ := 5764607523034235 / 288230376151711744

/-- `DUP_MODIFY_PCT`: the double 0.02. -/
def dupModifyPct : ℚ := dupCancelPct

/-- `IOC_PCT`: the double 0.15. -/
def iocPct : ℚ := 5404319552844595 / 36028797018963968

/-- The share of modifies that also reprice: the double 0.80. -/
def repricePct : ℚ := 3602879701896397 / 4503599627370496

/-- The floating-point part of the generator. -/
structure Numerics where
  /-- A mid price in dollars. -/
  Mid : Type
  /-- `START_MID`. -/
  startMid : Mid
  /-- One step of the mid path, from the two draws of `Rng::normal`. -/
  step : Scenario → UInt64 → Mid → Uniform → Uniform → Mid
  /-- `to_ticks` of a mid price rounded to the tick grid. -/
  midTicks : Mid → Int64
  /-- `std::lower_bound` of a draw in the depth profile. -/
  lowerBound : Uniform → Nat
  /-- A draw times an integer, truncated. -/
  scaled : Uniform → UInt32 → UInt32
  scaled_lt : ∀ u n, 0 < n → scaled u n < n
  /-- `Rng::exponential` at the rate of a level, truncated. -/
  lifetime : Nat → Uniform → Int
  lifetime_nonneg : ∀ level u, 0 ≤ lifetime level u

/-- `Rng::uniform_int`. -/
def uniformInt (num : Numerics) (lo hi : UInt32) : Draw UInt32 := do
  let u ← uniform .content
  return lo + num.scaled u (hi - lo + 1)

/-- `LevelSampler::sample`. -/
def sample (num : Numerics) : Draw Nat := do
  let u ← uniform .content
  let k := num.lowerBound u
  return if k > maxLevel then maxLevel else k

/-! ## Messages -/

/-- `MSG_NEW`. -/
def msgNew : UInt8 := 0

/-- `MSG_CANCEL`. -/
def msgCancel : UInt8 := 1

/-- `MSG_MODIFY`. -/
def msgModify : UInt8 := 2

/-- `Msg`. -/
structure Msg where
  /-- Synthetic timeline timestamp in microseconds. -/
  ts : Int
  type : UInt8
  /-- 0 buy, 1 sell. -/
  side : UInt8
  ioc : UInt8
  qty : UInt32
  orderId : UInt64
  priceTicks : Int64
deriving DecidableEq, Repr

/-- `NewOrder`. -/
structure NewOrder where
  side : UInt8
  priceTicks : Int64
  qty : UInt32
  lvl : Nat
deriving DecidableEq, Repr, Inhabited

/-! ## Phase 1: new orders along the mid path -/

/-- The new order of index `i`. -/
def place
    (num : Numerics) (scenario : Scenario) (count : UInt64) (i : Nat)
    (mid : num.Mid) : Draw (num.Mid × NewOrder) := do
  let u1 ← uniform .content
  let u2 ← uniform .content
  let mid := num.step scenario count mid u1 u2
  let midTicks := num.midTicks mid
  let lvl ← sample num
  let isBuy := decide (i < count.toNat / 2)
  let px :=
    if isBuy then midTicks - Int64.ofNat (lvl + 1)
    else midTicks + Int64.ofNat (lvl + 1)
  let px := if px < 1 then 1 else px
  let qty ← uniformInt num 1 100
  return (mid,
    { side := if isBuy then 0 else 1
      priceTicks := px
      qty := qty
      lvl := lvl })

/-- The loop over the indices, from a mid price. -/
def placeAll
    (num : Numerics) (scenario : Scenario) (count : UInt64) :
    List Nat → num.Mid → Draw (List NewOrder)
  | [], _ => return []
  | i :: later, mid => do
      let (mid, n) ← place num scenario count i mid
      let news ← placeAll num scenario count later mid
      return n :: news

/-! ## Phase 2: arrival order and lifecycles -/

/-- The Fisher–Yates loop from index `i` down to 1. -/
def shuffle (num : Numerics) : Nat → Array Nat → Draw (Array Nat)
  | 0, order => return order
  | i + 1, order => do
      let j ← uniformInt num 0 (UInt32.ofNat (i + 1))
      shuffle num i (order.swapIfInBounds (i + 1) j.toNat)

/-- The messages so far and the running clock. -/
structure Timeline where
  tl : List Msg
  now : Int

/-- Send a message and set the clock to its timestamp. -/
def Timeline.push (t : Timeline) (m : Msg) : Timeline where
  tl := t.tl ++ [m]
  now := m.ts

/-- Advance the clock. -/
def Timeline.tick (t : Timeline) : Timeline :=
  { t with now := t.now + 1 }

/-- A NEW message. -/
def newMsg (n : NewOrder) (oid : UInt64) (isIoc : Bool) (ts : Int) : Msg where
  ts := ts
  type := msgNew
  side := n.side
  ioc := if isIoc then 1 else 0
  qty := n.qty
  orderId := oid
  priceTicks := n.priceTicks

/-- A CANCEL message. -/
def cancelMsg (n : NewOrder) (oid : UInt64) (ts : Int) : Msg where
  ts := ts
  type := msgCancel
  side := n.side
  ioc := 0
  qty := n.qty
  orderId := oid
  priceTicks := n.priceTicks

/-- `mprice`, for an order that is repriced or not. -/
def modifiedPrice (n : NewOrder) (repriced : Bool) : Int64 :=
  if repriced then n.priceTicks + (if n.side = 0 then 1 else -1)
  else n.priceTicks

/-- A MODIFY message, with `mqty` and `mprice`. -/
def modifyMsg (n : NewOrder) (oid : UInt64) (mprice : Int64) (ts : Int) :
    Msg where
  ts := ts
  type := msgModify
  side := n.side
  ioc := 0
  qty := n.qty + 1
  orderId := oid
  priceTicks := mprice

/-- The optional modify: whether it was sent, and `mprice`. -/
def maybeModify
    (num : Numerics) (n : NewOrder) (oid : UInt64) (t : Timeline) :
    Draw (Timeline × Bool × Int64) := do
  let u ← uniform .content
  if u.val < modifyPct then
    let gap ← uniform .timing
    let tmod := t.now + 30 + (num.scaled gap 70).toNat
    let r ← uniform .content
    let mprice := modifiedPrice n (r.val < repricePct)
    return (t.push (modifyMsg n oid mprice tmod), true, mprice)
  else
    return (t, false, n.priceTicks)

/-- The duplicate cancel. -/
def maybeDuplicate
    (num : Numerics) (n : NewOrder) (oid : UInt64) (t : Timeline) :
    Draw Timeline := do
  let u ← uniform .content
  if u.val < dupCancelPct then
    let g ← uniform .timing
    let gap : Int := 1 + (num.scaled g 20).toNat
    return t.push (cancelMsg n oid (t.now + gap))
  else
    return t

/-- The optional cancel: whether it was sent. -/
def maybeCancel
    (num : Numerics) (n : NewOrder) (oid : UInt64) (t : Timeline) :
    Draw (Timeline × Bool) := do
  let u ← uniform .content
  if u.val < cancelPct then
    let e ← uniform .timing
    let ttl := num.lifetime n.lvl e
    let t ← maybeDuplicate num n oid (t.push (cancelMsg n oid (t.now + ttl)))
    return (t, true)
  else
    return (t, false)

/-- The stale modify of an order that was modified and then cancelled. -/
def maybeStale
    (num : Numerics) (n : NewOrder) (oid : UInt64) (modified cancelled : Bool)
    (mprice : Int64) (t : Timeline) : Draw Timeline := do
  if modified && cancelled then
    let u ← uniform .content
    if u.val < dupModifyPct then
      let g ← uniform .timing
      let gap : Int := 1 + (num.scaled g 20).toNat
      return t.push (modifyMsg n oid mprice (t.now + gap))
    else
      return t
  else
    return t

/-- The lifecycle of one order. -/
def lifecycle
    (num : Numerics) (n : NewOrder) (oid : UInt64) (t : Timeline) :
    Draw Timeline := do
  let u ← uniform .content
  let isIoc := decide (u.val < iocPct)
  let t := t.push (newMsg n oid isIoc t.now)
  if isIoc then
    return t.tick
  else
    let (t, modified, mprice) ← maybeModify num n oid t
    let (t, cancelled) ← maybeCancel num n oid t
    let t ← maybeStale num n oid modified cancelled mprice t
    return t.tick

/-- The lifecycle loop, over the rest of the arrival order. -/
def expand (num : Numerics) (news : List NewOrder) :
    List Nat → Timeline → Draw Timeline
  | [], t => return t
  | i :: later, t => do
      let t ← lifecycle num (news.getD i default) (UInt64.ofNat (i + 1)) t
      expand num news later t

/-! ## The generator -/

/-- A request that `main` lets through. -/
structure Request where
  scenario : Scenario
  count : UInt64
  enough : 2 ≤ count.toNat

/-- The variables of `generate` before the sort. -/
structure Emission where
  news : List NewOrder
  order : List Nat
  tl : List Msg

/-- `generate`, up to the sort. -/
def emission (num : Numerics) (request : Request) : Draw Emission := do
  let count := request.count.toNat
  let news ← placeAll num request.scenario request.count (List.range count)
    num.startMid
  let order ← shuffle num (count - 1) (Array.range count)
  let t ← expand num news order.toList { tl := [], now := 0 }
  return { news := news, order := order.toList, tl := t.tl }

/-- The comparator of the sort. -/
def earlier (a b : Msg) : Bool :=
  decide (a.ts < b.ts)

/-- `generate`. -/
def generate (num : Numerics) (request : Request) : Draw (List Msg) := do
  let e ← emission num request
  return stableSort earlier e.tl

end MatchingBench.Workload.Generator
