import MatchingBench.Baselines.ExchangeCoreCapacity
import MatchingBench.Scripts.ConformanceCheck
import MatchingBench.Workload.Bounds

/-!
# The edge cases

`EDGE_CASES` of `scripts/conformance_check.py` with their messages.  Written by
`write_bin` and loaded by the harness, every case keeps the contract of the
engines and stays within what the baselines can represent.
-/

set_option autoImplicit false

namespace MatchingBench.Scripts.EdgeCases

open MatchingBench.Adapters
open MatchingBench.Api
open MatchingBench.Baselines
open MatchingBench.Baselines.ExchangeCoreCapacity (legal_deepSweep
  nodup_orderIds sweepingBuy unitSell unitSells)
open MatchingBench.Harness.Contract
open MatchingBench.Harness.Marshalling
open MatchingBench.Reference
open MatchingBench.Scripts.ConformanceCheck (EdgeCase)
open MatchingBench.Workload
open MatchingBench.Workload.Arrivals
open MatchingBench.Workload.Bounds
open MatchingBench.Workload.File
open MatchingBench.Workload.Lifetimes
open MatchingBench.Workload.Loaded

/-! ## Message constructors -/

/-- `BUY`. -/
def buy : Int := 0

/-- `SELL`. -/
def sell : Int := 1

/-- `NEW`; its `ioc` is 0 where the case leaves it out. -/
def new (oid side qty px ioc : Int) : CaseMsg where
  type := 0
  side := side
  ioc := ioc
  qty := qty
  orderId := oid
  priceTicks := px

/-- `CANCEL`. -/
def cancel (oid : Int) : CaseMsg where
  type := 1
  side := 0
  ioc := 0
  qty := 0
  orderId := oid
  priceTicks := 0

/-- `MODIFY`. -/
def modify (oid side nqty npx : Int) : CaseMsg where
  type := 2
  side := side
  ioc := 0
  qty := nqty
  orderId := oid
  priceTicks := npx

/-! ## `EDGE_CASES` -/

/-- An entry of `EDGE_CASES`. -/
structure Case where
  name : String
  msgs : List CaseMsg

/-- The messages of `deep_recursive_sweep_5000`. -/
def deepSweep : List CaseMsg :=
  (List.range 5000).map (fun i : Nat => new (i + 1) sell 1 100 0) ++
    [new 5001 buy 5000 100 1]

/-- `EDGE_CASES`. -/
def edgeCases : List Case :=
  [⟨"cancel_middle_then_sweep",
      [new 1 buy 10 100 0, new 2 buy 10 100 0, new 3 buy 10 100 0, cancel 2,
        new 4 sell 20 100 1]⟩,
    ⟨"cancel_head_then_sweep",
      [new 1 buy 10 100 0, new 2 buy 10 100 0, new 3 buy 10 100 0, cancel 1,
        new 4 sell 20 100 1]⟩,
    ⟨"multi_level_ioc_sweep",
      [new 1 sell 10 102 0, new 2 sell 10 101 0, new 3 sell 10 100 0,
        new 4 buy 30 102 1]⟩,
    ⟨"modify_into_cross",
      [new 1 sell 10 100 0, new 2 buy 10 99 0, modify 2 buy 10 100]⟩,
    ⟨"partial_fill_then_cancel",
      [new 1 sell 10 100 0, new 2 buy 6 100 0, cancel 1]⟩,
    ⟨"full_fill_then_stale_cancel",
      [new 1 sell 10 100 0, new 2 buy 10 100 0, cancel 1]⟩,
    ⟨"fifo_priority",
      [new 1 buy 10 100 0, new 2 buy 10 100 0, new 3 sell 10 100 0]⟩,
    ⟨"deep_fifo_scattered_cancel",
      [new 1 buy 10 100 0, new 2 buy 10 100 0, new 3 buy 10 100 0,
        new 4 buy 10 100 0, new 5 buy 10 100 0, new 6 buy 10 100 0,
        new 7 buy 10 100 0, new 8 buy 10 100 0, cancel 2, cancel 5, cancel 7,
        new 9 sell 50 100 1]⟩,
    ⟨"sweep_residual_becomes_bbo",
      [new 1 sell 10 100 0, new 2 sell 10 101 0, new 3 sell 10 102 0,
        new 4 buy 35 102 0, new 5 sell 5 102 1]⟩,
    ⟨"modify_partially_filled_residual",
      [new 1 sell 10 100 0, new 2 buy 4 100 0, modify 1 sell 6 101,
        new 3 buy 6 101 1]⟩,
    ⟨"stale_modify_after_full_fill",
      [new 1 sell 10 100 0, new 2 buy 10 100 0, modify 1 sell 5 101]⟩,
    ⟨"reuse_id_after_cancel",
      [new 1 buy 10 100 0, cancel 1, new 1 sell 10 200 0, new 2 buy 10 200 1]⟩,
    ⟨"two_level_cancel_sell_priority",
      [new 1 buy 10 100 0, new 2 buy 10 100 0, new 3 buy 10 101 0,
        new 4 buy 10 101 0, cancel 1, cancel 4, new 5 sell 20 100 1]⟩,
    ⟨"exact_multilevel_boundary",
      [new 1 sell 10 100 0, new 2 sell 20 101 0, new 3 sell 30 102 0,
        new 4 buy 60 102 1]⟩,
    ⟨"taker_price_both_directions",
      [new 1 sell 10 100 0, new 2 buy 10 105 1, new 3 buy 10 200 0,
        new 4 sell 10 195 1]⟩,
    ⟨"same_level_full_double_consume",
      [new 1 sell 30 9 0, new 2 sell 40 9 0, new 3 buy 100 9 0,
        new 4 sell 30 9 1]⟩,
    ⟨"post_sweep_book_health",
      [new 1 sell 10 100 0, new 2 sell 10 101 0, new 3 sell 10 102 0,
        new 4 buy 30 102 1, new 5 sell 8 101 0, new 6 buy 8 101 1,
        new 7 sell 8 103 0, new 8 buy 8 103 1]⟩,
    ⟨"price_priority_both_sides_reverse_arrival",
      [new 1 sell 10 105 0, new 2 sell 10 100 0, new 3 buy 10 105 1,
        new 4 buy 10 90 0, new 5 buy 10 95 0, new 6 buy 10 92 0,
        new 7 sell 30 90 1]⟩,
    ⟨"cancel_best_level_minimal_reprobe",
      [new 1 buy 10 100 0, new 2 buy 7 99 0, cancel 1, new 3 sell 7 99 1]⟩,
    ⟨"ioc_partial_fill_must_not_rest",
      [new 1 sell 10 100 0, new 2 buy 15 100 1, new 3 sell 5 100 1]⟩,
    ⟨"limit_order_stops_at_own_price",
      [new 1 sell 5 100 0, new 2 sell 10 105 0, new 3 buy 12 102 0,
        new 4 sell 7 102 1]⟩,
    ⟨"partial_fill_exact_residual_drain",
      [new 1 sell 20 100 0, new 2 buy 8 100 1, new 3 buy 12 100 1,
        new 4 buy 5 100 1]⟩,
    ⟨"fifo_same_price_multi_aggressor",
      [new 1 buy 10 100 0, new 2 buy 10 100 0, new 3 buy 10 100 0,
        new 4 buy 10 100 0, new 5 sell 15 100 1, new 6 sell 15 100 1]⟩,
    ⟨"reuse_id_after_full_fill",
      [new 1 buy 10 100 0, new 2 sell 10 100 0, new 1 sell 10 200 0,
        new 3 buy 10 200 1]⟩,
    ⟨"cancel_never_issued_id",
      [cancel 999, modify 999 buy 5 100]⟩,
    ⟨"stale_ops_after_cancel",
      [new 1 buy 10 100 0, cancel 1, cancel 1, modify 1 buy 5 101]⟩,
    ⟨"wide_in_domain_price_ceiling",
      [new 1 sell 10 200000 0, new 2 buy 10 200000 1]⟩,
    ⟨"large_order_id_ceiling",
      [cancel 2000000]⟩,
    ⟨"deep_recursive_sweep_5000",
      deepSweep⟩,
    ⟨"phantom_trade_exact_exhaust",
      [new 1 sell 5 100 0, new 2 sell 5 100 0, new 3 buy 5 100 1]⟩,
    ⟨"cancel_best_ask_minimal_reprobe",
      [new 1 sell 10 100 0, new 2 sell 7 101 0, cancel 1, new 3 buy 7 101 1]⟩,
    ⟨"cancel_empties_entire_side_then_refill",
      [new 1 buy 10 100 0, cancel 1, new 2 buy 8 95 0, new 3 sell 8 95 1]⟩,
    ⟨"modify_shared_level_sibling_survives",
      [new 1 buy 10 100 0, new 2 buy 10 100 0, modify 1 buy 10 99,
        new 3 sell 10 100 1]⟩,
    ⟨"modify_into_cross_price_improvement",
      [new 1 sell 10 100 0, new 2 buy 10 90 0, modify 2 buy 10 105,
        new 3 buy 10 200 0, new 4 sell 10 210 0, modify 4 sell 10 195]⟩]

theorem named_deepSweep :
    ∀ case ∈ edgeCases, case.name = "deep_recursive_sweep_5000" →
      case.msgs = deepSweep := by
  simp [edgeCases]

/-- What the verdict looks at of a case. -/
def Case.edge (case : Case) : EdgeCase where
  name := case.name
  count := case.msgs.length

/-! ## The messages on the wire -/

/-- The fields of a message in their widths. -/
def onWire (m : CaseMsg) : Generator.Msg where
  ts := 0
  type := UInt8.ofNat m.type.toNat
  side := UInt8.ofNat m.side.toNat
  ioc := UInt8.ofNat m.ioc.toNat
  qty := UInt32.ofNat m.qty.toNat
  orderId := UInt64.ofNat m.orderId.toNat
  priceTicks := Int64.ofInt m.priceTicks

/-- The messages as an engine is handed them. -/
def tape (msgs : List CaseMsg) : List Msg :=
  tapeOf (msgs.map onWire)

/-- What a single message of a case keeps to. -/
structure Plain (m : CaseMsg) : Prop where
  typed : 0 ≤ m.type ∧ m.type ≤ 2
  sided : m.side = buy ∨ m.side = sell
  flagged : m.ioc = 0 ∨ m.ioc = 1
  few : 0 ≤ m.qty ∧ m.qty ≤ 5000
  named : 0 ≤ m.orderId ∧ m.orderId ≤ 2000000
  priced : 0 ≤ m.priceTicks ∧ m.priceTicks ≤ 200000

instance : DecidablePred Plain :=
  fun m => decidable_of_iff
    ((0 ≤ m.type ∧ m.type ≤ 2) ∧ (m.side = buy ∨ m.side = sell) ∧
      (m.ioc = 0 ∨ m.ioc = 1) ∧ (0 ≤ m.qty ∧ m.qty ≤ 5000) ∧
      (0 ≤ m.orderId ∧ m.orderId ≤ 2000000) ∧
      (0 ≤ m.priceTicks ∧ m.priceTicks ≤ 200000))
    ⟨fun ⟨a, b, c, d, e, f⟩ => ⟨a, b, c, d, e, f⟩,
      fun ⟨a, b, c, d, e, f⟩ => ⟨a, b, c, d, e, f⟩⟩

/-- What the messages of a case keep to. -/
structure Suitable (msgs : List CaseMsg) : Prop where
  nonempty : 0 < msgs.length
  short : msgs.length ≤ 5001
  plain : ∀ m ∈ msgs, Plain m
  legal : LegalRun (Between 1 200000) (tape msgs)

instance : DecidablePred Suitable :=
  fun msgs => decidable_of_iff
    (0 < msgs.length ∧ msgs.length ≤ 5001 ∧ (∀ m ∈ msgs, Plain m) ∧
      LegalRun (Between 1 200000) (tape msgs))
    ⟨fun ⟨a, b, c, d⟩ => ⟨a, b, c, d⟩, fun ⟨a, b, c, d⟩ => ⟨a, b, c, d⟩⟩

/-! ## The deep sweep -/

/-- New orders of different identifiers are arranged. -/
theorem arranged_of_news
    {tape : List Msg} (distinct : (tape.map Msg.orderId).Nodup)
    (news : ∀ m ∈ tape, ∃ o, m = .newOrder o ∧ Proper o) : Arranged tape := by
  have apart {front back : List Msg} {m : Msg}
      (split : tape = front ++ m :: back) :
      (front.map Msg.orderId ++
        m.orderId :: back.map Msg.orderId).Nodup := by
    rw [split, List.map_append, List.map_cons] at distinct
    exact distinct
  constructor
  · intro front m back split
    obtain ⟨o, rfl, proper⟩ := news m (by
      rw [split]
      exact List.mem_append_right front List.mem_cons_self)
    refine Arrives.new proper fun earlier before same => ?_
    exact (List.nodup_append.mp (apart split)).2.2 _
      (List.mem_map_of_mem before) _ List.mem_cons_self same
  · intro front m back split a before _ b behind same
    exact (List.nodup_append.mp (apart split)).2.2 _
      (List.mem_map_of_mem before) _
      (List.mem_cons_of_mem _ (List.mem_map_of_mem behind)) same.symm

theorem legalRun_of_news
    {allowed : Int64 → Prop} {tape : List Msg}
    (distinct : (tape.map Msg.orderId).Nodup)
    (news : ∀ m ∈ tape, ∃ o, m = .newOrder o ∧ Proper o ∧
      allowed o.priceTicks) : LegalRun allowed tape := by
  refine legalRun_of_arranged (arranged_of_news distinct fun m member => ?_)
    fun m member => ?_
  · obtain ⟨o, rfl, proper, -⟩ := news m member
    exact ⟨o, rfl, proper⟩
  · obtain ⟨o, rfl, -, permitted⟩ := news m member
    exact permitted

theorem handed_unit (i : Nat) :
    handed i (onWire (new (i + 1) sell 1 100 0)) = unitSell i :=
  rfl

theorem tape_deepSweep :
    tape deepSweep =
      ExchangeCoreCapacity.deepSweep := by
  have sells : tapeOf ((List.range 5000).map fun i : Nat =>
      onWire (new (i + 1) sell 1 100 0)) = unitSells 5000 := by
    rw [tapeOf, unitSells]
    refine List.ext_getElem (by simp) fun i _ _ => ?_
    simp only [List.getElem_mapIdx, List.getElem_map, List.getElem_range]
    exact handed_unit i
  rw [tape, deepSweep, List.map_append, List.map_map, tapeOf,
    List.mapIdx_append, List.length_map, List.length_range]
  exact congrArg₂ (· ++ ·) sells rfl

theorem plain_deepSweep : ∀ m ∈ deepSweep, Plain m := by
  intro m member
  rw [deepSweep] at member
  rcases List.mem_append.mp member with sold | bought
  · obtain ⟨i, below, rfl⟩ := List.mem_map.mp sold
    rw [List.mem_range] at below
    constructor <;> dsimp only [new, sell, buy] <;> omega
  · rw [List.mem_singleton.mp bought]
    decide

theorem suitable_deepSweep : Suitable deepSweep := by
  have length : deepSweep.length = 5001 := by
    rw [deepSweep, List.length_append, List.length_map, List.length_range]
    rfl
  have news : ∀ m ∈ ExchangeCoreCapacity.deepSweep,
      ∃ o, m = .newOrder o ∧ Proper o ∧ Between 1 200000 o.priceTicks := by
    have hundred : Between 1 200000 100 := by decide
    intro m member
    rw [ExchangeCoreCapacity.deepSweep] at member
    rcases List.mem_append.mp member with sold | bought
    · obtain ⟨i, -, rfl⟩ := List.mem_map.mp sold
      exact ⟨_, rfl, ⟨Or.inr rfl, Nat.le_refl 1⟩, hundred⟩
    · obtain rfl := List.mem_singleton.mp bought
      exact ⟨_, rfl, ⟨Or.inl rfl, (by decide : 1 ≤ (5000 : UInt32).toNat)⟩,
        hundred⟩
  have distinct :
      (ExchangeCoreCapacity.deepSweep.map Msg.orderId).Nodup :=
    @nodup_orderIds 5000 (by decide) sweepingBuy rfl
  refine ⟨by omega, by omega, plain_deepSweep, ?_⟩
  rw [tape_deepSweep]
  generalize ExchangeCoreCapacity.deepSweep = msgs at news distinct ⊢
  exact legalRun_of_news distinct news

/-- All cases are suitable. -/
theorem suitable {case : Case} (member : case ∈ edgeCases) :
    Suitable case.msgs := by
  have others : ∀ case ∈ edgeCases,
      case.name = "deep_recursive_sweep_5000" ∨ Suitable case.msgs := by
    decide +kernel
  rcases others case member with deep | holds
  · rw [named_deepSweep case member deep]
    exact suitable_deepSweep
  · exact holds

/-! ## The workload of a case -/

section Suitable

variable {msgs : List CaseMsg}

theorem Plain.inWidths {m : CaseMsg} (plain : Plain m) : m.InWidths := by
  obtain ⟨typed, sided, flagged, few, named, priced⟩ := plain
  unfold buy sell at sided
  constructor <;> omega

theorem caseMsg_onWire {m : CaseMsg} (inWidths : m.InWidths) :
    caseMsg (onWire m) = m := by
  obtain ⟨msg, rfl⟩ := inWidths.exists_msg
  simp [caseMsg, onWire]

/-- What the fields of such a message keep to. -/
structure Wired (g : Generator.Msg) : Prop where
  typed : g.type ≤ 2
  sided : g.side = 0 ∨ g.side = 1
  few : g.qty.toNat ≤ 5000
  named : g.orderId.toNat ≤ 2000000
  priced : 0 ≤ g.priceTicks.toInt ∧ g.priceTicks.toInt ≤ 200000

theorem Plain.wired {m : CaseMsg} (plain : Plain m) : Wired (onWire m) := by
  obtain ⟨g, rfl⟩ := plain.inWidths.exists_msg
  have same : onWire (caseMsg g) = { g with ts := 0 } := by
    simp [caseMsg, onWire]
  obtain ⟨typed, sided, -, few, named, priced⟩ := plain
  unfold caseMsg at typed sided few named priced
  unfold buy sell at sided
  dsimp only at typed sided few named priced
  rw [same]
  refine ⟨?_, ?_, ?_, ?_, priced⟩
  · rw [UInt8.le_iff_toNat_le]
    exact Int.ofNat_le.mp typed.2
  · rcases sided with bought | sold
    · exact Or.inl (UInt8.toNat_inj.mp (Int.ofNat_inj.mp bought))
    · exact Or.inr (UInt8.toNat_inj.mp (Int.ofNat_inj.mp sold))
  · exact Int.ofNat_le.mp few.2
  · exact Int.ofNat_le.mp named.2

theorem Suitable.wired
    (suitable : Suitable msgs) : ∀ g ∈ msgs.map onWire, Wired g := by
  intro g member
  obtain ⟨m, inside, rfl⟩ := List.mem_map.mp member
  exact (suitable.plain m inside).wired

theorem Suitable.written (suitable : Suitable msgs) :
    writeBin msgs = some (workloadBytes (msgs.map onWire)) := by
  have same : (msgs.map onWire).map caseMsg = msgs := by
    rw [List.map_map]
    refine (List.map_congr_left fun m member => ?_).trans (List.map_id msgs)
    exact caseMsg_onWire (suitable.plain m member).inWidths
  have short := suitable.short
  conv_lhs => rw [← same]
  exact writeBin_eq (by rw [List.length_map]; omega)

/-- The workload of a case. -/
def workload (msgs : List CaseMsg) (suitable : Suitable msgs) : Workload where
  msgs := (msgs.map onWire).mapIdx decoded
  nonempty := by
    rw [List.length_mapIdx, List.length_map]
    exact suitable.nonempty
  capped := by
    have short := suitable.short
    rw [List.length_mapIdx, List.length_map, workloadMax]
    omega
  typed := by
    intro m member
    obtain ⟨i, inside, rfl⟩ := List.mem_mapIdx.mp member
    exact (suitable.wired _ (List.getElem_mem inside)).typed

variable (suitable : Suitable msgs)

/-- It is what the harness loads of the written file. -/
theorem loadWorkload_case (path : String) :
    loadWorkload path (some (workloadBytes (msgs.map onWire))) =
      .ok (workload msgs suitable).msgs := by
  refine loadWorkload_workloadBytes ?_ ?_
    (fun g member => (suitable.wired g member).typed) path
  · have nonempty := (workload msgs suitable).nonempty
    rwa [workload, List.length_mapIdx] at nonempty
  · have capped := (workload msgs suitable).capped
    rwa [workload, List.length_mapIdx] at capped

theorem messagesOf_case :
    messagesOf (workload msgs suitable).msgs = tape msgs :=
  messagesOf_decoded _

theorem fields_case :
    ∀ m ∈ (workload msgs suitable).msgs, (m.side = 0 ∨ m.side = 1) ∧
      0 ≤ m.priceTicks.toInt ∧ m.priceTicks.toInt ≤ 200000 := by
  intro m member
  obtain ⟨i, inside, rfl⟩ := List.mem_mapIdx.mp member
  have wired := suitable.wired _ (List.getElem_mem inside)
  exact ⟨wired.sided, wired.priced⟩

include suitable

theorem ids_case : ∀ m ∈ tape msgs, m.orderId.toNat ≤ 2000000 := by
  intro m member
  obtain ⟨seq, g, inside, rfl⟩ := mem_tapeOf member
  rw [orderId_handed]
  exact (suitable.wired g inside).named

theorem lots_case : ∀ m ∈ tape msgs, lots m ≤ 5000 := by
  intro m member
  obtain ⟨seq, g, inside, rfl⟩ := mem_tapeOf member
  have few := (suitable.wired g inside).few
  rw [handed, dispatchMsg_prepare, feedMsg]
  split
  · exact few
  · split
    · exact Nat.zero_le _
    · exact few

/-- No book on the way is too large for the queries. -/
theorem bounded_case
    {front : List Msg} (reached : front <+: tape msgs) :
    Bounded (bookAfter front) := by
  have shorter := reached.length_le
  have short := suitable.short
  have legal := suitable.legal
  rw [tape, tapeOf, List.length_mapIdx, List.length_map] at shorter
  refine bounded_bookAfter (by decide) (legal.of_prefix reached)
    (fun m member => lots_case suitable m (reached.subset member)) ?_
  omega

end Suitable

end MatchingBench.Scripts.EdgeCases
