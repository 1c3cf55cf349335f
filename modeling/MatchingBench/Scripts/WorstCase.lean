import MatchingBench.Scripts.ChallengeVerdict

/-!
# The worst-case ranking

What `worst_case` makes of the summaries of an engine, and the order in which
`main` ranks several engines by it.
-/

set_option autoImplicit false

namespace MatchingBench.Scripts.WorstCase

open MatchingBench.Lib.Json (plain)
open MatchingBench.Lib.KeyedSort
open MatchingBench.Harness.ReferenceHash
open MatchingBench.Harness.ResultFile
open MatchingBench.Harness.Verdict
open MatchingBench.Scripts.RunChallenge
open MatchingBench.Scripts.ChallengeVerdict

variable {ρ : Type} [LinearOrder ρ] (arithmetic : Arithmetic ρ)

/-! ## The weakest scenario -/

/-- Some values have a median. -/
theorem median_isSome {values : List ρ} (some_ : values ≠ []) :
    (median arithmetic values).isSome = true := by
  have positive := List.length_pos_iff.mpr some_
  have within (i : Nat) (below : i < values.length) :
      ∃ value, (values.insertionSort (· ≤ ·))[i]? = some value :=
    ⟨_, List.getElem?_eq_getElem (by
      rw [List.length_insertionSort]
      exact below)⟩
  unfold median
  dsimp only
  rw [List.length_insertionSort]
  split
  · obtain ⟨value, found⟩ := within (values.length / 2) (by omega)
    rw [found]
    rfl
  · obtain ⟨low, first⟩ := within (values.length / 2 - 1) (by omega)
    obtain ⟨high, second⟩ := within (values.length / 2) (by omega)
    rw [first, second]
    rfl

/-- The scenario that stands for an engine, and its throughput. -/
inductive Weakest (cells : List (Scenario × Cell ρ)) (wc : Worst ρ) :
    Prop where
  /-- All are valid, and none of them is slower. -/
  | measured
      (kind : wc.kind = .measured)
      (valid : ∀ c ∈ cells, c.2.valid = true)
      (attained : ∃ c ∈ cells, c.1 = wc.weakest ∧
        c.2.median = some wc.worst)
      (least : ∀ c ∈ cells, ∀ m, c.2.median = some m → wc.worst ≤ m)
  /-- It is not valid, and counts for nothing. -/
  | failed
      (kind : wc.kind ≠ .measured)
      (nothing : wc.worst = arithmetic.zero)
      (attained : ∃ c ∈ cells, c.1 = wc.weakest ∧ c.2.valid = false)

theorem worstCase_spec
    {cells : List (Scenario × Cell ρ)} (some_ : cells ≠ [])
    (measured : ∀ c ∈ cells, c.2.valid = true → c.2.median.isSome = true) :
    ∃ wc, worstCase arithmetic cells = some wc ∧
      (wc.invalid = (cells.filter fun c => !c.2.valid).map Prod.fst) ∧
        Weakest arithmetic cells wc := by
  unfold worstCase
  dsimp only
  split
  · exact absurd rfl some_
  · rename_i cells _ _ _ weakest rest _ crashed
    refine ⟨_, rfl, rfl, .failed Kind.noConfusion rfl ?_⟩
    have member : weakest ∈ (cells.filter fun c => c.2.median.isNone).map
        Prod.fst := by
      rw [crashed]
      exact List.mem_cons_self
    obtain ⟨c, known, same⟩ := List.mem_map.mp member
    obtain ⟨known, none_⟩ := List.mem_filter.mp known
    refine ⟨c, known, same, ?_⟩
    by_contra valid
    rw [Bool.not_eq_false] at valid
    have some_ := measured c known valid
    rw [Option.isNone_iff_eq_none.mp none_] at some_
    cases some_
  · rename_i cells _ _ _ weakest rest _ crashed invalid
    refine ⟨_, rfl, rfl, .failed Kind.noConfusion rfl ?_⟩
    have member : weakest ∈ (cells.filter fun c => !c.2.valid).map
        Prod.fst := by
      rw [invalid]
      exact List.mem_cons_self
    obtain ⟨c, known, same⟩ := List.mem_map.mp member
    obtain ⟨known, bad⟩ := List.mem_filter.mp known
    exact ⟨c, known, same, (Bool.not_eq_true' _).mp bad⟩
  · rename_i cells _ _ _ _ crashed invalid
    have valid : ∀ c ∈ cells, c.2.valid = true := by
      intro c known
      have clean := List.filter_eq_nil_iff.mp (List.map_eq_nil_iff.mp invalid)
        c known
      rwa [Bool.not_eq_true, Bool.not_eq_false'] at clean
    have medians (c : Scenario × Cell ρ) (known : c ∈ cells) :
        ∃ m, c.2.median = some m :=
      Option.isSome_iff_exists.mp (measured c known (valid c known))
    generalize listed : (cells.filterMap fun c =>
      c.2.median.map fun m => (c.1, m)) = speeds
    have member (c : Scenario × Cell ρ) (known : c ∈ cells) (m : ρ)
        (speed : c.2.median = some m) : (c.1, m) ∈ speeds := by
      rw [← listed, List.mem_filterMap]
      exact ⟨c, known, by rw [speed]; rfl⟩
    obtain ⟨c, known⟩ := List.exists_mem_of_ne_nil cells some_
    obtain ⟨m, speed⟩ := medians c known
    cases least : speeds.argmin Prod.snd with
    | none =>
        rw [List.argmin_eq_none] at least
        have outside := member c known m speed
        rw [least] at outside
        cases outside
    | some best =>
        refine ⟨_, rfl, rfl, .measured rfl valid ?_ ?_⟩
        · have own := List.argmin_mem least
          rw [← listed, List.mem_filterMap] at own
          obtain ⟨c, known, same⟩ := own
          obtain ⟨m, speed, pair⟩ := Option.map_eq_some_iff.mp same
          refine ⟨c, known, congrArg Prod.fst pair, ?_⟩
          rw [speed]
          exact congrArg some (congrArg Prod.snd pair)
        · intro c known m speed
          exact List.le_of_mem_argmin (member c known m speed) least

/-! ## The throughput of a scenario -/

/-- The throughput that the record of a run shows. -/
def throughputOf {args : Args} : Ending args → List Char
  | .failed | .garbled => []
  | .returned run _ => run.results.throughput

section Speed

variable {spec : List Char} {scenario : Scenario} {numbers : Numbers}

/-- The median over the perf runs. -/
def speed (perfRuns : Nat) (endings : Endings spec scenario numbers) :
    Option ρ :=
  median arithmetic <| (List.range perfRuns).map fun i =>
    arithmetic.millions (throughputOf (endings.perf i))

theorem speed_isSome
    {perfRuns : Nat} (enough : 1 ≤ perfRuns)
    (endings : Endings spec scenario numbers) :
    (speed arithmetic perfRuns endings).isSome = true := by
  refine median_isSome arithmetic fun none_ => ?_
  have length := congrArg List.length none_
  rw [List.length_map, List.length_range, List.length_nil] at length
  omega

/-- The summary of certified runs shows their median. -/
theorem median_of_certified
    (printable : Printable spec) {endings : Endings spec scenario numbers}
    {runs : Runs} {perfRuns : Nat} (enough : 1 ≤ perfRuns)
    (shown : endings.Shown perfRuns runs)
    (certified : endings.Certified perfRuns) {cell : Cell ρ}
    (made : challenge arithmetic spec scenario perfRuns runs = some cell) :
    cell.median = speed arithmetic perfRuns endings := by
  have record (i : Nat) (member : i ∈ List.range perfRuns) :
      ∃ r : Results, (endings.perf i).values = r.values ∧
        throughputOf (endings.perf i) = r.throughput := by
    have valid := certified.perf i (List.mem_range.mp member)
    generalize endings.perf i = ending at valid
    cases valid with
    | returned valid whole => exact ⟨_, rfl, rfl⟩
  have read : (List.range perfRuns).mapM (fun i =>
      runHarness spec scenario .perf (runs.perf i)) =
        some ((List.range perfRuns).map fun i =>
          ⟨0, (endings.perf i).values⟩) := by
    have each := @mapM_map_eq_some Nat Nat Trial id
      (fun i => runHarness spec scenario .perf (runs.perf i))
      (fun i => ⟨0, (endings.perf i).values⟩) (List.range perfRuns)
      fun i member =>
        (shown.perf i (List.mem_range.mp member)).read printable
          (certified.perf i (List.mem_range.mp member))
    rwa [List.map_id] at each
  simp only [challenge, read, Option.bind_eq_bind, Option.bind_some,
    Option.bind_eq_some_iff] at made
  obtain ⟨audit, -, made⟩ := made
  simp only [summary, Option.bind_eq_bind, Option.bind_eq_some_iff] at made
  obtain ⟨tputs, shows_, hashes, -, a, -, statuses, -, trades, -, same⟩ :=
    made
  have every : ((List.range perfRuns).map fun i =>
      (⟨0, (endings.perf i).values⟩ : Trial)).filter Trial.measured =
        (List.range perfRuns).map fun i => ⟨0, (endings.perf i).values⟩ := by
    refine List.filter_eq_self.mpr fun trial member => ?_
    obtain ⟨i, below, rfl⟩ := List.mem_map.mp member
    obtain ⟨r, values, -⟩ := record i below
    rw [values]
    exact measured_values r 0
  have known := @mapM_map_eq_some Nat Trial ρ
    (fun i => ⟨0, (endings.perf i).values⟩) (Trial.throughput arithmetic)
    (fun i => arithmetic.millions (throughputOf (endings.perf i)))
    (List.range perfRuns) fun i member => by
      obtain ⟨r, values, throughput⟩ := record i member
      rw [values, throughput]
      exact throughput_values r 0 arithmetic
  rw [every, known] at shows_
  have medians := congrArg Cell.median (Option.some.inj same)
  dsimp only at medians
  rw [← medians, ← Option.some.inj shows_, if_neg, speed]
  intro none_
  have length := congrArg List.length none_
  rw [List.length_map, List.length_range, List.length_nil] at length
  omega

end Speed

/-! ## The ranking -/

/-- What the row of an engine says of its runs. -/
structure Graded
    {spec : List Char} {numbers : Numbers} (scenarios : List Scenario)
    (perfRuns : Nat) (endings : ∀ s, Endings spec s numbers)
    (wc : Worst ρ) : Prop where
  invalid : ∀ s, s ∈ wc.invalid ↔
    s ∈ scenarios ∧ ¬(endings s).Certified perfRuns
  weakest : wc.weakest ∈ scenarios
  /-- The least of the medians, where all scenarios are certified. -/
  measured : (∀ s ∈ scenarios, (endings s).Certified perfRuns) →
    wc.kind = .measured ∧
      speed arithmetic perfRuns (endings wc.weakest) = some wc.worst ∧
      ∀ s ∈ scenarios, ∀ m, speed arithmetic perfRuns (endings s) = some m →
        wc.worst ≤ m
  /-- Nothing, where one is not. -/
  failed : (∃ s ∈ scenarios, ¬(endings s).Certified perfRuns) →
    wc.kind ≠ .measured ∧ wc.worst = arithmetic.zero ∧
      ¬(endings wc.weakest).Certified perfRuns

/-- The worst case, from the summaries of the scenarios. -/
theorem exists_graded
    {spec : List Char} {numbers : Numbers} (printable : Printable spec)
    {scenarios : List Scenario} (some_ : scenarios ≠ [])
    {endings : ∀ s, Endings spec s numbers} {runs : Scenario → Runs}
    {perfRuns : Nat} (enough : 1 ≤ perfRuns)
    (shown : ∀ s ∈ scenarios, (endings s).Shown perfRuns (runs s))
    {cells : Scenario → Cell ρ}
    (made : ∀ s ∈ scenarios,
      challenge arithmetic spec s perfRuns (runs s) = some (cells s)) :
    ∃ wc, worstCase arithmetic (scenarios.map fun s => (s, cells s)) =
        some wc ∧
      Graded arithmetic scenarios perfRuns endings wc := by
  have valid (s : Scenario) (asked : s ∈ scenarios) :
      (cells s).valid = true ↔ (endings s).Certified perfRuns := by
    rw [← challenge_valid_iff arithmetic printable (shown s asked),
      made s asked]
    constructor
    · intro valid
      exact ⟨_, rfl, valid⟩
    · rintro ⟨cell, same, valid⟩
      rw [Option.some.inj same]
      exact valid
  have medians (s : Scenario) (asked : s ∈ scenarios)
      (certified : (endings s).Certified perfRuns) :=
    median_of_certified arithmetic printable enough (shown s asked) certified
      (made s asked)
  have pairs : ∀ c ∈ scenarios.map fun s => (s, cells s),
      c.1 ∈ scenarios ∧ c.2 = cells c.1 := by
    intro c member
    obtain ⟨s, asked, rfl⟩ := List.mem_map.mp member
    exact ⟨asked, rfl⟩
  have pair (s : Scenario) (asked : s ∈ scenarios) :
      (s, cells s) ∈ scenarios.map fun s => (s, cells s) :=
    List.mem_map_of_mem asked
  obtain ⟨wc, found, invalid, weakest⟩ := worstCase_spec arithmetic
    (fun none_ => some_ (List.map_eq_nil_iff.mp none_) :
      (scenarios.map fun s => (s, cells s)) ≠ [])
    fun c member clean => by
      obtain ⟨asked, same⟩ := pairs c member
      rw [same] at clean ⊢
      rw [medians c.1 asked ((valid c.1 asked).mp clean)]
      exact speed_isSome arithmetic enough (endings c.1)
  have all : (∀ s ∈ scenarios, (endings s).Certified perfRuns) ↔
      ∀ c ∈ scenarios.map fun s => (s, cells s), c.2.valid = true := by
    rw [List.forall_mem_map]
    exact forall₂_congr fun s asked => (valid s asked).symm
  refine ⟨wc, found, ?_⟩
  have listed : ∀ s, s ∈ wc.invalid ↔
      s ∈ scenarios ∧ ¬(endings s).Certified perfRuns := by
    intro s
    rw [invalid, List.mem_map]
    constructor
    · rintro ⟨c, member, rfl⟩
      obtain ⟨member, bad⟩ := List.mem_filter.mp member
      obtain ⟨asked, same⟩ := pairs c member
      refine ⟨asked, fun certified => ?_⟩
      rw [same, (valid c.1 asked).mpr certified] at bad
      cases bad
    · rintro ⟨asked, failed⟩
      refine ⟨(s, cells s), List.mem_filter.mpr ⟨pair s asked, ?_⟩, rfl⟩
      rw [Bool.not_eq_true', ← Bool.not_eq_true, valid s asked]
      exact failed
  cases weakest with
  | measured kind clean attained least =>
      obtain ⟨c, member, here, worst⟩ := attained
      obtain ⟨asked, same⟩ := pairs c member
      rw [here] at asked same
      have certified := all.mpr clean
      exact
        { invalid := listed
          weakest := asked
          measured := fun _ => by
            refine ⟨kind, ?_, fun s own m shows_ => ?_⟩
            · rw [← medians _ asked (certified _ asked), ← same]
              exact worst
            · rw [← medians s own (certified s own)] at shows_
              exact least (s, cells s) (pair s own) m shows_
          failed := by
            rintro ⟨s, own, bad⟩
            exact absurd (certified s own) bad }
  | failed kind nothing attained =>
      obtain ⟨c, member, here, bad⟩ := attained
      obtain ⟨asked, same⟩ := pairs c member
      rw [here] at asked same
      have refused : ¬(endings wc.weakest).Certified perfRuns := by
        rw [← valid _ asked, ← same, bad]
        exact Bool.false_ne_true
      exact
        { invalid := listed
          weakest := asked
          measured := fun certified =>
            absurd (certified _ asked) refused
          failed := fun _ => ⟨kind, nothing, refused⟩ }

theorem scenarios_ne_nil (request : Request) : request.scenarios ≠ [] := by
  have all : SCENARIOS ≠ [] := List.cons_ne_nil _ _
  unfold Request.scenarios
  split
  · split
    · exact all
    · exact List.cons_ne_nil _ _
  · exact all

/-- The row of an engine. -/
def rowOf (grid : Grid ρ) (scenarios : List Scenario) (e : List Char) :
    List Char × Option (Worst ρ) :=
  (engineLabel e,
    (cellsOf grid (engineLabel e) scenarios).bind (worstCase arithmetic))

/-- The comparison of the sort, with the larger key in front. -/
theorem compares_rankKey :
    Compares
      (fun a b : List Char × Option (Worst ρ) =>
        decide (rankKey b < rankKey a))
      fun row => OrderDual.toDual (rankKey row) :=
  fun _ _ => rfl

/-- The summaries of an engine in a grid of distinct labels. -/
theorem exists_cells
    {engines : List (List Char)} {scenarios : List Scenario}
    (some_ : scenarios ≠ [])
    (distinct : (engines.map engineLabel).Nodup) {perfRuns : Nat}
    {runs : List Char → Scenario → Runs} {grid : Grid ρ}
    (filled : fillGrid arithmetic perfRuns runs (pairs engines scenarios) ∅ =
      some grid)
    {e : List Char} (known : e ∈ engines) :
    ∃ cells : Scenario → Cell ρ,
      cellsOf grid (engineLabel e) scenarios =
          some (scenarios.map fun s => (s, cells s)) ∧
        ∀ s ∈ scenarios, challenge arithmetic e s perfRuns (runs e s) =
          some (cells s) := by
  have each : ∀ s, s ∈ scenarios → ∃ cell,
      grid.get (engineLabel e, s.name) = some cell ∧
        challenge arithmetic e s perfRuns (runs e s) = some cell := by
    intro s asked
    obtain ⟨cell, found, other, member, same, made⟩ :=
      (fillGrid_eq_some filled).summarised (e, s)
        (mem_pairs.mpr ⟨known, asked⟩)
    rw [keyOf_injective distinct (mem_pairs.mp member).1 known same] at made
    exact ⟨cell, found, made⟩
  have inhabited : Nonempty (Cell ρ) := by
    obtain ⟨s, asked⟩ := List.exists_mem_of_ne_nil scenarios some_
    obtain ⟨cell, -⟩ := each s asked
    exact ⟨cell⟩
  choose! cells found made using each
  refine ⟨cells, ?_, made⟩
  have rows := @mapM_map_eq_some Scenario Scenario (Scenario × Cell ρ) id
    (fun s => (grid.get (engineLabel e, s.name)).map fun cell => (s, cell))
    (fun s => (s, cells s)) scenarios fun s asked => by
      rw [id, found s asked]
      rfl
  rwa [List.map_id] at rows

section Ranking

variable {numbers : Numbers} (request : Request)
  {runs : List Char → Scenario → Runs} {endings : ∀ e s, Endings e s numbers}

/--
Of several engines, and over more scenarios than one, `main` prints a ranking.
It lists every engine once, the larger worst case first and engines with the
same in the order of the command line.  An engine whose scenarios are
all certified is ranked by the least of its medians over the perf runs, and any
other by nothing, whatever it measured; so the former precedes the latter as
soon as its medians are positive.
-/
theorem ranking_exact
    (several : 1 < request.engines.length)
    (across : 1 < request.scenarios.length)
    (enough : 1 ≤ request.perfRuns)
    (distinct : (request.engines.map engineLabel).Nodup)
    (printable : ∀ e ∈ request.engines, Printable e)
    (shown : ∀ e ∈ request.engines, ∀ s ∈ request.scenarios,
      (endings e s).Shown request.perfRuns.toNat (runs e s))
    {grid : Grid ρ} (filled : request.grid arithmetic runs = some grid) :
    ∃ (rows : List (List Char × Option (Worst ρ)))
        (row : List Char → List Char × Option (Worst ρ)),
      request.ranking arithmetic grid = some rows ∧
      rows.Perm (request.engines.map row) ∧
      rows.Pairwise (fun a b => rankKey b ≤ rankKey a) ∧
      (∀ key, fiber rankKey key rows =
        fiber rankKey key (request.engines.map row)) ∧
      (∀ e ∈ request.engines, ∃ wc, row e = (engineLabel e, some wc) ∧
        Graded arithmetic request.scenarios request.perfRuns.toNat
          (endings e) wc) ∧
      ∀ e ∈ request.engines, ∀ f ∈ request.engines,
        (∀ s ∈ request.scenarios,
          (endings e s).Certified request.perfRuns.toNat ∧
            ∀ m, speed arithmetic request.perfRuns.toNat (endings e s) =
              some m → arithmetic.zero < m) →
        (∃ s ∈ request.scenarios,
          ¬(endings f s).Certified request.perfRuns.toNat) →
        ∃ front back, rows = front ++ row e :: back ∧ row f ∈ back := by
  have some_ := scenarios_ne_nil request
  have runs_ : 1 ≤ request.perfRuns.toNat := by omega
  have each (e : List Char) (known : e ∈ request.engines) :
      (cellsOf grid (engineLabel e) request.scenarios).map (fun cells =>
          (engineLabel e, worstCase arithmetic cells)) =
            some (rowOf arithmetic grid request.scenarios e) ∧
        ∃ wc, rowOf arithmetic grid request.scenarios e =
            (engineLabel e, some wc) ∧
          Graded arithmetic request.scenarios request.perfRuns.toNat
            (endings e) wc := by
    obtain ⟨cells, found, made⟩ :=
      exists_cells arithmetic some_ distinct filled known
    obtain ⟨wc, worst, graded⟩ := exists_graded arithmetic
      (printable e known) some_ runs_ (shown e known) made
    rw [rowOf, found, Option.map_some, Option.bind_some]
    exact ⟨rfl, wc, by rw [worst], graded⟩
  have listed := @mapM_map_eq_some (List Char) (List Char) _ id
    (fun e => (cellsOf grid (engineLabel e) request.scenarios).map fun cells =>
      (engineLabel e, worstCase arithmetic cells))
    (rowOf arithmetic grid request.scenarios) request.engines
    fun e known => (each e known).1
  rw [List.map_id] at listed
  have perm := stableSort_perm compares_rankKey
    (request.engines.map (rowOf arithmetic grid request.scenarios))
  have sorted := stableSort_sorted compares_rankKey
    (request.engines.map (rowOf arithmetic grid request.scenarios))
  refine ⟨_, rowOf arithmetic grid request.scenarios, ?_, perm, sorted,
    fun key => fiber_stableSort compares_rankKey (OrderDual.toDual key) _,
    fun e known => (each e known).2, ?_⟩
  · rw [Request.ranking, if_pos ⟨several, across⟩, ranked, listed]
    rfl
  · intro e known f other certified failed
    obtain ⟨wc, own, graded⟩ := (each e known).2
    obtain ⟨wc', theirs, graded'⟩ := (each f other).2
    obtain ⟨-, attained, -⟩ :=
      graded.measured fun s asked => (certified s asked).1
    obtain ⟨-, nothing, -⟩ := graded'.failed failed
    have slower : rankKey (rowOf arithmetic grid request.scenarios f) <
        rankKey (rowOf arithmetic grid request.scenarios e) := by
      rw [own, theirs]
      refine WithBot.coe_lt_coe.mpr ?_
      rw [nothing]
      exact (certified _ graded.weakest).2 _ attained
    have member := perm.mem_iff.mpr (List.mem_map_of_mem known)
    obtain ⟨front, back, whole⟩ := List.append_of_mem member
    refine ⟨front, back, whole, ?_⟩
    have member' := perm.mem_iff.mpr (List.mem_map_of_mem other)
    rw [whole] at member' sorted
    rcases List.mem_append.mp member' with before | behind
    · have order := (List.pairwise_append.mp sorted).2.2 _ before _
        List.mem_cons_self
      exact absurd order (not_le.mpr slower)
    · rcases List.mem_cons.mp behind with same | behind
      · rw [same] at slower
        exact absurd slower (lt_irrefl _)
      · exact behind

end Ranking

/--
Over the five scenarios, the one that hangs comes behind the other, wherever it
was named.
-/
theorem ranking_exact_hanging :
    ∃ (runs : List Char → Scenario → Runs) (grid : Grid Nat)
      (first second : List Char × Option (Worst Nat))
      (front back : List (List Char × Option (Worst Nat))),
      rivalsRequest.scenarios.length = 5 ∧
        rivalsRequest.grid lengths runs = some grid ∧
        rivalsRequest.ranking lengths grid =
          some (front ++ first :: back) ∧ second ∈ back ∧
        first.1 = "quantcup".toList ∧ second.1 = "liquibook".toList := by
  obtain ⟨file, drain, conforming⟩ := exists_quietRun
  let runs (e : List Char) (s : Scenario) : Runs :=
    if e = "quantcup".toList then quietRuns file drain e s else hanging
  let endings (e : List Char) (s : Scenario) : Endings e s fewOrders :=
    if e = "quantcup".toList then quietEndings file drain e s
    else ⟨fun _ => .failed, .failed⟩
  have shown : ∀ e ∈ rivalsRequest.engines, ∀ s ∈ rivalsRequest.scenarios,
      (endings e s).Shown rivalsRequest.perfRuns.toNat (runs e s) := by
    intro e known s asked
    dsimp only [runs, endings]
    split
    · exact shown_quietEndings file drain e s _
    · exact shown_hanging e s _ _
  have quiet : "quantcup".toList ∈ rivalsRequest.engines :=
    List.mem_cons_of_mem _ List.mem_cons_self
  have certified : ∀ s ∈ rivalsRequest.scenarios,
      (endings "quantcup".toList s).Certified rivalsRequest.perfRuns.toNat :=
    fun s asked => certified_quietEndings (conforming _ s asked) _
  have positive (s : Scenario) (m : Nat)
      (found : speed lengths 2 (quietEndings file drain "quantcup".toList s) =
        some m) : 0 < m := by
    have same : speed lengths 2
        (quietEndings file drain "quantcup".toList s) =
          median lengths [noReadings.throughput.text.length,
            noReadings.throughput.text.length] := rfl
    rw [same] at found
    revert found
    revert m
    decide
  have made : ∀ pair ∈ pairs rivalsRequest.engines rivalsRequest.scenarios,
      ∃ cell, challenge lengths pair.1 pair.2 2 (runs pair.1 pair.2) =
        some cell := by
    rintro ⟨e, s⟩ member
    obtain ⟨known, asked⟩ := mem_pairs.mp member
    dsimp only at known asked ⊢
    rcases List.mem_cons.mp known with rfl | known
    · exact ⟨_, rfl⟩
    · obtain rfl := List.mem_singleton.mp known
      obtain ⟨cell, summarised, -⟩ := (challenge_valid_iff lengths
        (printable_rivals _ quiet) (shown _ quiet s asked)).mpr
          (certified s asked)
      exact ⟨cell, summarised⟩
  obtain ⟨grid, filled⟩ := exists_fillGrid ∅ made
  obtain ⟨rows, row, listed, -, -, -, graded, precedes⟩ := ranking_exact
    lengths rivalsRequest (by decide) (by decide) (by decide) (by decide)
    printable_rivals shown filled
  obtain ⟨s, asked⟩ := List.exists_mem_of_ne_nil _
    (scenarios_ne_nil rivalsRequest)
  obtain ⟨front, back, whole, behind⟩ := precedes _ quiet
    "liquibook".toList List.mem_cons_self
    (fun s asked => ⟨certified s asked, positive s⟩)
    ⟨s, asked, fun failed => by cases failed.audit⟩
  obtain ⟨wc, own, -⟩ := graded _ quiet
  obtain ⟨wc', theirs, -⟩ := graded "liquibook".toList List.mem_cons_self
  rw [whole] at listed
  exact ⟨runs, grid, _, _, front, back, rfl, filled, listed, behind,
    by rw [own]; rfl, by rw [theirs]; rfl⟩

end MatchingBench.Scripts.WorstCase
