import MatchingBench.Baselines.ExchangeCoreRefinement
import MatchingBench.Baselines.Validation

/-!
# The exchange-core baseline before the harness

The adapter exports `engine_on_batch`, which is not the loop over its
handlers: a run crosses into the JVM at once and is resumed wherever the
output buffer ends.  The harness cannot tell the difference.
-/

set_option autoImplicit false

namespace MatchingBench.Baselines.ExchangeCoreValidation

open MatchingBench.Api
open MatchingBench.Adapters (Flagged lots)
open MatchingBench.Lib.PriceTime
open MatchingBench.Lib.OrderBook
open MatchingBench.Lib.Ladders
open MatchingBench.Lib.Levels
open MatchingBench.Lib.Draws
open MatchingBench.Lib.Runs
open MatchingBench.Reference
open MatchingBench.Harness.Audit
open MatchingBench.Harness.Contract
open MatchingBench.Harness.Deliveries
open MatchingBench.Harness.Marshalling
open MatchingBench.Harness.SharedLibrary
open MatchingBench.Harness.Verdict
open MatchingBench.Baselines.ExchangeCore
open MatchingBench.Baselines.ExchangeCoreStage
open MatchingBench.Baselines.ExchangeCoreBatch
open MatchingBench.Baselines.ExchangeCorePriceTime
open MatchingBench.Baselines.ExchangeCoreDelivery
open MatchingBench.Baselines.ExchangeCoreCapacity
open MatchingBench.Baselines.ExchangeCoreRefinement
open MatchingBench.Baselines.Validation
open MatchingBench.Workload.Arrivals (tapeOf)
open MatchingBench.Workload.File
open MatchingBench.Workload.Generator (Numerics Request Uniform generate)
open MatchingBench.Workload.Loaded
open MatchingBench.Workload.Structure (steady twoSides meeting)

/-! ## The engine -/

section Engine

variable {core : Core} (snapshots : Snapshots core)

/--
The object after `engine_init`: zeroed buffers, a new book and whatever
`warmup` has left in the command.
-/
def initial (warmed : OrderCommand) : Helper core where
  book := snapshots.newBook
  cmd := warmed
  tradeBuf := List.replicate (stageCap * tradeSize) 0
  outB := List.replicate (outCap * 64) 0

/-- The handlers and queries of `exchange_core_adapter.so`. -/
def exchangeCoreLibrary (warmed : OrderCommand) : Library (Helper core) where
  init := initial snapshots warmed
  prebuild helper _ := some helper
  step := perMessage core
  bestBid helper := bestBid snapshots helper.book
  bestAsk helper := bestAsk snapshots helper.book
  depthAt helper := engineQueryDepthAt snapshots helper.book

/-- A run of messages by `engine_on_batch`. -/
def handRun
    (process : Process (Helper core)) (run : List PreparedMsg) :
    Process (Helper core) :=
  process.bind fun before =>
    (handBatch core before.1 (run.map dispatchMsg)).map fun next =>
      (next.1, before.2 ++ next.2)

/-- The engine: no `engine_prebuild`, but an `engine_on_batch` of its own. -/
def exchangeCore (warmed : OrderCommand) : Engine (Process (Helper core)) :=
  { (exchangeCoreLibrary snapshots warmed).bare with
    onBatch := some handRun }

end Engine

/-! ## Conformance -/

section Conformance

variable {core : Core} {snapshots : Snapshots core}
  {ladders : core.State → Sides Int64 Int64} {allowed : Int64 → Prop}
  {workload : Workload}

/-- The object that stands for the reference book. -/
structure Stands
    (ladders : core.State → Sides Int64 Int64)
    (process : Process (Helper core)) (book : LiveBook)
    (out : List Report) (helper : Helper core) (pushed : List Report) :
    Prop where
  alive : process = some (helper, pushed)
  ready : Ready helper
  mirrors : Mirrors ladders helper.book book
  same : SameReports pushed out

/-- A message through its handler. -/
theorem Stands.handle
    {process : Process (Helper core)} {book : LiveBook}
    {out pushed : List Report} {helper : Helper core} {m : Msg}
    (correct : Correct core snapshots ladders)
    (positive : ExchangeCoreRefinement.Positive allowed)
    (stands : Stands ladders process book out helper pushed)
    (served : Served allowed book m) (warmed : OrderCommand) :
    ∃ helper' pushed',
      Stands ladders
        ((exchangeCoreLibrary snapshots warmed).handle process m)
        (Reference.step book m).1 (out ++ (Reference.step book m).2)
        helper' pushed' := by
  obtain ⟨rfl, ready, mirrors, same⟩ := stands
  have agrees := @Mirrors.agrees _ _ _ (engineOf helper) _ _ correct positive
    mirrors _ served.legal served.inRange
  obtain ⟨after, done, size⟩ := perMessage_of_fits ready.staged
    correct.reduces (agrees.fills.trans_le served.few)
  refine ⟨answered helper (next core (engineOf helper) m) after, _, ?_,
    ⟨size.trans ready.staged, ready.whole⟩, agrees.mirrors,
    SameReports.append _ _ _ _ same agrees.reports⟩
  rw [Library.handle, Option.bind_some]
  change Option.map _ (perMessage core helper m) = _
  rw [done, Option.map_some]

/-- A run of messages in one piece. -/
theorem Stands.handRun
    {process : Process (Helper core)} {book : LiveBook}
    {out pushed : List Report} {helper : Helper core}
    {run : List PreparedMsg}
    (correct : Correct core snapshots ladders)
    (positive : ExchangeCoreRefinement.Positive allowed)
    (stands : Stands ladders process book out helper pushed)
    (short : run.length < 2 ^ 32)
    (served :
      Admitted Reference.step (Served allowed) book (run.map dispatchMsg)) :
    ∃ helper' pushed',
      Stands ladders (handRun process run)
        (final Reference.step book (run.map dispatchMsg))
        (out ++ output Reference.step book (run.map dispatchMsg))
        helper' pushed' := by
  obtain ⟨rfl, ready, mirrors, same⟩ := stands
  obtain ⟨fits, kept, agree⟩ := @Mirrors.run _ _ _ (engineOf helper) _ _
    correct positive _ mirrors served
  obtain ⟨batch, handed, -, -, reports, ends, whole, stage⟩ :=
    @resumeLoop_eq core correct.reduces [] (run.map dispatchMsg) helper
      ready.whole
      (by rwa [List.nil_append, List.length_map])
      fits
  refine ⟨batch.helper, pushed ++ batch.reports, ?_,
    ⟨(congrArg List.length stage).trans ready.staged, whole⟩, ?_, ?_⟩
  · have one : handBatch core helper (run.map dispatchMsg) =
        some (batch.helper, batch.reports) :=
      congrArg (Option.map _) handed
    rw [ExchangeCoreValidation.handRun, Option.bind_some, one,
      Option.map_some]
  · have reached : batch.helper.book = (engineOf batch.helper).1 := rfl
    rw [reached, ends]
    exact kept
  · rw [reports]
    exact SameReports.append _ _ _ _ same agree

/--
The adapter conforms on every workload of legal messages in range that make
no more trades than the stage holds.
-/
theorem exchangeCore_conforms
    (correct : Correct core snapshots ladders)
    (positive : ExchangeCoreRefinement.Positive allowed)
    (warmed : OrderCommand)
    (short : 40 * workload.msgs.length < 2 ^ 31)
    (served :
      Admitted Reference.step (Served allowed) Book.empty
        (messagesOf workload.msgs)) :
    Conforms (exchangeCore snapshots warmed) workload.msgs := by
  refine @Tracks.conforms _ (exchangeCore snapshots warmed) workload.msgs
    (Served allowed)
    (fun _ process book out => ∃ helper pushed,
      Stands ladders process book out helper pushed) ?_ served
  constructor
  · intro initNonce
    refine ⟨initial snapshots warmed, [], rfl,
      ⟨List.length_replicate, List.length_replicate⟩, ?_,
      SameReports.refl []⟩
    change Mirrors ladders snapshots.newBook Book.empty
    rw [Mirrors, correct.newBook]
    exact standsFor_empty _ _ _
  · rintro delivery rest process book out msgs ⟨helper, pushed, stands⟩
      below admitted
    cases delivery with
    | call p =>
        have called :
            (exchangeCore snapshots warmed).call process (dispatchMsg p) =
              (exchangeCoreLibrary snapshots warmed).handle process
                (dispatchMsg p) := by
          cases dispatchMsg p <;> rfl
        have next := stands.handle correct positive admitted.1 warmed
        rw [← called] at next
        change ∃ helper pushed, Stands ladders _ _
          (out ++ ((Reference.step book (dispatchMsg p)).2 ++ [])) _ _
        rw [List.append_nil]
        exact next
    | run run =>
        have length : run.length ≤ workload.msgs.length := by
          have mapped : msgs.length = run.length := List.length_map _
          omega
        exact stands.handRun correct positive (by omega) admitted
  · rintro front rest process out split ⟨helper, pushed, stands⟩ m member
    obtain ⟨rfl, ready, mirrors, same⟩ := stands
    have few : (bookAfter front).size ≤ maxLevels := by
      have size := size_bookAfter_le front
      have length := congrArg List.length split
      rw [List.length_append, messagesOf, List.length_map] at length
      unfold maxLevels
      omega
    have bid := @Mirrors.bestBid _ _ _ (engineOf helper) _ correct mirrors
    have ask := @Mirrors.bestAsk _ _ _ (engineOf helper) _ correct mirrors
    have depth := @Mirrors.depthAt _ _ _ (engineOf helper) _ correct mirrors
      few m.priceTicks m.side
    rw [referenceAnswers, ← bid, ← ask, ← depth]
    rfl
  · rintro rest process book out ⟨helper, pushed, stands⟩
    rw [stands.alive]
    exact stands.same

end Conformance

/-! ## Generated workloads -/

/-- Legal messages of few lots are all served. -/
theorem served_of_fewLots
    {allowed : Int64 → Prop} {msgs : List Msg}
    (legal : LegalRun allowed msgs)
    (few : ∀ m ∈ msgs, Flagged m ∧ lots m ≤ stageCap) :
    Admitted Reference.step (Served allowed) Book.empty msgs := by
  rw [LegalRun, admitted_iff] at legal
  rw [admitted_iff]
  intro front m back split
  have member : m ∈ msgs := by
    rw [split]
    exact List.mem_append_right _ List.mem_cons_self
  obtain ⟨flagged, small⟩ := few m member
  exact served_of_lots (legal front m back split) flagged small

theorem qcPrice_positive :
    ExchangeCoreRefinement.Positive QuantCup.QcPrice := by
  rintro price ⟨low, -⟩
  omega

/--
On every generated workload whose prices QuantCup can hold, once written and
loaded again, exchange-core conforms: no message overruns the staging buffer,
a run handed over at once is answered like its messages, and the harness
judges the engine VALID against a conforming hash and Liquibook.
-/
theorem exchangeCore_validates
    {core : Core} {snapshots : Snapshots core}
    {ladders : core.State → Sides Int64 Int64}
    (correct : Correct core snapshots ladders)
    {liquibook : Liquibook.Core} {lbLadders : liquibook.State → Sides Nat Nat}
    (lbCorrect : liquibook.Correct lbLadders)
    (num : Numerics) (request : Request) (stream : Nat → Uniform)
    (short : 40 * ((generate num request).run stream).length < 2 ^ 31)
    (priced : ∀ m ∈ (generate num request).run stream,
      QuantCup.QcPrice m.priceTicks)
    (warmed : OrderCommand) (path : String)
    (mt19937_64 : UInt64 → Nat → UInt64) (args : Args)
    (verifying : args.writeReference = false)
    (named : args.engineName ≠ "liquibook")
    {baselines : String → BaselineFile}
    (lb : baselines "liquibook" = builtFrom (liquibookLibrary liquibook)) :
    ∃ workload,
      LoadedFrom ((generate num request).run stream) path workload ∧
        Conforms (exchangeCore snapshots warmed) workload.msgs ∧
        JudgedValid mt19937_64 workload args baselines
          (exchangeCore snapshots warmed) := by
  have capped : ((generate num request).run stream).length ≤ workloadMax := by
    unfold workloadMax
    omega
  obtain ⟨workload, loaded⟩ :=
    exists_loadedFrom num request stream capped path
  have legal : LegalRun QuantCup.QcPrice (messagesOf workload.msgs) :=
    loaded.messages ▸ legalRun_generated priced
  have few : ∀ m ∈ messagesOf workload.msgs,
      Flagged m ∧ lots m ≤ stageCap := by
    rw [loaded.messages]
    intro m member
    obtain ⟨flagged, small⟩ := lots_generated member
    exact ⟨flagged, small.trans (by decide)⟩
  have length : workload.msgs.length =
      ((generate num request).run stream).length := by
    have same := congrArg List.length loaded.messages
    rw [messagesOf, List.length_map, tapeOf, List.length_mapIdx] at same
    exact same
  have conforms := exchangeCore_conforms correct qcPrice_positive warmed
    (by rw [length]; exact short) (served_of_fewLots legal few)
  have lbConforms := liquibook_conforms lbCorrect legal
    (loaded.messages ▸
      newIds_generated (Nat.lt_of_le_of_lt capped (by decide)))
    fun m member => loaded_representable loaded lbCorrect.bits priced member
  refine ⟨workload, loaded, conforms, conforms.judgedValid lbConforms ?_
    verifying⟩
  rw [baseName, if_neg (by simpa using named)]
  exact lb

/-! ## An engine that is its book -/

/-- What the price-time book publishes. -/
def ladderSnapshots : Snapshots priceTimeCore where
  newBook := Book.empty
  l2 book side :=
    (levels (Book.ladder book side)).map fun entry =>
      (entry.1, Int64.ofNat entry.2)

theorem priceTimeCore_correct :
    Correct priceTimeCore ladderSnapshots fun book => Book.ladder book where
  newBook := rfl
  newOrder book cmd _ absent _ _ := by
    have fresh : Book.lookup book (restingOf cmd).id = none :=
      not_not.mp (rests_ladder_iff.not.mp absent)
    exact ⟨ladder_newOrder fresh, tradesOf_newOrder fresh⟩
  cancelResting book cmd side o _ member named := by
    have found := Book.lookup_eq_some_iff.mpr ⟨member, named⟩
    dsimp only [priceTimeCore]
    rw [found]
    exact ⟨rfl, rfl, rfl, rfl⟩
  cancelUnknown book cmd _ absent := by
    have missing := not_not.mp (rests_ladder_iff.not.mp absent)
    dsimp only [priceTimeCore]
    rw [missing]
    exact ⟨rfl, CommandResultCode.noConfusion⟩
  reduces := priceTimeCore_reduces
  l2 _ _ := rfl

/-- Two orders that trade, judged VALID against Liquibook. -/
theorem exchangeCore_validates_meeting :
    ∃ workload, Met workload ∧
      meTrade ∈ (reportsOf (messagesOf workload.msgs)).map Report.type ∧
      ∃ file drain, (harnessMain (staticArgs "exchange_core") quietMachine file
        none workload.msgs (exchangeCore ladderSnapshots freshCommand)
        ladderBaselines [0, 1, 2, 3, 4] drain).valid = true := by
  obtain ⟨workload, met, conforms, judged⟩ := exchangeCore_validates
    priceTimeCore_correct LadderCores.liquibook_correct
    steady twoSides meeting (by decide +kernel) (by decide +kernel)
    freshCommand "orders.bin" counting (staticArgs "exchange_core") rfl
    (by decide)
    (show ladderBaselines "liquibook" = _ from if_neg (by decide))
  exact ⟨workload, met, Met.trades met, Met.valid met judged conforms⟩

end MatchingBench.Baselines.ExchangeCoreValidation
