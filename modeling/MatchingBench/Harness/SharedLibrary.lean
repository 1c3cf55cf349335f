import MatchingBench.Adapters
import MatchingBench.Harness.Contract

/-!
# Adapters as shared libraries

What `load_engine` binds of an adapter that handles every message when it is
called: `engine_on_batch` is the loop over the handlers, `engine_flush` does
nothing, and the reports are pushed as they come up.  A step that faults takes
the process down.
-/

set_option autoImplicit false

namespace MatchingBench.Harness.SharedLibrary

open MatchingBench.Api
open MatchingBench.Adapters
open MatchingBench.Lib.Runs
open MatchingBench.Lib.OrderBook
open MatchingBench.Reference
open MatchingBench.Harness.Audit
open MatchingBench.Harness.Contract
open MatchingBench.Harness.Deliveries
open MatchingBench.Harness.Marshalling
open MatchingBench.Harness.Verdict

variable {σ : Type}

/-! ## Libraries -/

/-- The functions of an adapter over its globals. -/
structure Library (σ : Type) where
  init : σ
  prebuild : σ → Msg → Option σ
  step : σ → Msg → Option (σ × List Report)
  bestBid : σ → Int64
  bestAsk : σ → Int64
  depthAt : σ → Int64 → UInt8 → UInt64

/-- The globals and what has been pushed, unless a step has faulted. -/
abbrev Process (σ : Type) : Type :=
  Option (σ × List Report)

/-- A handler of one message. -/
def Library.handle
    (lib : Library σ) (process : Process σ) (m : Msg) : Process σ :=
  process.bind fun before =>
    (lib.step before.1 m).map fun next => (next.1, before.2 ++ next.2)

/-- One call of `engine_prebuild`. -/
def Library.prepareOne
    (lib : Library σ) (process : Process σ) (m : Msg) : Process σ :=
  process.bind fun before =>
    (lib.prebuild before.1 m).map fun st => (st, before.2)

/-- A query of the globals. -/
def query {α : Type} (process : Process σ) (ask : σ → α) (crashed : α) : α :=
  (process.map fun before => ask before.1).getD crashed

/-- The engine that the harness drives. -/
def Library.engine (lib : Library σ) : Engine (Process σ) where
  init _ := some (lib.init, [])
  onNewOrder process order := lib.handle process (.newOrder order)
  onCancel process request := lib.handle process (.cancel request)
  onModify process request := lib.handle process (.modify request)
  queryBestBid process := query process lib.bestBid 0
  queryBestAsk process := query process lib.bestAsk 0
  queryDepthAt process price side :=
    query process (lib.depthAt · price side) 0
  prebuild := some fun process type arm =>
    lib.prepareOne process (dispatchMsg ⟨type, arm⟩)
  onBatch := some fun process run =>
    run.foldl (fun process p => lib.handle process (dispatchMsg p)) process
  flush := id
  pushed process := (process.map Prod.snd).getD []

/-! ## Calls -/

theorem Library.call_eq (lib : Library σ) : lib.engine.call = lib.handle := by
  funext process m
  cases m <;> rfl

theorem Library.loops (lib : Library σ) :
    Loops lib.engine.toEngineLib := by
  intro onBatch exported process run
  cases exported
  rw [lib.call_eq]

theorem Library.foldl_handle_none (lib : Library σ) (msgs : List Msg) :
    msgs.foldl lib.handle none = none := by
  induction msgs with
  | nil => rfl
  | cons m msgs induction => exact induction

/-- The handlers in a row are a run of the adapter. -/
theorem Library.foldl_handle
    (lib : Library σ) (msgs : List Msg) (st : σ) (out : List Report) :
    msgs.foldl lib.handle (some (st, out)) =
      (run lib.step st msgs).map fun last => (last.1, out ++ last.2) := by
  induction msgs generalizing st out with
  | nil =>
      rw [run, Option.map_some, List.append_nil]
      rfl
  | cons m msgs induction =>
      rw [List.foldl_cons, Library.handle, Option.bind_some, run]
      cases lib.step st m with
      | none =>
          rw [Option.map_none, lib.foldl_handle_none, Option.bind_none,
            Option.map_none]
      | some result =>
          rw [Option.map_some, Option.bind_some, induction]
          cases run lib.step result.1 msgs with
          | none => rfl
          | some last =>
              rw [Option.map_some, Option.map_some, Option.map_some,
                List.append_assoc]

/-- What the harness hands to `engine_prebuild`. -/
theorem dispatchMsg_prebuildArgs
    {m : WorkloadMsg} (typed : m.type ≤ 2) :
    dispatchMsg ⟨(prebuildArgs (prepare m)).1, (prebuildArgs (prepare m)).2⟩ =
      feedMsg m := by
  rw [prebuildArgs_prepare typed]
  unfold prebuildMsgArgs feedMsg
  by_cases isNew : m.type = 0
  · simp only [isNew, if_true]
    rfl
  · by_cases isCancel : m.type = 1
    · simp only [isCancel, if_true]
      rfl
    · simp only [isNew, isCancel, if_false]
      rfl

/-- Pass messages to `engine_prebuild`. -/
def Library.prebuildAll (lib : Library σ) (st : σ) (msgs : List Msg) :
    Option σ :=
  msgs.foldlM lib.prebuild st

theorem Library.foldl_prepareOne
    (lib : Library σ) (msgs : List Msg) {st built : σ} (out : List Report)
    (prebuilt : lib.prebuildAll st msgs = some built) :
    msgs.foldl lib.prepareOne (some (st, out)) = some (built, out) := by
  induction msgs generalizing st with
  | nil =>
      cases prebuilt
      rfl
  | cons m msgs induction =>
      rw [Library.prebuildAll, List.foldlM_cons] at prebuilt
      cases stepped : lib.prebuild st m with
      | none =>
          rw [stepped] at prebuilt
          cases prebuilt
      | some next =>
          rw [stepped] at prebuilt
          rw [List.foldl_cons, Library.prepareOne, Option.bind_some, stepped]
          exact induction prebuilt

/-- The engine before the first message of a workload. -/
theorem Library.engineStart_eq
    (lib : Library σ) (initNonce : UInt64) (workload : Workload) {built : σ}
    (prebuilt : lib.prebuildAll lib.init (messagesOf workload.msgs) =
      some built) :
    engineStart lib.engine.toEngineLib initNonce workload.msgs =
      some (built, []) := by
  rw [← lib.foldl_prepareOne _ [] prebuilt, messagesOf, List.foldl_map]
  change (workload.msgs.map prepare).foldl _ _ = _
  rw [List.foldl_map]
  refine List.foldl_ext _ _ _ fun process m member => ?_
  dsimp only
  rw [dispatchMsg_prebuildArgs (workload.typed m member)]

/-! ## Conformance -/

/-- An engine that is this library, whatever it exports beside the handlers. -/
structure Library.Drives
    (lib : Library σ) (engine : Engine (Process σ))
    (workload : List WorkloadMsg) (built : σ) : Prop where
  call : engine.call = lib.handle
  loops : Loops engine.toEngineLib
  answers : ∀ process m,
    engine.answers process m = lib.engine.answers process m
  pushed : ∀ process,
    engine.pushed (engine.flush process) = lib.engine.pushed process
  starts : ∀ initNonce,
    engineStart engine.toEngineLib initNonce workload = some (built, [])

theorem Library.drives
    (lib : Library σ) (workload : Workload) {built : σ}
    (prebuilt : lib.prebuildAll lib.init (messagesOf workload.msgs) =
      some built) :
    lib.Drives lib.engine workload.msgs built where
  call := lib.call_eq
  loops := lib.loops
  answers _ _ := rfl
  pushed _ := rfl
  starts initNonce := lib.engineStart_eq initNonce workload prebuilt

/-- The library without its optional exports. -/
def Library.bare (lib : Library σ) : Engine (Process σ) :=
  { lib.engine with
    prebuild := none
    onBatch := none }

theorem Library.drives_bare
    (lib : Library σ) (workload : List WorkloadMsg) :
    lib.Drives lib.bare workload lib.init where
  call := by
    funext process m
    cases m <;> rfl
  loops := by
    intro onBatch exported
    cases exported
  answers _ _ := rfl
  pushed _ := rfl
  starts _ := rfl

/-- The library without `engine_prebuild`. -/
def Library.batched (lib : Library σ) : Engine (Process σ) :=
  { lib.engine with prebuild := none }

theorem Library.drives_batched
    (lib : Library σ) (workload : List WorkloadMsg) :
    lib.Drives lib.batched workload lib.init where
  call := by
    funext process m
    cases m <;> rfl
  loops := by
    intro onBatch exported process run
    cases exported
    refine List.foldl_ext _ _ _ fun process p _ => ?_
    cases dispatchMsg p <;> rfl
  answers _ _ := rfl
  pushed _ := rfl
  starts _ := rfl

/--
A library conforms on a legal workload when every step simulates the
reference's and the queries read the book it stands for.
-/
theorem Library.Drives.conforms
    {lib : Library σ} {engine : Engine (Process σ)}
    {allowed : Int64 → Prop} {workload : List WorkloadMsg} {built : σ}
    {related : List Msg → σ → LiveBook → Prop}
    (drives : lib.Drives engine workload built)
    (forward : Forward allowed lib.step related)
    (legal : LegalRun allowed (messagesOf workload))
    (initial : related (messagesOf workload) built Book.empty)
    (queried : ∀ rest st book, related rest st book →
      lib.bestBid st = Reference.bestBid book ∧
        lib.bestAsk st = Reference.bestAsk book ∧
        ∀ m ∈ workload,
          lib.depthAt st m.priceTicks m.side =
            Reference.depthAt book m.priceTicks m.side) :
    Conforms engine workload := by
  refine @Tracks.conforms _ engine workload (Legal allowed)
    (fun rest process book out => ∃ st pushed,
      process = some (st, pushed) ∧ related rest st book ∧
        SameReports pushed out) ?_ legal
  constructor
  · intro initNonce
    exact ⟨built, [], drives.starts initNonce, initial, SameReports.refl []⟩
  · rintro delivery rest process book out msgs ⟨st, pushed, rfl, kept, same⟩
      - admitted
    obtain ⟨last, outs, ran, ends, agree⟩ :=
      simulation (SameReports.refl []) SameReports.append forward rest msgs
        kept admitted
    have delivered :
        deliver engine.toEngineLib (some (st, pushed)) delivery =
          some (last, pushed ++ outs) := by
      have one := foldl_deliver drives.loops [delivery] (some (st, pushed))
      rw [handed_cons, drives.call, show handed [] = [] from rfl,
        List.append_nil, lib.foldl_handle,
        show run lib.step st _ = some (last, outs) from ran] at one
      exact one
    exact ⟨last, _, delivered, ends, SameReports.append _ _ _ _ same agree⟩
  · rintro front rest process out - ⟨st, pushed, rfl, kept, -⟩ m member
    obtain ⟨bid, ask, depth⟩ := queried rest st _ kept
    rw [drives.answers, EngineLib.answers, referenceAnswers, ← bid, ← ask,
      ← depth m member]
    rfl
  · rintro rest process book out ⟨st, pushed, rfl, -, same⟩
    rw [drives.pushed]
    exact same

end MatchingBench.Harness.SharedLibrary
