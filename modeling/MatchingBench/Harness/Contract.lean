import MatchingBench.Harness.Verdict

/-!
# Engines that keep the contract

An engine conforms on a workload when, however the workload is handed over,
its answers are those of the reference book and what it has pushed in the end
prints like the reference's reports.  The harness judges such engines VALID,
and what it judges VALID agrees with the reference.
-/

set_option autoImplicit false

namespace MatchingBench.Harness.Contract

open MatchingBench.Api
open MatchingBench.Correctness
open MatchingBench.Canonical.Sha256
open MatchingBench.Lib.DecimalText
open MatchingBench.Lib.KeyedSort
open MatchingBench.Reference
open MatchingBench.Harness.Audit
open MatchingBench.Harness.Deliveries
open MatchingBench.Harness.Drainer
open MatchingBench.Harness.Marshalling
open MatchingBench.Harness.ReferenceHash
open MatchingBench.Harness.Verdict
open MatchingBench.Pgellert.ReportCount

variable {σ τ υ : Type}

/-! ## Conforming engines -/

/-- The messages of a workload, as the handlers receive them. -/
def messagesOf (workload : List WorkloadMsg) : List Msg :=
  workload.map feedMsg

/-- The three queries, answered by the reference after some messages. -/
def referenceAnswers (msgs : List Msg) (m : WorkloadMsg) :
    Int64 × Int64 × UInt64 :=
  (bestBid (bookAfter msgs), bestAsk (bookAfter msgs),
    depthAt (bookAfter msgs) m.priceTicks m.side)

/-- The engine after deliveries. -/
def engineAfter
    (engine : EngineLib σ) (initNonce : UInt64) (workload : List WorkloadMsg)
    (deliveries : List Delivery) : σ :=
  deliveries.foldl (deliver engine) (engineStart engine initNonce workload)

/-- The contract on one workload, whatever the deliveries. -/
structure Conforms (engine : Engine σ) (workload : List WorkloadMsg) :
    Prop where
  answers : ∀ initNonce deliveries,
    deliveries.flatMap Delivery.messages <+: workload.map prepare →
      ∀ m ∈ workload,
        engine.answers
            (engineAfter engine.toEngineLib initNonce workload deliveries)
            m =
          referenceAnswers (handed deliveries) m
  reports : ∀ initNonce deliveries,
    deliveries.flatMap Delivery.messages = workload.map prepare →
      SameReports
        (engine.pushed (engine.flush
          (engineAfter engine.toEngineLib initNonce workload deliveries)))
        (reportsOf (handed deliveries))

theorem map_dispatchMsg_prepare (workload : List WorkloadMsg) :
    (workload.map prepare).map dispatchMsg = messagesOf workload := by
  rw [List.map_map]
  exact List.map_congr_left fun m _ => dispatchMsg_prepare m

/-! ## Conformance by simulation -/

/--
A relation between the messages to come, the engine, the reference book and
the reference's reports so far that every delivery keeps.
-/
structure Tracks
    (engine : Engine σ) (workload : List WorkloadMsg)
    (admissible : LiveBook → Msg → Prop)
    (stands : List Msg → σ → LiveBook → List Report → Prop) : Prop where
  starts : ∀ initNonce,
    stands (messagesOf workload)
      (engineStart engine.toEngineLib initNonce workload)
      Lib.OrderBook.Book.empty []
  delivers : ∀ delivery rest state book out,
    let msgs := delivery.messages.map dispatchMsg
    stands (msgs ++ rest) state book out →
      msgs.length ≤ workload.length →
        Lib.Runs.Admitted Reference.step admissible book msgs →
          stands rest (deliver engine.toEngineLib state delivery)
            (Lib.Runs.final Reference.step book msgs)
            (out ++ Lib.Runs.output Reference.step book msgs)
  answers : ∀ front rest state out,
    front ++ rest = messagesOf workload →
      stands rest state (bookAfter front) out →
        ∀ m ∈ workload, engine.answers state m = referenceAnswers front m
  pushed : ∀ rest state book out, stands rest state book out →
    SameReports (engine.pushed (engine.flush state)) out

section Tracks

variable {engine : Engine σ} {workload : List WorkloadMsg}
  {admissible : LiveBook → Msg → Prop}
  {stands : List Msg → σ → LiveBook → List Report → Prop}

theorem handed_cons (delivery : Delivery) (deliveries : List Delivery) :
    handed (delivery :: deliveries) =
      delivery.messages.map dispatchMsg ++ handed deliveries := by
  rw [handed, List.flatMap_cons, List.map_append, handed]

/-- Deliveries in a row keep the relation. -/
theorem Tracks.foldl
    (tracks : Tracks engine workload admissible stands) (rest : List Msg)
    (deliveries : List Delivery) {state : σ} {book : LiveBook}
    {out : List Report}
    (before : stands (handed deliveries ++ rest) state book out)
    (short : (handed deliveries).length ≤ workload.length)
    (admitted :
      Lib.Runs.Admitted Reference.step admissible book
        (handed deliveries)) :
    stands rest
      (deliveries.foldl (deliver engine.toEngineLib) state)
      (Lib.Runs.final Reference.step book (handed deliveries))
      (out ++ Lib.Runs.output Reference.step book (handed deliveries)) := by
  induction deliveries generalizing state book out with
  | nil =>
      change stands rest state book (out ++ [])
      rw [List.append_nil]
      exact before
  | cons delivery deliveries induction =>
      rw [handed_cons] at before short admitted ⊢
      rw [List.append_assoc] at before
      rw [List.length_append] at short
      rw [Lib.Runs.admitted_append] at admitted
      have next := tracks.delivers delivery _ state book out before
        (by omega) admitted.1
      rw [Lib.Runs.final_append, Lib.Runs.output_append,
        ← List.append_assoc]
      exact induction next (by omega) admitted.2

/-- An engine that tracks the reference conforms. -/
theorem Tracks.conforms
    (tracks : Tracks engine workload admissible stands)
    (admitted :
      Lib.Runs.Admitted Reference.step admissible Lib.OrderBook.Book.empty
        (messagesOf workload)) :
    Conforms engine workload := by
  have reached (initNonce : UInt64) (deliveries : List Delivery)
      (front : deliveries.flatMap Delivery.messages <+:
        workload.map prepare) :
      ∃ rest, handed deliveries ++ rest = messagesOf workload ∧
        stands rest
          (engineAfter engine.toEngineLib initNonce workload deliveries)
          (bookAfter (handed deliveries))
          (reportsOf (handed deliveries)) := by
    obtain ⟨back, whole⟩ := front
    have split :
        handed deliveries ++ back.map dispatchMsg = messagesOf workload := by
      rw [← map_dispatchMsg_prepare, ← whole, List.map_append, handed]
    refine ⟨_, split, ?_⟩
    rw [← split, Lib.Runs.admitted_append] at admitted
    have length := congrArg List.length split
    rw [List.length_append, messagesOf, List.length_map, List.length_map]
      at length
    exact tracks.foldl _ deliveries (split ▸ tracks.starts initNonce)
      (by omega) admitted.1
  constructor
  · intro initNonce deliveries front m member
    obtain ⟨rest, split, stands⟩ := reached initNonce deliveries front
    exact tracks.answers _ rest _ _ split stands m member
  · intro initNonce deliveries whole
    obtain ⟨rest, -, stands⟩ :=
      reached initNonce deliveries (whole ▸ List.prefix_refl _)
    exact tracks.pushed _ _ _ _ stands

end Tracks

section Conforms

variable {engine : Engine σ} {workload : Workload}

/-- What a conforming engine answers when it is probed. -/
theorem Conforms.measured
    (conforms : Conforms engine workload.msgs) (initNonce : UInt64)
    {auditIdx : List Nat} (ascending : auditIdx.Pairwise (· < ·))
    {i : Nat} (audited : i ∈ auditIdx) {m : WorkloadMsg}
    (member : m ∈ workload.msgs) :
    engine.answers
        (measuredState engine.toEngineLib initNonce workload.msgs auditIdx i)
        m =
      referenceAnswers (messagesOf (workload.msgs.take (i + 1))) m := by
  have runs := flatten_measuredRuns engine.toEngineLib workload.msgs
    ascending audited
  generalize whole : measuredRuns engine.toEngineLib workload.msgs auditIdx
    i = pieces at runs
  have messages :
      (pieces.map Delivery.run).flatMap Delivery.messages =
        (workload.msgs.take (i + 1)).map prepare := by
    rw [List.flatMap_map, List.map_take, ← runs]
    exact List.flatMap_id'
  have answered := conforms.answers initNonce (pieces.map .run)
    (by
      rw [messages, List.map_take]
      exact List.take_prefix _ _)
    m member
  rw [handed, messages, map_dispatchMsg_prepare, engineAfter,
    List.foldl_map] at answered
  rw [measuredState, whole]
  exact answered

/-- What a conforming baseline answers when it is replayed. -/
theorem Conforms.replayed
    (conforms : Conforms engine workload.msgs) (i : Nat) {m : WorkloadMsg}
    (member : m ∈ workload.msgs) :
    engine.answers (replayedState engine.toEngineLib workload.msgs i) m =
      referenceAnswers (messagesOf (workload.msgs.take (i + 1))) m := by
  have messages :
      ((workload.msgs.take (i + 1)).map fun m =>
          Delivery.call (prepare m)).flatMap Delivery.messages =
        (workload.msgs.take (i + 1)).map prepare := by
    rw [List.flatMap_map]
    exact List.map_eq_flatMap.symm
  have answered := conforms.answers 0
    ((workload.msgs.take (i + 1)).map fun m => .call (prepare m))
    (by
      rw [messages, List.map_take]
      exact List.take_prefix _ _)
    m member
  rw [handed, messages, map_dispatchMsg_prepare, engineAfter,
    List.foldl_map] at answered
  have fed :
      (fun state m => deliver engine.toEngineLib state
          (.call (prepare m))) = feed engine.toEngineLib := by
    funext state m
    rw [deliver, dispatchMsg_prepare, feed]
  rw [fed] at answered
  rw [replayedState, replayStart_eq _ workload.typed]
  exact answered

/-- What a conforming engine has pushed in the end. -/
theorem Conforms.engineEnd
    (conforms : Conforms engine workload.msgs) (mode : Mode)
    (initNonce : UInt64) {auditIdx : List Nat}
    (ascending : auditIdx.Pairwise (· < ·))
    (below : ∀ i ∈ auditIdx, i < workload.msgs.length) :
    SameReports
      (engine.pushed (engineEnd engine mode initNonce workload.msgs auditIdx))
      (reportsOf (messagesOf workload.msgs)) := by
  obtain ⟨deliveries, whole, reached⟩ :=
    measuredRun_delivers engine.toEngineLib mode initNonce workload.capped
      ascending below
  have pushed := conforms.reports initNonce deliveries whole
  rw [handed, whole, map_dispatchMsg_prepare] at pushed
  rw [Verdict.engineEnd, reached]
  exact pushed

/-- Nothing rests before the first message. -/
theorem Conforms.prestart
    (conforms : Conforms engine workload.msgs) (initNonce : UInt64) :
    engine.queryBestBid
          (engineStart engine.toEngineLib initNonce workload.msgs) =
        int64Min ∧
      engine.queryBestAsk
          (engineStart engine.toEngineLib initNonce workload.msgs) =
        int64Max := by
  obtain ⟨m, member⟩ := List.exists_mem_of_length_pos workload.nonempty
  have answered :=
    conforms.answers initNonce [] List.nil_prefix m member
  exact ⟨congrArg Prod.fst answered,
    congrArg (fun answers => answers.2.1) answered⟩

end Conforms

theorem newCount_le (msgs : List Msg) : newCount msgs ≤ msgs.length := by
  induction msgs with
  | nil => exact Nat.le_refl _
  | cons m msgs induction =>
      have one : newCredit m ≤ 1 := by
        cases m with
        | newOrder o => exact Nat.le_refl _
        | cancel c => exact Nat.zero_le _
        | modify m => exact Nat.zero_le _
      rw [newCount_cons, List.length_cons]
      omega

/-- How many orders can rest after some messages. -/
theorem size_bookAfter_le (msgs : List Msg) :
    (bookAfter msgs).size ≤ 2 * msgs.length := by
  have paid := Lib.Runs.output_length_le step_reports_length
    Lib.OrderBook.Book.empty msgs
  have few := newCount_le msgs
  rw [sum_credits,
    show (Lib.OrderBook.Book.empty : LiveBook).size = 0 from rfl] at paid
  change _ + (bookAfter msgs).size ≤ _ at paid
  omega

/-- The reference pushes at most two reports a message. -/
theorem length_reportsOf_le (workload : List WorkloadMsg) :
    (reportsOf (messagesOf workload)).length ≤ workload.length * 2 := by
  have paid := reportsOf_length_le (messagesOf workload)
  have few := newCount_le (messagesOf workload)
  have length : (messagesOf workload).length = workload.length :=
    List.length_map _
  omega

/-! ## The reference as an engine -/

/-- One message, its reports pushed behind the others. -/
def handle (state : LiveBook × List Report) (m : Msg) :
    LiveBook × List Report :=
  ((Reference.step state.1 m).1, state.2 ++ (Reference.step state.1 m).2)

theorem foldl_handle (msgs : List Msg) (state : LiveBook × List Report) :
    msgs.foldl handle state =
      (Lib.Runs.final Reference.step state.1 msgs,
        state.2 ++ Lib.Runs.output Reference.step state.1 msgs) := by
  induction msgs generalizing state with
  | nil => rw [Lib.Runs.output, List.append_nil, Lib.Runs.final_nil,
      List.foldl_nil]
  | cons m msgs induction =>
      rw [List.foldl_cons, induction, Lib.Runs.final_cons, Lib.Runs.output,
        handle, List.append_assoc]

/-- The reference matcher over its book and its reports. -/
def referenceEngine : Engine (LiveBook × List Report) where
  init _ := (Lib.OrderBook.Book.empty, [])
  onNewOrder state order := handle state (.newOrder order)
  onCancel state request := handle state (.cancel request)
  onModify state request := handle state (.modify request)
  queryBestBid state := bestBid state.1
  queryBestAsk state := bestAsk state.1
  queryDepthAt state price side := depthAt state.1 price side
  prebuild := none
  onBatch := none
  flush := id
  pushed := Prod.snd

/-- The reference conforms on every workload. -/
theorem referenceEngine_conforms (workload : List WorkloadMsg) :
    Conforms referenceEngine workload := by
  have after (initNonce : UInt64) (deliveries : List Delivery) :
      engineAfter referenceEngine.toEngineLib initNonce workload
          deliveries =
        (bookAfter (handed deliveries), reportsOf (handed deliveries)) := by
    have loops : Loops referenceEngine.toEngineLib := by
      intro onBatch exported
      cases exported
    have called : referenceEngine.call = handle := by
      funext state m
      cases m <;> rfl
    rw [engineAfter, foldl_deliver loops, called, foldl_handle]
    rfl
  constructor
  · intro initNonce deliveries _ m _
    rw [after]
    rfl
  · intro initNonce deliveries _
    rw [after]
    exact SameReports.refl _

/-- The messages themselves, matched only when something is asked. -/
def recomputing : Engine (List Msg) where
  init _ := []
  onNewOrder msgs order := msgs ++ [.newOrder order]
  onCancel msgs request := msgs ++ [.cancel request]
  onModify msgs request := msgs ++ [.modify request]
  queryBestBid msgs := bestBid (bookAfter msgs)
  queryBestAsk msgs := bestAsk (bookAfter msgs)
  queryDepthAt msgs price side := depthAt (bookAfter msgs) price side
  prebuild := some fun msgs _ _ => msgs
  onBatch := some fun msgs run => msgs ++ run.map dispatchMsg
  flush := id
  pushed := reportsOf

/-- So does this engine, which takes runs and prebuilds. -/
theorem recomputing_conforms (workload : List WorkloadMsg) :
    Conforms recomputing workload := by
  have called (state : List Msg) (m : Msg) :
      recomputing.call state m = state ++ [m] := by
    cases m <;> rfl
  have folded (msgs state : List Msg) :
      msgs.foldl recomputing.call state = state ++ msgs := by
    induction msgs generalizing state with
    | nil => exact (List.append_nil state).symm
    | cons m msgs induction =>
        rw [List.foldl_cons, induction, called, List.append_assoc]
        rfl
  have loops : Loops recomputing.toEngineLib := by
    intro onBatch exported state run
    cases exported
    rw [← List.foldl_map, folded]
  have started (initNonce : UInt64) :
      engineStart recomputing.toEngineLib initNonce workload = [] :=
    List.foldl_fixed _
  have after (initNonce : UInt64) (deliveries : List Delivery) :
      engineAfter recomputing.toEngineLib initNonce workload deliveries =
        handed deliveries := by
    rw [engineAfter, started, foldl_deliver loops, folded, List.nil_append]
  constructor
  · intro initNonce deliveries _ m _
    rw [after]
    rfl
  · intro initNonce deliveries _
    rw [after]
    exact SameReports.refl _

/-! ## A workload with trades -/

/--
A buy of 5 at 100, a sell that takes 3 of it, a second buy, the first one's
cancel and a modify that raises the second.
-/
def crossing : Workload where
  msgs :=
    [{ type := 0, side := 0, ioc := 0, qty := 5, seq := 0, orderId := 1
       priceTicks := 100 },
     { type := 0, side := 1, ioc := 0, qty := 3, seq := 1, orderId := 2
       priceTicks := 100 },
     { type := 0, side := 0, ioc := 0, qty := 4, seq := 2, orderId := 3
       priceTicks := 101 },
     { type := 1, side := 0, ioc := 0, qty := 0, seq := 3, orderId := 1
       priceTicks := 100 },
     { type := 2, side := 0, ioc := 0, qty := 6, seq := 4, orderId := 3
       priceTicks := 102 }]
  nonempty := by decide
  capped := by decide
  typed := by decide

/-- The words 0, 1, 2 and so on. -/
def counting (_ : UInt64) (k : Nat) : UInt64 :=
  k.toUInt64

theorem picked_crossing :
    Picked counting quietMachine crossing.msgs [0, 1, 2, 3, 4] :=
  ⟨5, by decide⟩

example : (reportsOf (messagesOf crossing.msgs)).map Report.type =
    [meOrderAck, meOrderAck, meTrade, meOrderAck, meCancelAck,
      meModifyAck] := by
  decide

/-! ## The published digest -/

/-- The canonical text is made of ASCII characters. -/
theorem ascii_canonicalText
    (reports : List CollectedReport) {char : Char}
    (member : char ∈ (buildCanonicalText reports).1) : char.toNat < 256 := by
  rw [buildCanonicalText_eq] at member
  rcases mem_joined member with rfl | ⟨part, inParts, inPart⟩
  · decide
  · obtain ⟨line, -, rfl⟩ := List.mem_map.mp inParts
    by_cases digit : char.isDigit = true
    · rw [Char.isDigit, Bool.and_eq_true, decide_eq_true_iff,
        decide_eq_true_iff, UInt32.le_iff_toNat_le] at digit
      exact Nat.lt_of_le_of_lt digit.2 (by decide)
    · by_cases minus : char = '-'
      · rw [minus]
        decide
      · by_cases comma : char = ','
        · rw [comma]
          decide
        · exact absurd inPart
            (not_mem_text line (Bool.eq_false_iff.mpr digit) minus comma)

/-- The bytes of a text of such characters tell the text. -/
theorem map_textBytes
    {text : List Char} (ascii : ∀ char ∈ text, char.toNat < 256) :
    (textBytes text).map (fun byte => Char.ofNat byte.toNat) = text := by
  rw [textBytes, List.map_map]
  refine (List.map_congr_left fun char member => ?_).trans (List.map_id _)
  have small := ascii char member
  rw [Function.comp_apply, UInt8.toNat_ofNat', Nat.mod_eq_of_lt small,
    Char.ofNat_toNat]
  rfl

/-- What is digested for a list of reports. -/
def canonicalBytes (reports : List Report) : List UInt8 :=
  textBytes (buildCanonicalText (reports.map collect)).1

/-- Reports with the same bytes agree canonically. -/
theorem canonicalBytes_eq_iff {left right : List Report} :
    canonicalBytes left = canonicalBytes right ↔
      SameCanonical (left.map collect) (right.map collect) := by
  rw [sameCanonical_iff_text_eq]
  constructor
  · intro equal
    rw [← map_textBytes fun char => ascii_canonicalText (left.map collect),
      ← map_textBytes fun char => ascii_canonicalText (right.map collect)]
    exact congrArg _ equal
  · intro equal
    rw [canonicalBytes, canonicalBytes, equal]

/-- The published hashes agree exactly when the digests do. -/
theorem canonicalDigest_eq_iff {left right : List Report} :
    (canonicalDigest left).hex = (canonicalDigest right).hex ↔
      sha256 (canonicalBytes left) = sha256 (canonicalBytes right) :=
  flatMap_hexByte_injective.eq_iff

/-! ## The verdict of a conforming engine -/

/-- The hash file left behind by a conforming `--write-reference` run. -/
structure Wrote
    (mt19937_64 : UInt64 → Nat → UInt64) (workload : Workload)
    (tag : List Char) (file : Option (List Char)) : Prop where
  wrote : ∃ (υ : Type) (writer : Engine υ) (args : Args) (machine : Machine)
      (preRead reRead : Option (List Char))
      (baselines : String → BaselineFile) (auditIdx : List Nat)
      (drain : DrainState),
    Conforms writer workload.msgs ∧ args.writeReference = true ∧
      args.wantTag = tag ∧ machine.tmp = TmpOutcome.success ∧
      Picked mt19937_64 machine workload.msgs auditIdx ∧
      Drained (writer.pushed (engineEnd writer args.mode
        machine.initNonce workload.msgs auditIdx)) drain ∧
      file = (harnessMain args machine preRead reRead workload.msgs writer
        baselines auditIdx drain).hashFile
  readable : Readable tag

/-- Such a file holds the digest of the reference's reports. -/
theorem Wrote.get
    {mt19937_64 : UInt64 → Nat → UInt64} {workload : Workload}
    {tag : List Char} {file : Option (List Char)}
    (written : Wrote mt19937_64 workload tag file) :
    (readHashFile file).get tag =
      some (canonicalDigest (reportsOf (messagesOf workload.msgs))).hex := by
  obtain ⟨⟨υ, writer, args, machine, preRead, reRead, baselines, auditIdx,
    drain, conforms, writing, rfl, success, picked, drained, rfl⟩,
    readable⟩ := written
  obtain ⟨ascending, below, -, -⟩ := picked.spec
  have pushed := conforms.engineEnd args.mode machine.initNonce ascending
    below
  have same := (canonicalBytes_eq_iff.mpr pushed.1)
  rw [harnessMain, judge_hashFile drained.collected writing, success,
    (readHashFile_writeReference_iff _ _ _).mpr readable,
    Function.update_self]
  exact congrArg some
    (canonicalDigest_eq_iff.mpr (congrArg sha256 same))

/-- Conforming engines can write such a file. -/
theorem exists_wrote
    {mt19937_64 : UInt64 → Nat → UInt64} {workload : Workload}
    {writer : Engine υ} (conforms : Conforms writer workload.msgs)
    {auditIdx : List Nat}
    (picked : Picked mt19937_64 quietMachine workload.msgs auditIdx)
    {args : Args} (readable : Readable args.wantTag) :
    ∃ file, Wrote mt19937_64 workload args.wantTag file := by
  obtain ⟨drain, drained⟩ := exists_drained
    (writer.pushed (engineEnd writer args.mode quietMachine.initNonce
      workload.msgs auditIdx))
  let writing : Args :=
    { args with
      writeReference := true
      canonicalOutput := false
      exclusive := fun both => Bool.false_ne_true both.2 }
  exact ⟨_, ⟨υ, writer, writing, quietMachine, none, none,
    fun _ => .missing, auditIdx, drain, conforms, rfl, rfl, rfl, picked,
    drained, rfl⟩, readable⟩

/-- The reference stands in for either baseline. -/
def onlyReference (_ : String) : BaselineFile :=
  .loads referenceEngine.toEngineLib

theorem tag_readable : Readable auditArgs.wantTag :=
  (readable_wantTag_iff _ _ _).mpr (by decide)

section Verdict

variable {args : Args} {machine : Machine} {file : Option (List Char)}
  {workload : Workload} {engine : Engine σ} {baseline : Engine τ}
  {baselines : String → BaselineFile}
  {mt19937_64 : UInt64 → Nat → UInt64} {auditIdx : List Nat}
  {drain : DrainState}

/-- Conforming engines answer alike wherever they are audited. -/
theorem Conforms.answersAlike
    (conforms : Conforms engine workload.msgs)
    (replayed : Conforms baseline workload.msgs) (initNonce : UInt64)
    (ascending : auditIdx.Pairwise (· < ·)) :
    AnswersAlike engine.toEngineLib baseline.toEngineLib initNonce
      workload.msgs auditIdx := by
  intro i audited m found
  have member := List.mem_of_getElem? found
  rw [conforms.measured initNonce ascending audited member,
    replayed.replayed i member]

/-- The audit report of a run against a conforming baseline. -/
theorem harnessMain_audit
    (mode : args.mode = .audit)
    (built : baselines (baseName args.engineName) =
      .loads baseline.toEngineLib)
    (preRead reRead : Option (List Char)) :
    (harnessMain args machine preRead reRead workload.msgs engine baselines
        auditIdx drain).audit =
      runStateAudit baseline.toEngineLib workload.msgs
        (measuredRun engine.toEngineLib .audit machine.initNonce
          workload.msgs auditIdx).utSnaps := by
  simp only [harnessMain, judge, observe, stateAudit, mode, built]

/-- The gates on the engine itself let a conforming engine pass. -/
theorem conforming_gates
    (conforms : Conforms engine workload.msgs)
    (replayed : Conforms baseline workload.msgs)
    (built : baselines (baseName args.engineName) =
      .loads baseline.toEngineLib)
    (verifying : args.writeReference = false)
    (written : Wrote mt19937_64 workload args.wantTag file)
    (picked : Picked mt19937_64 machine workload.msgs auditIdx)
    (drained : Drained
      (engine.pushed (engineEnd engine args.mode machine.initNonce
        workload.msgs auditIdx)) drain)
    (reRead : Option (List Char)) :
    let outcome := harnessMain args machine file reRead workload.msgs engine
      baselines auditIdx drain
    outcome.correctnessOk = true ∧ outcome.auditOk = true ∧
      outcome.prestartBookEmpty = true ∧ outcome.reportBufferOk = true := by
  intro outcome
  obtain ⟨ascending, below, -, -⟩ := picked.spec
  have pushed := conforms.engineEnd args.mode machine.initNonce ascending
    below
  have collected := drained.collected
  refine ⟨?_, ?_, ?_, ?_⟩
  · refine (judge_correctnessOk collected).mpr ⟨verifying, ?_⟩
    rw [written.get]
    exact congrArg some (canonicalDigest_eq_iff.mpr
      (congrArg sha256 (canonicalBytes_eq_iff.mpr pushed.1)).symm)
  · exact (harnessMain_auditOk picked).mpr fun _ => ⟨τ, _, built,
      conforms.answersAlike replayed machine.initNonce ascending⟩
  · exact judge_prestartBookEmpty.mpr
      (conforms.prestart machine.initNonce)
  · refine (judge_reportBufferOk collected).mpr ?_
    have few := length_reportsOf_le workload.msgs
    rw [pushed.2]
    omega

/-- No run against a conforming hash is gated by what the engine does. -/
def JudgedValid
    (mt19937_64 : UInt64 → Nat → UInt64) (workload : Workload) (args : Args)
    (baselines : String → BaselineFile) (engine : Engine σ) : Prop :=
  ∀ (machine : Machine) (file reRead : Option (List Char))
    (auditIdx : List Nat) (drain : DrainState),
    Wrote mt19937_64 workload args.wantTag file →
      Picked mt19937_64 machine workload.msgs auditIdx →
        Drained (engine.pushed (engineEnd engine args.mode
          machine.initNonce workload.msgs auditIdx)) drain →
          let outcome := harnessMain args machine file reRead workload.msgs
            engine baselines auditIdx drain
          outcome.status = .pass ∧ outcome.auditOk = true ∧
            (outcome.valid = true ↔
              outcome.affinityOk = true ∧ outcome.prebuildTimeOk = true ∧
                outcome.probeTimeOk = true ∧
                outcome.canonicalOutputOk = true)

theorem Conforms.judgedValid
    (conforms : Conforms engine workload.msgs)
    (replayed : Conforms baseline workload.msgs)
    (built : baselines (baseName args.engineName) =
      .loads baseline.toEngineLib)
    (verifying : args.writeReference = false) :
    JudgedValid mt19937_64 workload args baselines engine := by
  intro machine file reRead auditIdx drain written picked drained
  obtain ⟨correct, audited, prestart, roomy⟩ := conforming_gates conforms
    replayed built verifying written picked drained reRead
  refine ⟨beq_iff_eq.mp correct, audited, Outcome.valid_iff.trans ?_⟩
  constructor
  · rintro ⟨-, -, pinned, -, translated, -, probed, exported⟩
    exact ⟨pinned, translated, probed, exported⟩
  · rintro ⟨pinned, translated, probed, exported⟩
    exact ⟨correct, audited, pinned, prestart, translated, roomy, probed,
      exported⟩

/-- On a quiet machine such runs are VALID. -/
theorem JudgedValid.exists_run
    (judged : JudgedValid mt19937_64 workload args baselines engine)
    (exports : args.canonicalOutput = false)
    (readable : Readable args.wantTag)
    {writer : Engine υ} (conforms : Conforms writer workload.msgs)
    (picked : Picked mt19937_64 quietMachine workload.msgs auditIdx) :
    ∃ file drain, (harnessMain args quietMachine file none workload.msgs
      engine baselines auditIdx drain).valid = true := by
  obtain ⟨file, written⟩ := exists_wrote conforms picked readable
  obtain ⟨drain, drained⟩ := exists_drained
    (engine.pushed (engineEnd engine args.mode quietMachine.initNonce
      workload.msgs auditIdx))
  obtain ⟨-, -, gates⟩ :=
    judged quietMachine file none auditIdx drain written picked drained
  exact ⟨file, drain, gates.mpr (judge_quietMachine exports _ _ _ _ _ _)⟩

/--
A conforming engine is judged VALID against a hash that a conforming engine
wrote and a baseline that conforms: its hash passes, its audit passes all of
its checks, the book is empty at the start and the report buffer holds.  Only
the measurement itself can still gate the run.
-/
theorem conforming_valid
    (conforms : Conforms engine workload.msgs)
    (replayed : Conforms baseline workload.msgs)
    (built : baselines (baseName args.engineName) =
      .loads baseline.toEngineLib)
    (verifying : args.writeReference = false)
    (written : Wrote mt19937_64 workload args.wantTag file)
    (picked : Picked mt19937_64 machine workload.msgs auditIdx)
    (drained : Drained
      (engine.pushed (engineEnd engine args.mode machine.initNonce
        workload.msgs auditIdx)) drain)
    (reRead : Option (List Char)) :
    let outcome := harnessMain args machine file reRead workload.msgs engine
      baselines auditIdx drain
    outcome.status = .pass ∧
      (args.mode = .audit →
        outcome.audit.ran = true ∧ outcome.audit.passed = true ∧
          outcome.audit.checks = 3 * min 64 workload.msgs.length) ∧
      outcome.prestartBookEmpty = true ∧ outcome.reportBufferOk = true ∧
      (outcome.valid = true ↔
        outcome.affinityOk = true ∧ outcome.prebuildTimeOk = true ∧
          outcome.probeTimeOk = true ∧ outcome.canonicalOutputOk = true) := by
  intro outcome
  obtain ⟨ascending, below, count, nonempty⟩ := picked.spec
  obtain ⟨-, -, prestart, roomy⟩ := conforming_gates conforms
    replayed built verifying written picked drained reRead
  obtain ⟨pass, -, gated⟩ := conforms.judgedValid replayed built verifying
    machine file reRead auditIdx drain written picked drained
  refine ⟨pass, fun mode => ?_, prestart, roomy, gated⟩
  obtain ⟨ran, checks, passed⟩ := runStateAudit_measuredRun
    engine.toEngineLib baseline.toEngineLib machine.initNonce
    workload.capped nonempty ascending below
  rw [harnessMain_audit mode built]
  exact ⟨ran,
    passed.mpr (conforms.answersAlike replayed machine.initNonce ascending),
    by rw [checks, count]⟩

/--
An engine that takes runs is judged VALID against the hash and the answers of
one that handles the messages one by one.
-/
theorem conforming_valid_crossing :
    ∃ file drain,
      let outcome := harnessMain auditArgs quietMachine file none
        crossing.msgs recomputing onlyReference [0, 1, 2, 3, 4] drain
      outcome.audit.checks = 15 ∧ outcome.valid = true := by
  have conforms := recomputing_conforms crossing.msgs
  have reference := referenceEngine_conforms crossing.msgs
  obtain ⟨file, written⟩ := exists_wrote reference picked_crossing tag_readable
  obtain ⟨drain, drained⟩ := exists_drained
    (recomputing.pushed (engineEnd recomputing .audit 0 crossing.msgs
      [0, 1, 2, 3, 4]))
  obtain ⟨-, audited, -, -, valid⟩ := @conforming_valid _ _ auditArgs
    quietMachine file crossing recomputing referenceEngine onlyReference _ _ _
    conforms reference rfl rfl written picked_crossing drained none
  exact ⟨file, drain, (audited rfl).2.2, valid.mpr ⟨rfl, rfl, rfl, rfl⟩⟩

end Verdict

end MatchingBench.Harness.Contract
