import MatchingBench.Lib.TextScan

/-!
# The conformance suite

`scripts/conformance_check.py` runs an engine on every edge case, compares the
hash of its reports with the consensus of the oracle engines, and on the cases
where the oracles agree on the book it audits the book's state as well.  The
outcomes of all the runs are inputs; the verdict is a function of them.
-/

set_option autoImplicit false

namespace MatchingBench.Scripts.ConformanceCheck

open MatchingBench.Lib.TextScan

/-! ## `run_hash` and `run_audit` -/

/--
What one start of the harness gives.  Its output is text: `text=True` raises on
any other, and the suite ends there with a status that is not zero.
-/
inductive Attempt where
  | timeout
  | exited (returncode : Int) (stdout : List Char)

/-- The two attempts that a run may take. -/
structure Attempts where
  first : Attempt
  second : Attempt

/-- A character of `[0-9a-f]`. -/
def hexChar (char : Char) : Bool :=
  "0123456789abcdef".toList.contains char

/-- `Computed hash: ([0-9a-f]+)` at the front of a text. -/
def computedHash (text : List Char) : Option (List Char) :=
  (text.dropPrefix? "Computed hash: ".toList).bind fun rest =>
    let hash := rest.takeWhile hexChar
    if hash = [] then none else some hash

/-- `State audit: (PASS|FAIL|SKIPPED)` at the front of a text. -/
def stateAudit (text : List Char) : Option (Option Bool) :=
  (text.dropPrefix? "State audit: ".toList).bind fun rest =>
    if "PASS".toList.isPrefixOf rest then some (some true)
    else if "FAIL".toList.isPrefixOf rest then some (some false)
    else if "SKIPPED".toList.isPrefixOf rest then some none
    else none

/-- The hash an attempt printed, cut to 16 characters. -/
def Attempt.hash : Attempt → Option (List Char)
  | .timeout => none
  | .exited _ stdout => (search computedHash stdout).map (List.take 16)

/-- The audit line an attempt printed. -/
def Attempt.audit : Attempt → Option (Option Bool)
  | .timeout => none
  | .exited _ stdout => search stateAudit stdout

/-- What `run_hash` returns when the last attempt printed no hash. -/
def Attempt.sentinel : Attempt → List Char
  | .timeout => "<hang>".toList
  | .exited returncode _ =>
      "<nohash rc=".toList ++ (toString returncode).toList ++ ['>']

/-- `run_hash`: one retry after a timeout or a run without a hash. -/
def runHash (attempts : Attempts) : List Char :=
  match attempts.first.hash with
  | some hash => hash
  | none => attempts.second.hash.getD attempts.second.sentinel

/-- `run_audit`: one retry after a timeout or a run without an audit line. -/
def runAudit (attempts : Attempts) : Option Bool :=
  match attempts.first.audit with
  | some audit => audit
  | none => attempts.second.audit.join

/-- `run_audit` has no answer: a skipped audit, or two runs without a line. -/
theorem runAudit_eq_none_iff (attempts : Attempts) :
    runAudit attempts = none ↔
      attempts.first.audit = some none ∨
        attempts.first.audit = none ∧
          (attempts.second.audit = none ∨
            attempts.second.audit = some none) := by
  rw [runAudit]
  cases first : attempts.first.audit with
  | some audit => simp
  | none => simp [Option.join_eq_none_iff]

/-- `run_audit` answers with the first line printed, the retry's at the last. -/
theorem runAudit_eq_some_iff (attempts : Attempts) (passed : Bool) :
    runAudit attempts = some passed ↔
      attempts.first.audit = some (some passed) ∨
        attempts.first.audit = none ∧
          attempts.second.audit = some (some passed) := by
  rw [runAudit]
  cases first : attempts.first.audit with
  | some audit => simp
  | none => simp [Option.join_eq_some_iff]

/-! ## The consensus -/

/-- An engine's runs, by scenario name and message count. -/
structure EngineRuns where
  hash : String → Nat → Attempts
  audit : String → Nat → Attempts

/-- An entry of `EDGE_CASES`: its name and how many messages it has. -/
structure EdgeCase where
  name : String
  count : Nat

/-- `EDGE_CASES`; what the messages are is not looked at by the verdict. -/
def edgeCases : List EdgeCase :=
  [⟨"cancel_middle_then_sweep", 5⟩,
    ⟨"cancel_head_then_sweep", 5⟩,
    ⟨"multi_level_ioc_sweep", 4⟩,
    ⟨"modify_into_cross", 3⟩,
    ⟨"partial_fill_then_cancel", 3⟩,
    ⟨"full_fill_then_stale_cancel", 3⟩,
    ⟨"fifo_priority", 3⟩,
    ⟨"deep_fifo_scattered_cancel", 12⟩,
    ⟨"sweep_residual_becomes_bbo", 5⟩,
    ⟨"modify_partially_filled_residual", 4⟩,
    ⟨"stale_modify_after_full_fill", 3⟩,
    ⟨"reuse_id_after_cancel", 4⟩,
    ⟨"two_level_cancel_sell_priority", 7⟩,
    ⟨"exact_multilevel_boundary", 4⟩,
    ⟨"taker_price_both_directions", 4⟩,
    ⟨"same_level_full_double_consume", 4⟩,
    ⟨"post_sweep_book_health", 8⟩,
    ⟨"price_priority_both_sides_reverse_arrival", 7⟩,
    ⟨"cancel_best_level_minimal_reprobe", 4⟩,
    ⟨"ioc_partial_fill_must_not_rest", 3⟩,
    ⟨"limit_order_stops_at_own_price", 4⟩,
    ⟨"partial_fill_exact_residual_drain", 4⟩,
    ⟨"fifo_same_price_multi_aggressor", 6⟩,
    ⟨"reuse_id_after_full_fill", 4⟩,
    ⟨"cancel_never_issued_id", 2⟩,
    ⟨"stale_ops_after_cancel", 4⟩,
    ⟨"wide_in_domain_price_ceiling", 2⟩,
    ⟨"large_order_id_ceiling", 1⟩,
    ⟨"deep_recursive_sweep_5000", 5001⟩,
    ⟨"phantom_trade_exact_exhaust", 3⟩,
    ⟨"cancel_best_ask_minimal_reprobe", 4⟩,
    ⟨"cancel_empties_entire_side_then_refill", 4⟩,
    ⟨"modify_shared_level_sibling_survives", 4⟩,
    ⟨"modify_into_cross_price_improvement", 6⟩]

/-- `scen_name`. -/
def scenName (case : String) : String :=
  "ec-" ++ case.replace "_" "-"

/-- `AUDIT_POINTS`. -/
def auditPoints : Nat := 64

/-- `re.fullmatch(r"[0-9a-f]{16}", value)`. -/
def isHash16 (value : List Char) : Bool :=
  value.length = 16 && value.all hexChar

/-- What `consensus` returns for a case. -/
structure CaseConsensus where
  case : String
  scen : String
  count : Nat
  oracle : Option (List Char)
  perOracle : List (String × List Char)
  stateGated : Bool

/-- The loop body of `consensus`. -/
def consensusCase
    (oracles : List (String × EngineRuns)) (edge : EdgeCase) :
    CaseConsensus :=
  let scen := scenName edge.name
  let hs := oracles.map fun oracle =>
    (oracle.1, runHash (oracle.2.hash scen edge.count))
  let vals := (hs.map Prod.snd).dedup
  { case := edge.name
    scen := scen
    count := edge.count
    oracle :=
      match vals with
      | [value] => if isHash16 value then some value else none
      | _ => none
    perOracle := hs
    stateGated :=
      decide (edge.count ≤ auditPoints) &&
        oracles.all fun oracle =>
          runAudit (oracle.2.audit scen edge.count) = some true }

/-- What the earlier run that wrote the cache saw. -/
structure EarlierRun where
  sig : String
  cases : List EdgeCase
  oracles : List (String × EngineRuns)

/-- `ORACLE_CACHE`, when `main` looks. -/
inductive Cache where
  | absent
  | unreadable
  | written (run : EarlierRun)

/-- Everything that a run of the suite depends on. -/
structure Session where
  so : String
  fileExists : String → Bool
  sig : String
  cache : Cache
  binExists : String → Nat → Bool
  cases : List EdgeCase
  oracles : List (String × EngineRuns)
  engine : EngineRuns

/-- `sys.exit` with the message of `_require_so`. -/
structure Missing where
  what : String
  paths : List String
  remedy : String

/-- The paths of `BASELINES`. -/
def baselines : List String :=
  ["./cpp_orderbook_adapter.so", "./llc993_adapter.so",
    "./hroptatyr_clob_adapter.so"]

/-- `STATE_AUDIT_BASELINES`. -/
def stateAuditBaselines : List String :=
  ["./liquibook_adapter.so", "./quantcup_adapter.so"]

/-- `_require_so`. -/
def requireSo
    (session : Session) (paths : List String) (what remedy : String) :
    Except Missing Unit :=
  let missing := paths.filter fun path => !session.fileExists path
  if missing = [] then .ok () else .error ⟨what, missing, remedy⟩

/-- `_require_report_oracles`. -/
def requireReportOracles (session : Session) : Except Missing Unit :=
  requireSo session baselines "oracle baseline adapter(s)"
    ("build the three oracle adapters (cpp_orderbook / llc993 / " ++
      "hroptatyr_clob, each via " ++
      "additional_references/<name>_adapter/build.sh)")

/-- `_require_state_audit_baselines`. -/
def requireStateAuditBaselines (session : Session) : Except Missing Unit :=
  requireSo session stateAuditBaselines
    ("state-audit baseline adapter(s) (harness --mode audit needs these to " ++
      "gate the book-state dimension; without them every case silently " ++
      "falls back to report-hash-only checking)")
    ("build them with `make baselines` (scripts/build_baselines.sh " ++
      "liquibook quantcup)")

/-- `consensus`. -/
def consensus (session : Session) : Except Missing (List CaseConsensus) := do
  requireReportOracles session
  requireStateAuditBaselines session
  return session.cases.map (consensusCase session.oracles)

/-- `load_oracle`: the cached cases, unless the cache is stale. -/
def loadOracle (session : Session) : Option (List CaseConsensus) :=
  match session.cache with
  | .absent => none
  | .unreadable => none
  | .written run =>
      let entries := run.cases.map (consensusCase run.oracles)
      if run.sig ≠ session.sig then none
      else if entries.all fun entry =>
          session.binExists entry.scen entry.count then
        some (entries.map fun entry => { entry with perOracle := [] })
      else none

/-- The consensus `main` uses: the cached one when it is there and not empty. -/
def mainConsensus (session : Session) :
    Except Missing (List CaseConsensus) := do
  requireSo session [session.so] "engine .so"
    "pass a path to a built engine adapter .so"
  requireStateAuditBaselines session
  match loadOracle session with
  | some (entry :: entries) => return entry :: entries
  | _ => consensus session

/-! ## `main` -/

/-- One printed line: the case, its report verdict and its state verdict. -/
structure Row where
  case : String
  report : String
  state : String

/-- The locals of the verdict loop. -/
structure LoopState where
  fails : List String
  rows : List Row

/-- The report verdict of a case. -/
def reportVerdict (engine : EngineRuns) (entry : CaseConsensus) : String :=
  match entry.oracle with
  | none => "SKIP"
  | some oracle =>
      if runHash (engine.hash entry.scen entry.count) = oracle then "PASS"
      else "FAIL"

/-- The state verdict of a case. -/
def stateVerdict (engine : EngineRuns) (entry : CaseConsensus) : String :=
  if entry.stateGated then
    match runAudit (engine.audit entry.scen entry.count) with
    | some true => "PASS"
    | some false => "FAIL"
    | none => "SKIP"
  else "-"

/-- What a case appends to `fails`. -/
def caseFails (engine : EngineRuns) (entry : CaseConsensus) : List String :=
  (if reportVerdict engine entry = "FAIL" then [entry.case ++ "[report]"]
    else []) ++
  (if stateVerdict engine entry = "FAIL" then [entry.case ++ "[state]"]
    else [])

/-- The loop body of `main`. -/
def checkCase
    (engine : EngineRuns) (state : LoopState) (entry : CaseConsensus) :
    LoopState where
  fails := state.fails ++ caseFails engine entry
  rows := state.rows ++
    [⟨entry.case, reportVerdict engine entry, stateVerdict engine entry⟩]

/-- What the last line says. -/
inductive Verdict where
  | missing (message : Missing)
  | error
  | conformant (oracled stateGated : Nat)
  | nonConformant (fails : List String)

/-- The exit status that goes with a verdict. -/
def Verdict.exitStatus : Verdict → Nat
  | .missing _ => 1
  | .error => 2
  | .conformant _ _ => 0
  | .nonConformant _ => 1

/-- What a run prints: the lines of the cases and the verdict. -/
structure Printed where
  rows : List Row
  verdict : Verdict

/-- The verdict over a consensus. -/
def verdictOf (engine : EngineRuns) (cons : List CaseConsensus) : Printed :=
  let state := cons.foldl (checkCase engine) ⟨[], []⟩
  let oracled := cons.countP fun entry => entry.oracle.isSome
  let stateGatedCount := cons.countP fun entry => entry.stateGated
  { rows := state.rows
    verdict :=
      if oracled = 0 then .error
      else if state.fails = [] then .conformant oracled stateGatedCount
      else .nonConformant state.fails }

/-- `main`, for an engine. -/
def main (session : Session) : Printed :=
  match mainConsensus session with
  | .error message => { rows := [], verdict := .missing message }
  | .ok cons => verdictOf session.engine cons

/-! ## The verdict loop -/

/-- The hash that a run printed. -/
def Attempts.printedHash (attempts : Attempts) : Option (List Char) :=
  attempts.first.hash.or attempts.second.hash

/-- A run whose result looks like a hash has printed it. -/
theorem printedHash_of_runHash
    {attempts : Attempts} {value : List Char}
    (equal : runHash attempts = value) (valid : isHash16 value = true) :
    attempts.printedHash = some value := by
  have marked (rest : List Char) : isHash16 ('<' :: rest) = false := by
    simp [isHash16, show hexChar '<' = false from rfl]
  have sentinel (attempt : Attempt) : isHash16 attempt.sentinel = false := by
    cases attempt with
    | timeout => exact marked _
    | exited returncode stdout => exact marked _
  subst equal
  rw [runHash] at valid ⊢
  rw [Attempts.printedHash]
  cases first : attempts.first.hash with
  | some hash => rfl
  | none =>
      rw [first] at valid
      dsimp only at valid ⊢
      rw [Option.none_or]
      cases second : attempts.second.hash with
      | some hash => rfl
      | none =>
          rw [second, Option.getD_none, sentinel] at valid
          exact absurd valid Bool.false_ne_true

/-- The failures are those of the cases, in order. -/
theorem foldl_checkCase_fails
    (engine : EngineRuns) (cons : List CaseConsensus) (state : LoopState) :
    (cons.foldl (checkCase engine) state).fails =
      state.fails ++ cons.flatMap (caseFails engine) := by
  induction cons generalizing state with
  | nil => rw [List.flatMap_nil, List.append_nil]; rfl
  | cons entry cons induction =>
      rw [List.foldl_cons, induction, List.flatMap_cons, ← List.append_assoc]
      rfl

theorem reportVerdict_ne_fail_iff
    (engine : EngineRuns) (entry : CaseConsensus) :
    reportVerdict engine entry ≠ "FAIL" ↔
      ∀ oracle ∈ entry.oracle,
        runHash (engine.hash entry.scen entry.count) = oracle := by
  rw [reportVerdict]
  cases entry.oracle with
  | none => simp
  | some oracle =>
      by_cases same : runHash (engine.hash entry.scen entry.count) = oracle
      · simp [same]
      · simp [same]

theorem stateVerdict_ne_fail_iff
    (engine : EngineRuns) (entry : CaseConsensus) :
    stateVerdict engine entry ≠ "FAIL" ↔
      (entry.stateGated = true →
        runAudit (engine.audit entry.scen entry.count) ≠ some false) := by
  rw [stateVerdict]
  cases entry.stateGated with
  | false => simp
  | true =>
      cases runAudit (engine.audit entry.scen entry.count) with
      | none => simp
      | some passed => cases passed <;> simp

/-- A case appends nothing when neither verdict is a failure. -/
theorem caseFails_eq_nil_iff
    (engine : EngineRuns) (entry : CaseConsensus) :
    caseFails engine entry = [] ↔
      (∀ oracle ∈ entry.oracle,
        runHash (engine.hash entry.scen entry.count) = oracle) ∧
      (entry.stateGated = true →
        runAudit (engine.audit entry.scen entry.count) ≠ some false) := by
  rw [← reportVerdict_ne_fail_iff, ← stateVerdict_ne_fail_iff, caseFails,
    List.append_eq_nil_iff]
  apply and_congr
  · by_cases failed : reportVerdict engine entry = "FAIL" <;> simp [failed]
  · by_cases failed : stateVerdict engine entry = "FAIL" <;> simp [failed]

/-- The suite exits with zero when there is an oracle and no failure. -/
theorem exitStatus_eq_zero_iff
    (engine : EngineRuns) (cons : List CaseConsensus) :
    (verdictOf engine cons).verdict.exitStatus = 0 ↔
      (∃ entry ∈ cons, entry.oracle.isSome = true) ∧
        ∀ entry ∈ cons, caseFails engine entry = [] := by
  have fails := foldl_checkCase_fails engine cons ⟨[], []⟩
  rw [List.nil_append] at fails
  simp only [verdictOf, fails, List.countP_eq_zero, List.flatMap_eq_nil_iff]
  split
  · rename_i none
    constructor
    · intro zero
      exact absurd zero (by decide)
    · rintro ⟨⟨entry, member, oracled⟩, _⟩
      exact absurd oracled (none entry member)
  · rename_i some
    push Not at some
    split
    · rename_i clean
      exact ⟨fun _ => ⟨some, clean⟩, fun _ => rfl⟩
    · rename_i failed
      constructor
      · intro zero
        exact absurd zero Nat.one_ne_zero
      · rintro ⟨_, clean⟩
        exact absurd clean failed

/-! ## What the consensus promises -/

/-- An oracle hash is always 16 hexadecimal characters. -/
theorem isHash16_of_oracle
    (oracles : List (String × EngineRuns)) (edge : EdgeCase) :
    ∀ oracle ∈ (consensusCase oracles edge).oracle,
      isHash16 oracle = true := by
  intro oracle found
  simp only [consensusCase, Option.mem_def] at found
  split at found
  · split at found
    · rename_i valid
      rw [← Option.some.inj found]
      exact valid
    · exact absurd found (by simp)
  · exact absurd found (by simp)

theorem bind_eq_ok
    {ε α β : Type} {step : Except ε α} {next : α → Except ε β} {value : β}
    (done : (step >>= next) = .ok value) :
    ∃ result, step = .ok result ∧ next result = .ok value := by
  cases step with
  | error error =>
      have failed : (Except.error error : Except ε β) = .ok value := done
      exact absurd failed (by simp)
  | ok result => exact ⟨result, rfl, done⟩

/-- Fresh or cached, an entry has the oracle of some consensus. -/
theorem oracle_of_mainConsensus
    {session : Session} {cons : List CaseConsensus}
    (used : mainConsensus session = .ok cons) :
    ∀ entry ∈ cons, ∃ oracles edge,
      entry.oracle = (consensusCase oracles edge).oracle := by
  obtain ⟨_, _, used⟩ := bind_eq_ok used
  obtain ⟨_, _, used⟩ := bind_eq_ok used
  have fresh
      (computed : consensus session = .ok cons) :
      ∀ entry ∈ cons, ∃ oracles edge,
        entry.oracle = (consensusCase oracles edge).oracle := by
    obtain ⟨_, _, computed⟩ := bind_eq_ok computed
    obtain ⟨_, _, computed⟩ := bind_eq_ok computed
    obtain rfl := Except.ok.inj computed
    intro entry member
    rcases List.mem_map.mp member with ⟨edge, _, rfl⟩
    exact ⟨session.oracles, edge, rfl⟩
  split at used
  · rename_i first others loaded
    obtain rfl := Except.ok.inj used
    intro entry member
    rw [loadOracle] at loaded
    split at loaded
    · exact absurd loaded (by simp)
    · exact absurd loaded (by simp)
    · rename_i run _
      dsimp only at loaded
      split at loaded
      · exact absurd loaded (by simp)
      · split at loaded
        · rw [← Option.some.inj loaded] at member
          rcases List.mem_map.mp member with ⟨cached, inCache, rfl⟩
          rcases List.mem_map.mp inCache with ⟨edge, _, rfl⟩
          exact ⟨run.oracles, edge, rfl⟩
        · exact absurd loaded (by simp)
  · exact fresh used

/-! ## The verdict and its evidence -/

/--
What a certificate has to rest on: some case has an oracle hash, the engine
printed the oracle hash of every case that has one, and its audit passed on
every case that is gated on state.
-/
structure Evidence
    (engine : EngineRuns) (cons : List CaseConsensus) : Prop where
  oracled : ∃ entry ∈ cons, entry.oracle.isSome = true
  reports :
    ∀ entry ∈ cons, ∀ oracle ∈ entry.oracle,
      (engine.hash entry.scen entry.count).printedHash = some oracle
  audits :
    ∀ entry ∈ cons, entry.stateGated = true →
      runAudit (engine.audit entry.scen entry.count) = some true

/-- With every gated case's audit answered, no failure means evidence. -/
theorem evidence_iff
    {engine : EngineRuns} {cons : List CaseConsensus}
    (hashes :
      ∀ entry ∈ cons, ∀ oracle ∈ entry.oracle, isHash16 oracle = true)
    (zero : (verdictOf engine cons).verdict.exitStatus = 0) :
    Evidence engine cons ↔
      ∀ entry ∈ cons, entry.stateGated = true →
        runAudit (engine.audit entry.scen entry.count) ≠ none := by
  obtain ⟨oracled, clean⟩ := (exitStatus_eq_zero_iff engine cons).mp zero
  constructor
  · intro evidence entry member gated missing
    rw [evidence.audits entry member gated] at missing
    exact absurd missing (by simp)
  · intro answered
    constructor
    · exact oracled
    · intro entry member oracle found
      have ⟨same, _⟩ := (caseFails_eq_nil_iff engine entry).mp
        (clean entry member)
      exact printedHash_of_runHash (same oracle found)
        (hashes entry member oracle found)
    · intro entry member gated
      have ⟨_, notFailed⟩ := (caseFails_eq_nil_iff engine entry).mp
        (clean entry member)
      cases audit : runAudit (engine.audit entry.scen entry.count) with
      | none => exact absurd audit (answered entry member gated)
      | some passed =>
          cases passed with
          | true => rfl
          | false => exact absurd audit (notFailed gated)

/-- The reasons for which the suite does not certify. -/
theorem exitStatus_ne_zero_iff
    (engine : EngineRuns) (cons : List CaseConsensus) :
    (verdictOf engine cons).verdict.exitStatus ≠ 0 ↔
      (∀ entry ∈ cons, entry.oracle = none) ∨
      (∃ entry ∈ cons, ∃ oracle ∈ entry.oracle,
        runHash (engine.hash entry.scen entry.count) ≠ oracle) ∨
      ∃ entry ∈ cons, entry.stateGated = true ∧
        runAudit (engine.audit entry.scen entry.count) = some false := by
  rw [ne_eq, exitStatus_eq_zero_iff, not_and_or]
  constructor
  · rintro (noOracle | unclean)
    · left
      intro entry member
      cases oracle : entry.oracle with
      | none => rfl
      | some value =>
          exact absurd ⟨entry, member, by rw [oracle]; rfl⟩ noOracle
    · right
      push Not at unclean
      obtain ⟨entry, member, failed⟩ := unclean
      rw [ne_eq, caseFails_eq_nil_iff, not_and_or] at failed
      rcases failed with differs | failed
      · left
        push Not at differs
        exact ⟨entry, member, differs⟩
      · right
        push Not at failed
        exact ⟨entry, member, failed⟩
  · rintro (noOracle | ⟨entry, member, oracle, found, differs⟩ |
      ⟨entry, member, gated, failed⟩)
    · left
      rintro ⟨entry, member, oracled⟩
      rw [noOracle entry member] at oracled
      exact absurd oracled (by simp)
    · right
      intro clean
      have ⟨same, _⟩ := (caseFails_eq_nil_iff engine entry).mp
        (clean entry member)
      exact differs (same oracle found)
    · right
      intro clean
      have ⟨_, notFailed⟩ := (caseFails_eq_nil_iff engine entry).mp
        (clean entry member)
      exact notFailed gated failed

/-- On one consensus: the audits were answered, or the suite fails anyway. -/
theorem certified_evidence_iff
    {engine : EngineRuns} {cons : List CaseConsensus}
    (hashes :
      ∀ entry ∈ cons, ∀ oracle ∈ entry.oracle, isHash16 oracle = true) :
    ((verdictOf engine cons).verdict.exitStatus = 0 → Evidence engine cons) ↔
      (∀ entry ∈ cons, entry.stateGated = true →
          runAudit (engine.audit entry.scen entry.count) ≠ none) ∨
        (verdictOf engine cons).verdict.exitStatus ≠ 0 := by
  by_cases zero : (verdictOf engine cons).verdict.exitStatus = 0
  · rw [evidence_iff hashes zero]
    simp only [zero, true_imp_iff, ne_eq, not_true_eq_false, or_false]
  · exact iff_of_true (fun certified => absurd certified zero) (Or.inr zero)

/--
The suite certifies only with evidence exactly when, on the consensus it uses,
the engine's audit answered on every gated case, or the suite fails for
another reason: no case has an oracle hash, a hash differs from the oracle's,
or an audit failed.
-/
theorem certifies_with_evidence_iff (session : Session) :
    ((main session).verdict.exitStatus = 0 →
        ∃ cons, mainConsensus session = .ok cons ∧
          Evidence session.engine cons) ↔
      ∀ cons, mainConsensus session = .ok cons →
        (∀ entry ∈ cons, entry.stateGated = true →
            runAudit (session.engine.audit entry.scen entry.count) ≠ none) ∨
        (∀ entry ∈ cons, entry.oracle = none) ∨
        (∃ entry ∈ cons, ∃ oracle ∈ entry.oracle,
          runHash (session.engine.hash entry.scen entry.count) ≠ oracle) ∨
        ∃ entry ∈ cons, entry.stateGated = true ∧
          runAudit (session.engine.audit entry.scen entry.count) =
            some false := by
  cases used : mainConsensus session with
  | error message =>
      have refused : (main session).verdict.exitStatus = 1 := by
        rw [main, used]
        rfl
      rw [refused]
      constructor
      · intro _ cons other
        exact absurd other (by simp)
      · intro _ zero
        exact absurd zero Nat.one_ne_zero
  | ok cons =>
      have judged :
          (main session).verdict = (verdictOf session.engine cons).verdict := by
        rw [main, used]
      have hashes :
          ∀ entry ∈ cons, ∀ oracle ∈ entry.oracle,
            isHash16 oracle = true := by
        intro entry member oracle found
        obtain ⟨oracles, edge, same⟩ :=
          oracle_of_mainConsensus used entry member
        rw [same] at found
        exact isHash16_of_oracle oracles edge oracle found
      rw [judged]
      constructor
      · intro promise other equal
        obtain rfl := Except.ok.inj equal
        rw [← exitStatus_ne_zero_iff]
        apply (certified_evidence_iff hashes).mp
        intro zero
        obtain ⟨_, equal, evidence⟩ := promise zero
        obtain rfl := Except.ok.inj equal
        exact evidence
      · intro condition zero
        have reasons := condition cons rfl
        rw [← exitStatus_ne_zero_iff] at reasons
        exact ⟨cons, rfl, (certified_evidence_iff hashes).mpr reasons zero⟩

/-! ## A certificate without an audit -/

/-- The oracle hash of the runs below. -/
def sampleHash : List Char :=
  "0123456789abcdef".toList

/-- Runs that print the sample hash, and the given audit attempts. -/
def sampleRuns (audit : Attempt) : EngineRuns where
  hash := fun _ _ =>
    ⟨.exited 0 ("  Computed hash: ".toList ++ sampleHash),
      .exited 0 ("  Computed hash: ".toList ++ sampleHash)⟩
  audit := fun _ _ => ⟨audit, audit⟩

/-- The three oracles agree; the engine's audit runs crash. -/
def crashingAudits : Session where
  so := "./engine_adapter.so"
  fileExists := fun _ => true
  sig := ""
  cache := .absent
  binExists := fun _ _ => true
  cases := edgeCases
  oracles :=
    ["cpp_orderbook", "llc993", "hroptatyr_clob"].map fun name =>
      (name, sampleRuns (.exited 0 "  State audit: PASS".toList))
  engine := sampleRuns (.exited (-11) [])

theorem runHash_sampleRuns (audit : Attempt) (scen : String) (count : Nat) :
    runHash ((sampleRuns audit).hash scen count) = sampleHash := by
  have read :
      runHash
        ⟨.exited 0 ("  Computed hash: ".toList ++ sampleHash),
          .exited 0 ("  Computed hash: ".toList ++ sampleHash)⟩ =
        sampleHash := by
    decide
  exact read

theorem consensusCase_crashingAudits (edge : EdgeCase) :
    (consensusCase crashingAudits.oracles edge).oracle = some sampleHash ∧
      (consensusCase crashingAudits.oracles edge).stateGated =
        decide (edge.count ≤ auditPoints) := by
  have alike : [sampleHash, sampleHash, sampleHash].dedup = [sampleHash] := by
    decide
  have valid : isHash16 sampleHash = true := by decide
  have passed (scen : String) (count : Nat) :
      runAudit
        ((sampleRuns (.exited 0 "  State audit: PASS".toList)).audit
          scen count) = some true := by
    have read :
        runAudit
          ⟨.exited 0 "  State audit: PASS".toList,
            .exited 0 "  State audit: PASS".toList⟩ = some true := by
      decide
    exact read
  constructor
  · simp only [consensusCase, crashingAudits, List.map_cons, List.map_nil,
      runHash_sampleRuns, alike, valid, if_true]
  · simp only [consensusCase, crashingAudits, List.map_cons, List.map_nil,
      List.all_cons, List.all_nil, passed, decide_true, Bool.and_true]

theorem certifies_without_audit_crashingAudits :
    ¬ ((main crashingAudits).verdict.exitStatus = 0 →
        ∃ cons, mainConsensus crashingAudits = .ok cons ∧
          Evidence crashingAudits.engine cons) := by
  have used :
      mainConsensus crashingAudits =
        .ok (edgeCases.map (consensusCase crashingAudits.oracles)) :=
    rfl
  have silent (scen : String) (count : Nat) :
      runAudit (crashingAudits.engine.audit scen count) = none :=
    (runAudit_eq_none_iff _).mpr (Or.inr ⟨rfl, Or.inl rfl⟩)
  have head :
      consensusCase crashingAudits.oracles ⟨"cancel_middle_then_sweep", 5⟩ ∈
        edgeCases.map (consensusCase crashingAudits.oracles) :=
    List.mem_map_of_mem List.mem_cons_self
  have zero : (main crashingAudits).verdict.exitStatus = 0 := by
    rw [main, used]
    apply (exitStatus_eq_zero_iff _ _).mpr
    constructor
    · refine ⟨_, head, ?_⟩
      rw [(consensusCase_crashingAudits _).1]
      rfl
    · intro entry member
      rcases List.mem_map.mp member with ⟨edge, _, rfl⟩
      apply (caseFails_eq_nil_iff _ _).mpr
      constructor
      · intro oracle found
        rw [(consensusCase_crashingAudits edge).1] at found
        rw [← Option.some.inj found]
        exact runHash_sampleRuns _ _ _
      · intro _ failed
        rw [silent] at failed
        exact absurd failed (by simp)
  intro promise
  obtain ⟨cons, equal, evidence⟩ := promise zero
  obtain rfl := Except.ok.inj (used.symm.trans equal)
  have passed := evidence.audits _ head (consensusCase_crashingAudits _).2
  rw [silent] at passed
  exact absurd passed (by simp)

end MatchingBench.Scripts.ConformanceCheck
