import MatchingBench.Harness.Verdict
import MatchingBench.Lib.TextScan

/-!
# What the harness prints

The report of `main` on the standard output from the correctness check on, line
by line.  The lines before it show clock readings and counters, those behind it
name the result file.
-/

set_option autoImplicit false

namespace MatchingBench.Harness.Printed

open MatchingBench.Lib.DecimalText
open MatchingBench.Harness.Audit
open MatchingBench.Harness.Drainer
open MatchingBench.Harness.Marshalling
open MatchingBench.Harness.ReferenceHash
open MatchingBench.Harness.Verdict

/-- What is printed around the verdict, and the path of the forensic export. -/
structure Surroundings where
  before : List (List Char)
  canonicalOutputPath : List Char
  after : List (List Char)

/-- `status`, as it is printed. -/
def statusText : Status → List Char
  | .pass => "PASS".toList
  | .fail => "FAIL".toList
  | .noReference => "NO REFERENCE".toList
  | .referenceWritten => "REFERENCE WRITTEN".toList

/-- `expected`: the published hash that a run is compared with. -/
def expected (args : Args) (preRead : Option (List Char)) :
    Option (List Char) :=
  if args.writeReference then none
  else (readHashFile preRead).get args.wantTag

/-- The published hash is one. -/
theorem isHash_expected
    {args : Args} {preRead : Option (List Char)} {hash : List Char}
    (published : expected args preRead = some hash) : isHash hash = true := by
  rw [expected] at published
  split at published
  · cases published
  · exact (readHashFile_readable preRead _ _ published).2

theorem not_mem_of_isHash
    {hash : List Char} (valid : isHash hash = true) {char : Char}
    (outside : hexChar char = false) : char ∉ hash := by
  rw [isHash, Bool.and_eq_true, List.all_eq_true] at valid
  intro member
  rw [valid.2 char member] at outside
  cases outside

/-- The lines of the correctness check. -/
def correctnessLines
    (args : Args) (preRead : Option (List Char)) (computed : List Char)
    (outcome : Outcome) (canonicalOutputPath : List Char) :
    List (List Char) :=
  [[], "Correctness check:".toList] ++
    ((expected args preRead).map fun hash =>
      "  Expected hash: ".toList ++ hash).toList ++
    ["  Computed hash: ".toList ++ computed,
      "  Status: ".toList ++ statusText outcome.status] ++
    if args.canonicalOutput && outcome.canonicalOutputOk then
      ["  Canonical output: ".toList ++ canonicalOutputPath]
    else []

/-- The line of the state audit. -/
def auditLine (args : Args) (audit : AuditReport) : List Char :=
  let baseline := (baseName args.engineName).toList
  if audit.ran = false then
    "  State audit: SKIPPED — ".toList ++ audit.note.toList
  else if audit.passed then
    "  State audit: PASS — ".toList ++ decimal audit.checks ++
      " state checks matched baseline '".toList ++ baseline ++ ['\'']
  else
    "  State audit: FAIL — ".toList ++ decimal audit.mismatches ++
      " of ".toList ++ decimal audit.checks ++
      " state checks mismatched baseline '".toList ++ baseline ++ ['\'']

/-- The lines of the state audit. -/
def auditLines (args : Args) (audit : AuditReport) : List (List Char) :=
  match args.mode with
  | .perf => []
  | .audit =>
      [[], "Anti-cheat state audit:".toList, auditLine args audit]

/-- The line of the verdict. -/
def verdictLine (outcome : Outcome) : List Char :=
  "Verdict: ".toList ++
    if outcome.valid then "VALID".toList else "INVALID".toList

/-- Everything that a run prints. -/
def stdout
    (args : Args) (preRead : Option (List Char)) (computed : List Char)
    (outcome : Outcome) (around : Surroundings) : List Char :=
  (around.before ++
    correctnessLines args preRead computed outcome
      around.canonicalOutputPath ++
    auditLines args outcome.audit ++ [[], verdictLine outcome] ++
    around.after).flatMap (· ++ ['\n'])

end MatchingBench.Harness.Printed
