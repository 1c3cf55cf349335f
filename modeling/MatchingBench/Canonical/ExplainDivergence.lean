import MatchingBench.Correctness
import MatchingBench.Lib.Grouping
import MatchingBench.Lib.PythonText
import MatchingBench.Lib.TextScan

/-!
# Locating the first divergence

`scripts/explain_divergence.py` groups two canonical texts by sequence number
and compares the groups in lockstep.  Both streams are lazy: an error of a
later line is raised only when the comparison gets there.
-/

set_option autoImplicit false

namespace MatchingBench.Canonical.ExplainDivergence

open MatchingBench.Correctness
open MatchingBench.Lib
open MatchingBench.Lib.DecimalText
open MatchingBench.Lib.Grouping
open MatchingBench.Lib.KeyedSort
open MatchingBench.Lib.TextScan

/-! ## `canonical_groups` -/

/-- `FIELD_COUNTS`. -/
def fieldCounts (reportType : Int) : Option Nat :=
  [(0, 6), (1, 6), (2, 5), (3, 6), (4, 3), (5, 3)].lookup reportType

/-- What `canonical_groups` yields: a sequence number, the line, the lines. -/
structure SequenceGroup where
  sequence : Int
  line : Option Nat
  reports : List (List Char)
deriving DecidableEq, Repr

/-- A lazy stream of groups, which may end in a `ValueError`. -/
inductive Groups where
  | done
  | raise (message : String)
  | yield (group : SequenceGroup) (later : Groups)

/-- The locals of the loop over the lines. -/
structure LoopState where
  previousSequence : Int
  currentSequence : Option Int
  currentLine : Option Nat
  reports : List (List Char)

/-- The locals when the loop is entered. -/
def loopStart : LoopState where
  previousSequence := -1
  currentSequence := none
  currentLine := none
  reports := []

/-- The checks of one line: its sequence number, or the `ValueError`. -/
def checkLine
    (source : String) (lineNumber : Nat) (line : List Char)
    (previousSequence : Int) : Except String Int :=
  let location := source ++ ":" ++ toString lineNumber
  if line = [] then .error (location ++ ": empty canonical report")
  else
    let fields := line.splitOn ','
    match fields[0]?.bind PythonText.int, fields[1]?.bind PythonText.int with
    | some reportType, some sequence =>
        if fieldCounts reportType ≠ some fields.length then
          .error (location ++ ": invalid field count for report type " ++
            toString reportType)
        else if sequence < previousSequence then
          .error (location ++ ": report sequences are not sorted")
        else .ok sequence
    | _, _ => .error (location ++ ": malformed canonical report")

/-- The loop over the numbered lines, and the last `yield`. -/
def groupLines (source : String) :
    Nat → LoopState → List (List Char) → Groups
  | _, state, [] =>
      match state.currentSequence with
      | some current => .yield ⟨current, state.currentLine, state.reports⟩ .done
      | none => .done
  | lineNumber, state, line :: lines =>
      match checkLine source lineNumber line state.previousSequence with
      | .error message => .raise message
      | .ok sequence =>
          let opened : LoopState :=
            { previousSequence := sequence
              currentSequence := some sequence
              currentLine := some lineNumber
              reports := [line] }
          match state.currentSequence with
          | none => groupLines source (lineNumber + 1) opened lines
          | some current =>
              if sequence ≠ current then
                .yield ⟨current, state.currentLine, state.reports⟩
                  (groupLines source (lineNumber + 1) opened lines)
              else
                groupLines source (lineNumber + 1)
                  { state with
                    previousSequence := sequence
                    reports := state.reports ++ [line] }
                  lines

/-- A path and what opening, decompressing and decoding the file gives. -/
structure Source where
  path : String
  content : Except String (List Char)

/-- `canonical_groups`. -/
def canonicalGroups (source : Source) : Groups :=
  match source.content with
  | .error error =>
      .raise ("could not read " ++ source.path ++ ": " ++ error)
  | .ok text =>
      groupLines source.path 1 loopStart
        (lines (PythonText.universalNewlines text))

/-! ## `compare_canonical` -/

/-- The loop over `zip_longest`: the matching groups and where it stopped. -/
def compareGroups :
    Nat → Groups → Groups →
      Except String (Nat × Option SequenceGroup × Option SequenceGroup)
  | _, .raise message, _ => .error message
  | _, _, .raise message => .error message
  | matching, .done, .done => .ok (matching, none, none)
  | matching, .done, .yield candidate _ => .ok (matching, none, some candidate)
  | matching, .yield reference _, .done => .ok (matching, some reference, none)
  | matching, .yield reference references, .yield candidate candidates =>
      if reference ≠ candidate then
        .ok (matching, some reference, some candidate)
      else compareGroups (matching + 1) references candidates

/-- One side of the artifact. -/
structure Side where
  path : String
  firstDivergentLine : Option Nat
  reports : List (List Char)
deriving DecidableEq, Repr

/-- The first-divergence artifact. -/
structure Divergence where
  schemaVersion : Nat
  artifactType : String
  conformant : Bool
  firstDivergentSequence : Option Int
  matchingSequences : Nat
  reference : Side
  candidate : Side
deriving DecidableEq, Repr

/-- `side`: the group of the first divergent sequence, if this side has one. -/
def side
    (firstSequence : Option Int) (path : String)
    (group : Option SequenceGroup) : Side :=
  match group.filter fun group => some group.sequence = firstSequence with
  | some group => ⟨path, group.line, group.reports⟩
  | none => ⟨path, none, []⟩

/-- The artifact, from the groups where the loop stopped. -/
def artifact
    (referencePath candidatePath : String) (matching : Nat)
    (referenceGroup candidateGroup : Option SequenceGroup) : Divergence :=
  let divergentSequences :=
    (referenceGroup.toList ++ candidateGroup.toList).map
      SequenceGroup.sequence
  let firstSequence := divergentSequences.min?
  { schemaVersion := 1
    artifactType := "matching-engine-benchmark.canonical-divergence"
    conformant := firstSequence.isNone
    firstDivergentSequence := firstSequence
    matchingSequences := matching
    reference := side firstSequence referencePath referenceGroup
    candidate := side firstSequence candidatePath candidateGroup }

/-- `compare_canonical`. -/
def compareCanonical (reference candidate : Source) :
    Except String Divergence := do
  let (matching, referenceGroup, candidateGroup) ←
    compareGroups 0 (canonicalGroups reference) (canonicalGroups candidate)
  return artifact reference.path candidate.path matching referenceGroup
    candidateGroup

/-! ## Lines of an export -/

/-- The sequence number a line shows. -/
def lineSequence : CanonicalLine → Nat
  | .orderAck seq _ _ _ _ => seq.toNat
  | .trade seq _ _ _ _ => seq.toNat
  | .cancelAck seq _ _ _ => seq.toNat
  | .modifyAck seq _ _ _ _ => seq.toNat
  | .cancelReject seq _ => seq.toNat
  | .modifyReject seq _ => seq.toNat

/-- The lines of the canonical text of a report list. -/
def exportedLines (reports : List CollectedReport) : List CanonicalLine :=
  printedLines (stableSort reportBefore reports)

theorem lineSequence_eq_key (line : CanonicalLine) :
    lineSequence line = (ofLex line.key).1 := by
  cases line <;> rfl

theorem exportedLines_sorted (reports : List CollectedReport) :
    (exportedLines reports).Pairwise
      fun a b => lineSequence a ≤ lineSequence b := by
  apply List.Pairwise.filterMap _ _
    (stableSort_sorted reportBefore_compares reports)
  intro a b before line shown line' shown'
  rw [reportKey_of_printed shown, reportKey_of_printed shown'] at before
  rw [lineSequence_eq_key, lineSequence_eq_key]
  rcases Prod.Lex.le_iff.mp before with less | ⟨same, _⟩
  · exact less.le
  · exact same.le

/-- A line of the right number of fields passes every check. -/
theorem checkLine_fields
    (source : String) (lineNumber : Nat) {line : List Char}
    (nonempty : line ≠ []) (kind : Nat) {sequence : Nat}
    {rest : List (List Char)}
    (fields :
      line.splitOn ',' = decimal kind :: decimal sequence :: rest)
    (count : fieldCounts kind = some (rest.length + 1 + 1))
    {previousSequence : Int} (sorted : previousSequence ≤ sequence) :
    checkLine source lineNumber line previousSequence = .ok sequence := by
  have ascending : ¬ (sequence : Int) < previousSequence := not_lt.mpr sorted
  simp only [checkLine, nonempty, if_false, fields, List.getElem?_cons_zero,
    List.getElem?_cons_succ, Option.bind_some, PythonText.int_decimal,
    List.length_cons, count, ne_eq, not_true_eq_false, ascending]

/-- A canonical line is accepted where the sequence does not descend. -/
theorem checkLine_text
    (source : String) (lineNumber : Nat) (line : CanonicalLine)
    {previousSequence : Int} (sorted : previousSequence ≤ lineSequence line) :
    checkLine source lineNumber line.text previousSequence =
      .ok (lineSequence line) := by
  have fields : line.text.splitOn ',' = line.fields :=
    List.splitOn_intercalate ',' (fields_comma_free line) (fields_ne_nil line)
  have nonempty := text_ne_nil line
  cases line with
  | orderAck =>
      exact checkLine_fields source lineNumber nonempty 0 fields rfl sorted
  | trade =>
      exact checkLine_fields source lineNumber nonempty 1 fields rfl sorted
  | cancelAck =>
      exact checkLine_fields source lineNumber nonempty 2 fields rfl sorted
  | modifyAck =>
      exact checkLine_fields source lineNumber nonempty 3 fields rfl sorted
  | cancelReject =>
      exact checkLine_fields source lineNumber nonempty 4 fields rfl sorted
  | modifyReject =>
      exact checkLine_fields source lineNumber nonempty 5 fields rfl sorted

/-! ## The stream of groups -/

/-- The stream that yields the groups of a list and ends. -/
def Groups.ofList : List SequenceGroup → Groups
  | [] => .done
  | group :: groups => .yield group (Groups.ofList groups)

/-- No line of the file is refused. -/
def Groups.accepted : Groups → Bool
  | .done => true
  | .raise _ => false
  | .yield _ later => later.accepted

theorem accepted_ofList (groups : List SequenceGroup) :
    (Groups.ofList groups).accepted = true := by
  induction groups with
  | nil => rfl
  | cons group groups induction => exact induction

/-- The group that is yielded for a block of lines. -/
def yielded (group : Group Nat CanonicalLine) : SequenceGroup where
  sequence := group.key
  line := some group.start
  reports := group.members.map CanonicalLine.text

theorem yielded_injective : Function.Injective yielded := by
  rintro ⟨key, start, members⟩ ⟨key', start', members'⟩ equal
  obtain ⟨keys, starts, reports⟩ := SequenceGroup.mk.inj equal
  obtain rfl : key = key' := Int.ofNat_inj.mp keys
  obtain rfl : start = start' := Option.some.inj starts
  obtain rfl : members = members' :=
    List.map_injective_iff.mpr text_injective reports
  rfl

/-- The locals of the loop with a block open. -/
def openState
    (current start : Nat) (block : List CanonicalLine) : LoopState where
  previousSequence := current
  currentSequence := some current
  currentLine := some start
  reports := block.map CanonicalLine.text

/-- A further line of the open block. -/
theorem groupLines_same
    (source : String) (lineNumber : Nat) {current start : Nat}
    (block : List CanonicalLine) {line : CanonicalLine}
    (same : lineSequence line = current) (lines : List (List Char)) :
    groupLines source lineNumber (openState current start block)
        (line.text :: lines) =
      groupLines source (lineNumber + 1)
        (openState current start (block ++ [line])) lines := by
  have passes :=
    checkLine_text source lineNumber line (Int.ofNat_le.mpr same.ge)
  rw [groupLines, openState, passes, openState, same]
  simp only [ne_eq, not_true_eq_false, if_false, List.map_append,
    List.map_cons, List.map_nil]

/-- A line of a larger sequence number closes the block and opens its own. -/
theorem groupLines_next
    (source : String) (lineNumber : Nat) {current start : Nat}
    (block : List CanonicalLine) {line : CanonicalLine}
    (above : current < lineSequence line) (lines : List (List Char)) :
    groupLines source lineNumber (openState current start block)
        (line.text :: lines) =
      .yield (yielded ⟨current, start, block⟩)
        (groupLines source (lineNumber + 1)
          (openState (lineSequence line) lineNumber [line]) lines) := by
  have passes :=
    checkLine_text source lineNumber line (Int.ofNat_le.mpr above.le)
  have other : (lineSequence line : Int) ≠ current := by
    intro same
    exact above.ne' (Int.ofNat_inj.mp same)
  rw [groupLines, openState, passes]
  simp only [other, ne_eq, not_false_eq_true, if_true]
  rfl

/-- From an open block, the loop finishes it and groups what follows. -/
theorem groupLines_open
    (source : String) {lineNumber start current : Nat}
    {block rest : List CanonicalLine}
    (above : ∀ line ∈ rest, current ≤ lineSequence line)
    (sorted : rest.Pairwise fun a b => lineSequence a ≤ lineSequence b) :
    ∃ more later groups,
      rest = more ++ later ∧
        (∀ line ∈ more, lineSequence line = current) ∧
        (∀ line ∈ later, current < lineSequence line) ∧
        Grouped lineSequence (lineNumber + more.length) groups later ∧
        groupLines source lineNumber (openState current start block)
            (rest.map CanonicalLine.text) =
          Groups.ofList
            ((⟨current, start, block ++ more⟩ :: groups).map yielded) := by
  induction rest generalizing lineNumber start current block with
  | nil =>
      refine ⟨[], [], [], rfl, ?_, ?_, Grouped.nil _, ?_⟩
      · exact fun line member => absurd member List.not_mem_nil
      · exact fun line member => absurd member List.not_mem_nil
      · rw [List.append_nil]
        rfl
  | cons line rest induction =>
      rw [List.pairwise_cons] at sorted
      have here := above line List.mem_cons_self
      rcases here.eq_or_lt with same | below
      · obtain ⟨more, later, groups, split, moreSame, laterAbove, grouped,
          stream⟩ :=
          @induction (lineNumber + 1) start current (block ++ [line])
            (fun other member => above other (List.mem_cons_of_mem _ member))
            sorted.2
        refine ⟨line :: more, later, groups, ?_, ?_, laterAbove, ?_, ?_⟩
        · rw [split, List.cons_append]
        · exact List.forall_mem_cons.mpr ⟨same.symm, moreSame⟩
        · rw [List.length_cons, Nat.add_comm more.length 1, ← Nat.add_assoc]
          exact grouped
        · rw [List.map_cons, groupLines_same source lineNumber block
            same.symm, stream, List.append_assoc, List.singleton_append]
      · obtain ⟨more, later, groups, split, moreSame, laterAbove, grouped,
          stream⟩ :=
          @induction (lineNumber + 1) lineNumber (lineSequence line) [line]
            sorted.1 sorted.2
        refine ⟨[], line :: rest,
          ⟨lineSequence line, lineNumber, line :: more⟩ :: groups,
          rfl, ?_, ?_, ?_, ?_⟩
        · exact fun other member => absurd member List.not_mem_nil
        · intro other member
          rcases List.mem_cons.mp member with rfl | behind
          · exact below
          · exact below.trans_le (sorted.1 other behind)
        · rw [split, List.length_nil, Nat.add_zero, ← List.cons_append]
          apply Grouped.cons (List.cons_ne_nil _ _) _ laterAbove
          · rw [List.length_cons, Nat.add_comm more.length 1,
              ← Nat.add_assoc]
            exact grouped
          · exact List.forall_mem_cons.mpr ⟨rfl, moreSame⟩
        · rw [List.map_cons, groupLines_next source lineNumber block below,
            stream, List.append_nil]
          rfl

/-- The lines of an exported text, as the handle gives them. -/
theorem lines_exported (reports : List CollectedReport) :
    lines (PythonText.universalNewlines (buildCanonicalText reports).1) =
      (exportedLines reports).map CanonicalLine.text := by
  have noReturn :
      '\r' ∉ joined '\n' ((exportedLines reports).map CanonicalLine.text) := by
    intro member
    rcases mem_joined member with newline | ⟨part, inLines, inPart⟩
    · exact absurd newline (by decide)
    · rcases List.mem_map.mp inLines with ⟨line, _, rfl⟩
      exact not_mem_text line rfl (by decide) (by decide) inPart
  rw [buildCanonicalText_eq]
  rw [exportedLines] at noReturn ⊢
  rw [PythonText.universalNewlines_of_not_mem noReturn]
  apply lines_joined
  · simpa using fun line _ => newline_not_mem_text line
  · simpa using fun line _ => text_ne_nil line

/-- The stream of an exported file yields the groups of its lines. -/
theorem canonicalGroups_exported
    (path : String) (reports : List CollectedReport) :
    ∃ groups,
      Grouped lineSequence 1 groups (exportedLines reports) ∧
        canonicalGroups ⟨path, .ok (buildCanonicalText reports).1⟩ =
          Groups.ofList (groups.map yielded) := by
  have sorted := exportedLines_sorted reports
  rw [canonicalGroups]
  simp only [lines_exported]
  cases exported : exportedLines reports with
  | nil => exact ⟨[], Grouped.nil 1, rfl⟩
  | cons line rest =>
      rw [exported, List.pairwise_cons] at sorted
      have opened :
          groupLines path 1 loopStart
              (line.text :: rest.map CanonicalLine.text) =
            groupLines path 2 (openState (lineSequence line) 1 [line])
              (rest.map CanonicalLine.text) := by
        have ascending : (-1 : Int) ≤ lineSequence line := by omega
        rw [groupLines, loopStart, checkLine_text path 1 line ascending]
        rfl
      obtain ⟨more, later, groups, split, moreSame, laterAbove, grouped,
        stream⟩ :=
        @groupLines_open path 2 1 (lineSequence line) [line] rest sorted.1
          sorted.2
      refine ⟨⟨lineSequence line, 1, line :: more⟩ :: groups, ?_, ?_⟩
      · rw [split, ← List.cons_append]
        apply Grouped.cons (List.cons_ne_nil _ _) _ laterAbove
        · rw [List.length_cons, Nat.add_comm more.length 1, ← Nat.add_assoc]
          exact grouped
        · exact List.forall_mem_cons.mpr ⟨rfl, moreSame⟩
      · rw [List.map_cons, opened, stream]
        rfl

/-! ## The comparison -/

/-- On streams without errors the loop reads the groups in lockstep. -/
theorem compareGroups_ofList
    (matching : Nat) (references candidates : List SequenceGroup) :
    compareGroups matching (Groups.ofList references)
        (Groups.ofList candidates) =
      .ok (matching + (firstDifference references candidates).1,
        (firstDifference references candidates).2) := by
  induction references generalizing matching candidates with
  | nil => cases candidates <;> rfl
  | cons reference references induction =>
      cases candidates with
      | nil => rfl
      | cons candidate candidates =>
          rw [Groups.ofList, Groups.ofList, compareGroups, firstDifference]
          by_cases same : reference = candidate
          · simp only [same, ne_eq, not_true_eq_false, if_false, if_true,
              induction]
            rw [Nat.add_assoc, Nat.add_comm 1]
          · simp only [same, ne_eq, not_false_eq_true, if_true, if_false,
              Nat.add_zero]

/-- The lines of a sequence number in the text of a report list. -/
def linesOf (reports : List CollectedReport) (sequence : Nat) :
    List (List Char) :=
  ((exportedLines reports).filter
    fun line => lineSequence line = sequence).map CanonicalLine.text

/-- The number of its first line, counted from one. -/
def firstLineOf
    (reports : List CollectedReport) (sequence : Nat) : Option Nat :=
  ((exportedLines reports).findIdx?
    fun line => lineSequence line = sequence).map (· + 1)

/-- How many distinct sequence numbers lie below one. -/
def sequencesBelow (reports : List CollectedReport) (sequence : Nat) : Nat :=
  (((exportedLines reports).map lineSequence).toFinset.filter
    (· < sequence)).card

theorem linesOf_eq (reports : List CollectedReport) (sequence : Nat) :
    linesOf reports sequence =
      (fiber lineSequence sequence (exportedLines reports)).map
        CanonicalLine.text :=
  rfl

/-- Two exports agree on a sequence number when they show the same lines. -/
theorem linesOf_eq_iff (A B : List CollectedReport) (sequence : Nat) :
    linesOf A sequence = linesOf B sequence ↔
      fiber lineSequence sequence (exportedLines A) =
        fiber lineSequence sequence (exportedLines B) :=
  (List.map_injective_iff.mpr text_injective).eq_iff

/-- The texts are equal when the lists of lines are. -/
theorem text_eq_iff (A B : List CollectedReport) :
    (buildCanonicalText A).1 = (buildCanonicalText B).1 ↔
      exportedLines A = exportedLines B := by
  rw [buildCanonicalText_eq, buildCanonicalText_eq]
  constructor
  · intro equal
    exact joined_text_injective equal
  · intro equal
    rw [exportedLines, exportedLines] at equal
    rw [equal]

/-- The side of the artifact shows the lines of the first divergence. -/
theorem side_yielded
    (path : String) (reports : List CollectedReport) {sequence : Nat}
    {group : Option (Group Nat CanonicalLine)}
    (shown :
      group.filter (fun group => group.key = sequence) =
        groupAt lineSequence 1 (exportedLines reports) sequence) :
    side (some (sequence : Int)) path (group.map yielded) =
      ⟨path, firstLineOf reports sequence, linesOf reports sequence⟩ := by
  have first :=
    findIdx?_key (exportedLines_sorted reports) sequence
  have selected :
      (group.map yielded).filter
          (fun group => some group.sequence = some (sequence : Int)) =
        (groupAt lineSequence 1 (exportedLines reports) sequence).map
          yielded := by
    rw [← shown]
    cases group with
    | none => rfl
    | some group =>
        by_cases same : group.key = sequence
        · simp [Option.filter_some, yielded, same]
        · have other : ¬ (group.key : Int) = sequence :=
            fun equal => same (Int.ofNat_inj.mp equal)
          simp [Option.filter_some, yielded, same, other]
  rw [side, selected, groupAt, firstLineOf, first, linesOf_eq]
  by_cases empty : fiber lineSequence sequence (exportedLines reports) = []
  · simp [empty]
  · simp only [empty, if_false, Option.map_some, yielded]
    rw [Nat.add_comm]

/-- The smaller key of two groups one of which has it. -/
theorem min?_yielded
    {left right : Option (Group Nat CanonicalLine)} {sequence : Nat}
    (leftLeast : ∀ group ∈ left, sequence ≤ group.key)
    (rightLeast : ∀ group ∈ right, sequence ≤ group.key)
    (attained :
      (∃ group ∈ left, group.key = sequence) ∨
        ∃ group ∈ right, group.key = sequence) :
    (((left.map yielded).toList ++ (right.map yielded).toList).map
        SequenceGroup.sequence).min? = some (sequence : Int) := by
  apply List.min?_eq_some_iff.mpr
  constructor
  · rcases attained with ⟨group, found, rfl⟩ | ⟨group, found, rfl⟩
    · rw [Option.mem_def] at found
      simp [found, yielded]
    · rw [Option.mem_def] at found
      simp [found, yielded]
  · intro other member
    rw [List.mem_map] at member
    rcases member with ⟨shown, inGroups, rfl⟩
    rcases List.mem_append.mp inGroups with inLeft | inRight
    · rcases Option.map_eq_some_iff.mp (Option.mem_toList.mp inLeft) with
        ⟨group, found, rfl⟩
      exact Int.ofNat_le.mpr (leftLeast group found)
    · rcases Option.map_eq_some_iff.mp (Option.mem_toList.mp inRight) with
        ⟨group, found, rfl⟩
      exact Int.ofNat_le.mpr (rightLeast group found)

/-- One of the two groups found has the key of the first divergence. -/
theorem attained_of_divergesAt
    {left right : List CanonicalLine}
    {found :
      Nat × Option (Group Nat CanonicalLine) ×
        Option (Group Nat CanonicalLine)}
    {sequence : Nat}
    (diverges : DivergesAt lineSequence 1 left right found sequence) :
    (∃ group ∈ found.2.1, group.key = sequence) ∨
      ∃ group ∈ found.2.2, group.key = sequence := by
  have shown {items : List CanonicalLine}
      {group : Option (Group Nat CanonicalLine)}
      (filtered :
        group.filter (fun group => group.key = sequence) =
          groupAt lineSequence 1 items sequence)
      (nonempty : fiber lineSequence sequence items ≠ []) :
      ∃ member ∈ group, member.key = sequence := by
    rw [groupAt, if_neg nonempty] at filtered
    rcases Option.filter_eq_some_iff.mp filtered with ⟨found, same⟩
    exact ⟨_, found, of_decide_eq_true same⟩
  by_cases empty : fiber lineSequence sequence left = []
  · right
    apply shown diverges.rightGroup
    intro other
    exact diverges.differs (empty.trans other.symm)
  · left
    exact shown diverges.leftGroup empty

/--
What `write_canonical_output` left in a file it reports as written and that
`fclose` flushed.
-/
theorem text_of_written
    {reports : List CollectedReport} {file : FileOutcome} {text : List Char}
    (written : writeCanonicalOutput reports file = (true, some text))
    (closed : file.closed = true) :
    text = (buildCanonicalText reports).1 := by
  obtain ⟨opened, fits⟩ :=
    writeCanonicalOutput_ok_iff.mp (congrArg Prod.fst written)
  rw [writeCanonicalOutput_whole opened fits closed] at written
  exact (Option.some.inj (congrArg Prod.snd written)).symm

/-- The comparison of two exported files, in terms of their groups. -/
theorem compareCanonical_exported
    {referencePath candidatePath : String} {textA textB : List Char}
    {references candidates : List (Group Nat CanonicalLine)}
    (referenceStream :
      canonicalGroups ⟨referencePath, .ok textA⟩ =
        Groups.ofList (references.map yielded))
    (candidateStream :
      canonicalGroups ⟨candidatePath, .ok textB⟩ =
        Groups.ofList (candidates.map yielded)) :
    compareCanonical ⟨referencePath, .ok textA⟩ ⟨candidatePath, .ok textB⟩ =
      .ok (artifact referencePath candidatePath
        (firstDifference references candidates).1
        ((firstDifference references candidates).2.1.map yielded)
        ((firstDifference references candidates).2.2.map yielded)) := by
  have compared :
      compareGroups 0 (canonicalGroups ⟨referencePath, .ok textA⟩)
          (canonicalGroups ⟨candidatePath, .ok textB⟩) =
        .ok ((firstDifference references candidates).1,
          (firstDifference references candidates).2.1.map yielded,
          (firstDifference references candidates).2.2.map yielded) := by
    rw [referenceStream, candidateStream, compareGroups_ofList,
      firstDifference_map yielded_injective, Nat.zero_add]
  rw [compareCanonical, compared]
  rfl

/--
On two exported files `canonical_groups` accepts every line,
`compare_canonical` calls them conformant exactly when the texts are
identical, and otherwise names the least sequence number whose lines differ,
how many sequence numbers lie below it, and on each side its lines and the
number of the first of them.
-/
theorem divergence_exact
    (referencePath candidatePath : String)
    (A B : List CollectedReport)
    (textA textB : List Char) (fileA fileB : FileOutcome)
    (writtenA : writeCanonicalOutput A fileA = (true, some textA))
    (writtenB : writeCanonicalOutput B fileB = (true, some textB))
    (closedA : fileA.closed = true) (closedB : fileB.closed = true) :
    let reference : Source := ⟨referencePath, .ok textA⟩
    let candidate : Source := ⟨candidatePath, .ok textB⟩
    (canonicalGroups reference).accepted = true ∧
      (canonicalGroups candidate).accepted = true ∧
      ∃ result, compareCanonical reference candidate = .ok result ∧
        (result.conformant = true ↔ textA = textB) ∧
        (textA ≠ textB →
          ∃ sequence : Nat,
            result.firstDivergentSequence = some (sequence : Int) ∧
            linesOf A sequence ≠ linesOf B sequence ∧
            (∀ earlier < sequence, linesOf A earlier = linesOf B earlier) ∧
            result.matchingSequences = sequencesBelow A sequence ∧
            result.matchingSequences = sequencesBelow B sequence ∧
            result.reference =
              ⟨referencePath, firstLineOf A sequence, linesOf A sequence⟩ ∧
            result.candidate =
              ⟨candidatePath, firstLineOf B sequence,
                linesOf B sequence⟩) := by
  intro reference candidate
  obtain rfl := text_of_written writtenA closedA
  obtain rfl := text_of_written writtenB closedB
  obtain ⟨references, referenceGrouped, referenceStream⟩ :=
    canonicalGroups_exported referencePath A
  obtain ⟨candidates, candidateGrouped, candidateStream⟩ :=
    canonicalGroups_exported candidatePath B
  refine ⟨?_, ?_, _,
    compareCanonical_exported referenceStream candidateStream, ?_⟩
  · rw [referenceStream]
    exact accepted_ofList _
  · rw [candidateStream]
    exact accepted_ofList _
  rcases firstDifference_grouped referenceGrouped candidateGrouped with
    ⟨none, equal⟩ | ⟨sequence, diverges⟩
  · have texts := (text_eq_iff A B).mpr equal
    simp only [artifact, none]
    constructor
    · exact ⟨fun _ => texts, fun _ => rfl⟩
    · intro different
      exact absurd texts different
  · have least :=
      min?_yielded diverges.leftLeast diverges.rightLeast
        (attained_of_divergesAt diverges)
    have different : (buildCanonicalText A).1 ≠ (buildCanonicalText B).1 := by
      intro texts
      apply diverges.differs
      rw [(text_eq_iff A B).mp texts]
    simp only [artifact, least]
    constructor
    · constructor
      · intro conformant
        exact absurd conformant Bool.false_ne_true
      · intro texts
        exact absurd texts different
    · intro _
      refine ⟨sequence, rfl, ?_, ?_, diverges.leftMatching,
        diverges.rightMatching, ?_, ?_⟩
      · intro same
        exact diverges.differs ((linesOf_eq_iff A B sequence).mp same)
      · intro earlier below
        exact (linesOf_eq_iff A B earlier).mpr
          (diverges.agrees earlier below)
      · exact side_yielded referencePath A diverges.leftGroup
      · exact side_yielded candidatePath B diverges.rightGroup

/-- An order, the trade of a second order and its cancellation. -/
def threeReports : List CollectedReport :=
  [⟨0, 0, 0, 1, 100, 10, 0, 0⟩, ⟨1, 2, 0, 0, 100, 3, 1, 2⟩,
    ⟨2, 2, 0, 2, 100, 0, 0, 0⟩]

/-- The same without the trade. -/
def twoReports : List CollectedReport :=
  [⟨0, 0, 0, 1, 100, 10, 0, 0⟩, ⟨2, 2, 0, 2, 100, 0, 0, 0⟩]

/-- A file with room for the text of these reports and no more. -/
def wholeFile (reports : List CollectedReport) : FileOutcome :=
  ⟨true, (buildCanonicalText reports).1.length, true, 0⟩

theorem wholeFile_holds (reports : List CollectedReport) :
    writeCanonicalOutput reports (wholeFile reports) =
      (true, some (buildCanonicalText reports).1) :=
  writeCanonicalOutput_whole rfl (Nat.le_refl _) rfl

theorem divergence_exact_missingReport :
    let text (reports : List CollectedReport) : List Char :=
      (buildCanonicalText reports).1
    let reference : Source := ⟨"reference.txt", .ok (text threeReports)⟩
    let candidate : Source := ⟨"candidate.txt", .ok (text twoReports)⟩
    (canonicalGroups reference).accepted = true ∧
      (canonicalGroups candidate).accepted = true ∧
      ∃ result, compareCanonical reference candidate = .ok result ∧
        (result.conformant = true ↔ text threeReports = text twoReports) ∧
        (text threeReports ≠ text twoReports →
          ∃ sequence : Nat,
            result.firstDivergentSequence = some (sequence : Int) ∧
            linesOf threeReports sequence ≠ linesOf twoReports sequence ∧
            (∀ earlier < sequence,
              linesOf threeReports earlier = linesOf twoReports earlier) ∧
            result.matchingSequences = sequencesBelow threeReports sequence ∧
            result.matchingSequences = sequencesBelow twoReports sequence ∧
            result.reference =
              ⟨"reference.txt", firstLineOf threeReports sequence,
                linesOf threeReports sequence⟩ ∧
            result.candidate =
              ⟨"candidate.txt", firstLineOf twoReports sequence,
                linesOf twoReports sequence⟩) :=
  divergence_exact "reference.txt" "candidate.txt" threeReports twoReports
    _ _ _ _ (wholeFile_holds threeReports) (wholeFile_holds twoReports)
    rfl rfl

end MatchingBench.Canonical.ExplainDivergence
