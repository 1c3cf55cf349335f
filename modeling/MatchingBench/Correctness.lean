import MatchingBench.Api
import MatchingBench.Lib.KeyedSort
import MatchingBench.Lib.DecimalText
import Mathlib.Data.Prod.Lex

/-!
# Canonical report serialization

`src/correctness.cpp`: reports are stable-sorted by `(sequence_number, type)`,
printed one per line and joined without a trailing newline; the published hash
is the digest of that text.

The text decides exactly the agreement of two report lists on every
`(sequence_number, type)` class, read in emission order and restricted to the
fields the line of that type prints.
-/

set_option autoImplicit false

namespace MatchingBench.Correctness

open MatchingBench.Api
open MatchingBench.Lib.KeyedSort
open MatchingBench.Lib.DecimalText

/-! ## Collected reports -/

/-- `CollectedReport` of `harness.h`: one report collected during a run. -/
structure CollectedReport where
  type : UInt8
  seq : UInt64
  side : UInt8
  orderId : UInt64
  priceTicks : Int64
  quantity : UInt32
  makerOrderId : UInt64
  takerOrderId : UInt64
deriving DecidableEq, Repr, Inhabited

/-- The record the drainer stores for a pushed report. -/
def collect (report : Report) : CollectedReport where
  type := report.type
  seq := report.sequenceNumber
  side := report.side
  orderId := report.orderId
  priceTicks := report.priceTicks
  quantity := report.quantity
  makerOrderId := report.makerOrderId
  takerOrderId := report.takerOrderId

/-! ## The comparator -/

/-- The comparator of the stable sort: by `seq`, then by `type`. -/
def reportBefore (a b : CollectedReport) : Bool :=
  if a.seq ≠ b.seq then a.seq < b.seq else a.type < b.type

/-- The key the comparator compares. -/
def reportKey (report : CollectedReport) : Nat ×ₗ Nat :=
  toLex (report.seq.toNat, report.type.toNat)

theorem reportBefore_compares : Compares reportBefore reportKey := by
  intro a b
  simp only [reportBefore, reportKey, Prod.Lex.toLex_lt_toLex]
  by_cases same : a.seq = b.seq
  · simp [same, UInt8.lt_iff_toNat_lt]
  · have different : a.seq.toNat ≠ b.seq.toNat :=
      fun equal => same (UInt64.toNat_inj.mp equal)
    simp [same, different, UInt64.lt_iff_toNat_lt]

theorem reportKey_eq_iff (a b : CollectedReport) :
    reportKey a = reportKey b ↔ a.seq = b.seq ∧ a.type = b.type := by
  simp [reportKey, UInt64.toNat_inj, UInt8.toNat_inj]

/-! ## Lines -/

/-- The fields one canonical line prints, by report type. -/
inductive CanonicalLine where
  | orderAck (seq : UInt64) (side : UInt8) (orderId : UInt64)
      (priceTicks : Int64) (quantity : UInt32)
  | trade (seq : UInt64) (priceTicks : Int64) (quantity : UInt32)
      (makerOrderId takerOrderId : UInt64)
  | cancelAck (seq : UInt64) (side : UInt8) (orderId : UInt64)
      (priceTicks : Int64)
  | modifyAck (seq : UInt64) (side : UInt8) (orderId : UInt64)
      (priceTicks : Int64) (quantity : UInt32)
  | cancelReject (seq orderId : UInt64)
  | modifyReject (seq orderId : UInt64)
deriving DecidableEq, Repr

/--
The line a report prints, or nothing for a type outside the contract.
-/
def CollectedReport.printed (r : CollectedReport) : Option CanonicalLine :=
  match r.type.toNat with
  | 0 => some (.orderAck r.seq r.side r.orderId r.priceTicks r.quantity)
  | 1 => some (.trade r.seq r.priceTicks r.quantity
      r.makerOrderId r.takerOrderId)
  | 2 => some (.cancelAck r.seq r.side r.orderId r.priceTicks)
  | 3 => some (.modifyAck r.seq r.side r.orderId r.priceTicks r.quantity)
  | 4 => some (.cancelReject r.seq r.orderId)
  | 5 => some (.modifyReject r.seq r.orderId)
  | _ => none

/-- The comma-separated fields of a line. -/
def CanonicalLine.fields : CanonicalLine → List (List Char)
  | .orderAck seq side orderId priceTicks quantity =>
      [['0'], decimal seq.toNat, decimal side.toNat,
        decimal orderId.toNat, signedDecimal priceTicks.toInt,
        decimal quantity.toNat]
  | .trade seq priceTicks quantity makerOrderId takerOrderId =>
      [['1'], decimal seq.toNat, signedDecimal priceTicks.toInt,
        decimal quantity.toNat, decimal makerOrderId.toNat,
        decimal takerOrderId.toNat]
  | .cancelAck seq side orderId priceTicks =>
      [['2'], decimal seq.toNat, decimal side.toNat,
        decimal orderId.toNat, signedDecimal priceTicks.toInt]
  | .modifyAck seq side orderId priceTicks quantity =>
      [['3'], decimal seq.toNat, decimal side.toNat,
        decimal orderId.toNat, signedDecimal priceTicks.toInt,
        decimal quantity.toNat]
  | .cancelReject seq orderId =>
      [['4'], decimal seq.toNat, decimal orderId.toNat]
  | .modifyReject seq orderId =>
      [['5'], decimal seq.toNat, decimal orderId.toNat]

/-- The formatted text of a line. -/
def CanonicalLine.text (line : CanonicalLine) : List Char :=
  joined ',' line.fields

/-! ## The rendering loop -/

/-- `sizeof(line)`. -/
def lineBufferSize : Nat := 160

/--
`snprintf` of a formatted text into a buffer: at most `size - 1` characters
and a terminating zero are stored, the full length is returned.
-/
def snprintf (buffer text : List Char) : List Char × Nat :=
  let stored := text.take (buffer.length - 1)
  (stored ++ Char.ofNat 0 :: buffer.drop (stored.length + 1), text.length)

/-- The locals of the rendering loop. -/
structure RenderState where
  text : List Char
  line : List Char
  first : Bool

/-- One iteration: an unknown type is skipped, a line is appended. -/
def renderStep (state : RenderState) (r : CollectedReport) : RenderState :=
  match r.printed with
  | none => state
  | some out =>
      let (line, n) := snprintf state.line out.text
      let text := if state.first then state.text else state.text ++ ['\n']
      { text := text ++ line.take n, line := line, first := false }

/-- The locals when the loop is entered. -/
def renderStart : RenderState where
  text := []
  line := List.replicate lineBufferSize (Char.ofNat 0)
  first := true

/--
Sort the reports in place and render the canonical text; returns the text and
the vector as it is afterwards.
-/
def buildCanonicalText
    (reports : List CollectedReport) : List Char × List CollectedReport :=
  let reports := stableSort reportBefore reports
  ((reports.foldl renderStep renderStart).text, reports)

/-- `compute_canonical_hash`: the digest and the vector, now sorted. -/
def computeCanonicalHash
    (sha256Hex : List Char → String) (reports : List CollectedReport) :
    String × List CollectedReport :=
  let (text, reports) := buildCanonicalText reports
  (sha256Hex text, reports)

/--
What the C library answers: `fopen`, how many bytes `fwrite` takes, and
`fclose`, whose flush may fail; then only the first `kept` of the bytes taken
reach the file.
-/
structure FileOutcome where
  opened : Bool
  accepted : Nat
  closed : Bool
  kept : Nat

/--
`write_canonical_output`: the returned flag and the bytes in the file, if one
was opened.
-/
def writeCanonicalOutput
    (reports : List CollectedReport) (file : FileOutcome) :
    Bool × Option (List Char) :=
  let text := (buildCanonicalText reports).1
  if file.opened then
    let written := min file.accepted text.length
    -- the flag is what `fwrite` answered: `fclose` is not asked
    (text.isEmpty || written = text.length,
      some ((text.take written).take
        (if file.closed then written else file.kept)))
  else
    (false, none)

/-! ## No line is cut -/

theorem length_text_lt (line : CanonicalLine) :
    line.text.length < lineBufferSize := by
  have unsigned64 (value : UInt64) : (decimal value.toNat).length ≤ 20 :=
    length_decimal_le (by decide)
      (Nat.lt_trans value.toNat_lt (by decide))
  have unsigned32 (value : UInt32) : (decimal value.toNat).length ≤ 10 :=
    length_decimal_le (by decide)
      (Nat.lt_trans value.toNat_lt (by decide))
  have unsigned8 (value : UInt8) : (decimal value.toNat).length ≤ 3 :=
    length_decimal_le (by decide)
      (Nat.lt_trans value.toNat_lt (by decide))
  have signed64 (value : Int64) :
      (signedDecimal value.toInt).length ≤ 20 := by
    refine length_signedDecimal_le (by decide) ?_
    have low := value.le_toInt
    have high := value.toInt_lt
    omega
  simp only [CanonicalLine.text, length_joined, lineBufferSize]
  cases line with
  | orderAck seq side orderId priceTicks quantity =>
      have := unsigned64 seq
      have := unsigned8 side
      have := unsigned64 orderId
      have := signed64 priceTicks
      have := unsigned32 quantity
      simp only [CanonicalLine.fields, List.map_cons, List.map_nil,
        List.sum_cons, List.sum_nil, List.length_cons, List.length_nil]
      omega
  | trade seq priceTicks quantity makerOrderId takerOrderId =>
      have := unsigned64 seq
      have := signed64 priceTicks
      have := unsigned32 quantity
      have := unsigned64 makerOrderId
      have := unsigned64 takerOrderId
      simp only [CanonicalLine.fields, List.map_cons, List.map_nil,
        List.sum_cons, List.sum_nil, List.length_cons, List.length_nil]
      omega
  | cancelAck seq side orderId priceTicks =>
      have := unsigned64 seq
      have := unsigned8 side
      have := unsigned64 orderId
      have := signed64 priceTicks
      simp only [CanonicalLine.fields, List.map_cons, List.map_nil,
        List.sum_cons, List.sum_nil, List.length_cons, List.length_nil]
      omega
  | modifyAck seq side orderId priceTicks quantity =>
      have := unsigned64 seq
      have := unsigned8 side
      have := unsigned64 orderId
      have := signed64 priceTicks
      have := unsigned32 quantity
      simp only [CanonicalLine.fields, List.map_cons, List.map_nil,
        List.sum_cons, List.sum_nil, List.length_cons, List.length_nil]
      omega
  | cancelReject seq orderId =>
      have := unsigned64 seq
      have := unsigned64 orderId
      simp only [CanonicalLine.fields, List.map_cons, List.map_nil,
        List.sum_cons, List.sum_nil, List.length_cons, List.length_nil]
      omega
  | modifyReject seq orderId =>
      have := unsigned64 seq
      have := unsigned64 orderId
      simp only [CanonicalLine.fields, List.map_cons, List.map_nil,
        List.sum_cons, List.sum_nil, List.length_cons, List.length_nil]
      omega

/-- A text shorter than the buffer is read back whole. -/
theorem snprintf_take
    (buffer text : List Char) (fits : text.length < buffer.length) :
    (snprintf buffer text).1.take (snprintf buffer text).2 = text := by
  have whole : text.take (buffer.length - 1) = text :=
    List.take_of_length_le (by omega)
  simp [snprintf, whole]

@[simp]
theorem length_snprintf
    (buffer text : List Char) (nonempty : 0 < buffer.length) :
    (snprintf buffer text).1.length = buffer.length := by
  simp only [snprintf, List.length_append, List.length_take,
    List.length_cons, List.length_drop]
  omega

/-! ## The text is the list of lines -/

/-- The lines a report list prints, in list order. -/
def printedLines (reports : List CollectedReport) : List CanonicalLine :=
  reports.filterMap CollectedReport.printed

theorem printedLines_append (front back : List CollectedReport) :
    printedLines (front ++ back) =
      printedLines front ++ printedLines back :=
  List.filterMap_append

theorem fields_comma_free
    (line : CanonicalLine) : ∀ field ∈ line.fields, ',' ∉ field := by
  cases line <;>
    simp [CanonicalLine.fields, not_mem_decimal, not_mem_signedDecimal]

theorem fields_ne_nil (line : CanonicalLine) : line.fields ≠ [] := by
  cases line <;> simp [CanonicalLine.fields]

theorem text_ne_nil (line : CanonicalLine) : line.text ≠ [] := by
  cases line <;> simp [CanonicalLine.text, CanonicalLine.fields]

/-- A line is made of digits, minus signs and commas. -/
theorem not_mem_text
    (line : CanonicalLine) {char : Char} (notDigit : char.isDigit = false)
    (notMinus : char ≠ '-') (notComma : char ≠ ',') :
    char ∉ line.text := by
  have notKind (kind : Char) (digit : kind.isDigit = true) : char ≠ kind := by
    rintro rfl
    exact Bool.noConfusion (notDigit.symm.trans digit)
  cases line <;>
    simp [CanonicalLine.text, CanonicalLine.fields, not_mem_decimal notDigit,
      not_mem_signedDecimal notDigit notMinus, notComma, notKind]

theorem newline_not_mem_text (line : CanonicalLine) : '\n' ∉ line.text :=
  not_mem_text line rfl (by decide) (by decide)

/-- Different lines print differently. -/
theorem text_injective : Function.Injective CanonicalLine.text := by
  intro left right equal
  have fields : left.fields = right.fields :=
    joined_injective (fields_comma_free left) (fields_comma_free right)
      (fields_ne_nil left) (fields_ne_nil right) equal
  cases left <;> cases right <;>
    simp_all [CanonicalLine.fields, decimal_injective.eq_iff,
      signedDecimal_injective.eq_iff, UInt64.toNat_inj, UInt32.toNat_inj,
      UInt8.toNat_inj, Int64.toInt_inj]

/-- What the loop has rendered after the lines `done`. -/
structure Rendered (done : List CanonicalLine) (state : RenderState) :
    Prop where
  text : state.text = joined '\n' (done.map CanonicalLine.text)
  first : state.first = done.isEmpty
  line : state.line.length = lineBufferSize

theorem rendered_start : Rendered [] renderStart := by
  constructor <;> simp [renderStart]

theorem Rendered.step
    {done : List CanonicalLine} {state : RenderState}
    (rendered : Rendered done state) (r : CollectedReport) :
    Rendered (done ++ printedLines [r]) (renderStep state r) := by
  cases skipped : r.printed with
  | none => simpa [printedLines, renderStep, skipped] using rendered
  | some out =>
      have whole :=
        snprintf_take state.line out.text
          (rendered.line ▸ length_text_lt out)
      constructor
      · cases done with
        | nil =>
            simp [printedLines, renderStep, skipped, rendered.first,
              rendered.text, whole]
        | cons head done =>
            have grown :=
              joined_concat '\n' ((head :: done).map CanonicalLine.text)
                (by simp) out.text
            simp only [printedLines, renderStep, skipped, rendered.first,
              rendered.text, whole, List.filterMap_cons,
              List.filterMap_nil, List.map_append, List.map_cons,
              List.map_nil, List.isEmpty_cons, Bool.false_eq_true,
              if_false, List.append_assoc] at grown ⊢
            exact grown.symm
      · simp [printedLines, renderStep, skipped]
      · have kept :=
          length_snprintf state.line out.text
            (by simp [rendered.line, lineBufferSize])
        simp only [renderStep, skipped, kept, rendered.line]

theorem Rendered.foldl
    {done : List CanonicalLine} {state : RenderState}
    (rendered : Rendered done state) (reports : List CollectedReport) :
    Rendered (done ++ printedLines reports)
      (reports.foldl renderStep state) := by
  induction reports generalizing done state with
  | nil => simpa [printedLines] using rendered
  | cons r reports induction =>
      have next := induction (rendered.step r)
      rwa [List.append_assoc, ← printedLines_append] at next

/-- The canonical text is made of whole lines. -/
theorem buildCanonicalText_eq (reports : List CollectedReport) :
    (buildCanonicalText reports).1 =
      joined '\n'
        ((printedLines (stableSort reportBefore reports)).map
          CanonicalLine.text) := by
  have rendered :=
    rendered_start.foldl (stableSort reportBefore reports)
  simpa [buildCanonicalText] using rendered.text

/-! ## Agreement per class -/

/-- The reports of one sequence number and type, in emission order. -/
def reportClass
    (seq : UInt64) (type : UInt8) (reports : List CollectedReport) :
    List CollectedReport :=
  reports.filter fun r => r.seq = seq ∧ r.type = type

/--
Two report lists agree canonically when every class of a contract type prints
the same lines in the same order.
-/
def SameCanonical (left right : List CollectedReport) : Prop :=
  ∀ seq type, type ≤ 5 →
    (reportClass seq type left).map CollectedReport.printed =
      (reportClass seq type right).map CollectedReport.printed

theorem SameCanonical.refl (reports : List CollectedReport) :
    SameCanonical reports reports :=
  fun _ _ _ => rfl

theorem SameCanonical.symm
    {left right : List CollectedReport} (same : SameCanonical left right) :
    SameCanonical right left :=
  fun seq type known => (same seq type known).symm

theorem SameCanonical.trans
    {left middle right : List CollectedReport}
    (first : SameCanonical left middle)
    (second : SameCanonical middle right) :
    SameCanonical left right :=
  fun seq type known => (first seq type known).trans (second seq type known)

theorem SameCanonical.append
    {left left' right right' : List CollectedReport}
    (front : SameCanonical left right) (back : SameCanonical left' right') :
    SameCanonical (left ++ left') (right ++ right') := by
  intro seq type known
  simp only [reportClass, List.filter_append, List.map_append]
  exact congrArg₂ _ (front seq type known) (back seq type known)

/-- The contract types are those that print a line. -/
theorem printed_isSome_iff (r : CollectedReport) :
    r.printed.isSome = true ↔ r.type ≤ 5 := by
  rw [UInt8.le_iff_toNat_le]
  unfold CollectedReport.printed
  split
  all_goals simp_all
  all_goals omega

theorem printed_ne_none
    {r : CollectedReport} (known : r.type ≤ 5) : r.printed ≠ none := by
  have some := (printed_isSome_iff r).mpr known
  intro none
  simp [none] at some

/-- The sequence number and type a line shows. -/
def CanonicalLine.key : CanonicalLine → Nat ×ₗ Nat
  | .orderAck seq _ _ _ _ => toLex (seq.toNat, 0)
  | .trade seq _ _ _ _ => toLex (seq.toNat, 1)
  | .cancelAck seq _ _ _ => toLex (seq.toNat, 2)
  | .modifyAck seq _ _ _ _ => toLex (seq.toNat, 3)
  | .cancelReject seq _ => toLex (seq.toNat, 4)
  | .modifyReject seq _ => toLex (seq.toNat, 5)

/-- A printed line shows the key of the report it came from. -/
theorem reportKey_of_printed
    {r : CollectedReport} {line : CanonicalLine}
    (printed : r.printed = some line) :
    reportKey r = line.key := by
  unfold CollectedReport.printed at printed
  split at printed <;>
    simp only [Option.some.injEq, reduceCtorEq] at printed <;>
    subst printed <;> simp_all [reportKey, CanonicalLine.key]

/-- The reports that print a line. -/
def knownReports (reports : List CollectedReport) : List CollectedReport :=
  reports.filter fun r => r.printed.isSome

theorem mem_knownReports
    {reports : List CollectedReport} {r : CollectedReport} :
    r ∈ knownReports reports ↔ r ∈ reports ∧ r.type ≤ 5 := by
  simp only [knownReports, List.mem_filter, printed_isSome_iff]

theorem printedLines_eq_iff (left right : List CollectedReport) :
    printedLines left = printedLines right ↔
      (knownReports left).map CollectedReport.printed =
        (knownReports right).map CollectedReport.printed := by
  have lines (reports : List CollectedReport) :
      (knownReports reports).map CollectedReport.printed =
        (printedLines reports).map some := by
    induction reports with
    | nil => rfl
    | cons r reports induction =>
        simp only [knownReports, printedLines] at induction
        cases out : r.printed <;>
          simp [knownReports, printedLines, out, induction]
  rw [lines, lines]
  exact (List.map_injective_iff.mpr (Option.some_injective _)).eq_iff.symm

/-- Per class agreement is agreement of the fibers of the known reports. -/
theorem sameCanonical_iff_sameFibers (left right : List CollectedReport) :
    SameCanonical left right ↔
      SameFibers reportKey CollectedReport.printed
        (knownReports left) (knownReports right) := by
  have classFiber (r : CollectedReport) (known : r.type ≤ 5)
      (reports : List CollectedReport) :
      fiber reportKey (reportKey r) (knownReports reports) =
        reportClass r.seq r.type reports := by
    simp only [fiber, knownReports, reportClass, List.filter_filter]
    refine List.filter_congr fun other _ => ?_
    simp only [reportKey_eq_iff]
    by_cases same : other.type = r.type
    · have some := (printed_isSome_iff other).mpr (same ▸ known)
      simp [some]
    · simp [same]
  constructor
  · intro same wanted
    by_cases present :
        ∃ r, reportKey r = wanted ∧ r.type ≤ 5
    · obtain ⟨r, rfl, known⟩ := present
      rw [classFiber r known, classFiber r known]
      exact same r.seq r.type known
    · have empty (reports : List CollectedReport) :
          fiber reportKey wanted (knownReports reports) = [] := by
        rw [fiber_eq_nil_iff]
        intro r member key
        exact present ⟨r, key, (mem_knownReports.mp member).2⟩
      rw [empty, empty]
  · intro same seq type known
    let r : CollectedReport := { (default : CollectedReport) with
      seq := seq, type := type }
    rw [← classFiber r known left, ← classFiber r known right]
    exact same (reportKey r)

theorem knownReports_stableSort_sorted (reports : List CollectedReport) :
    (knownReports (stableSort reportBefore reports)).Pairwise
      fun a b => reportKey a ≤ reportKey b :=
  (stableSort_sorted reportBefore_compares reports).sublist
    List.filter_sublist

theorem sameFibers_knownReports_stableSort
    (reports : List CollectedReport) :
    SameFibers reportKey CollectedReport.printed
      (knownReports (stableSort reportBefore reports))
      (knownReports reports) := by
  intro wanted
  have stable := fiber_stableSort reportBefore_compares wanted reports
  have filtered (items : List CollectedReport) :
      fiber reportKey wanted (knownReports items) =
        knownReports (fiber reportKey wanted items) := by
    simp only [fiber, knownReports, List.filter_filter, Bool.and_comm]
  rw [filtered, filtered, stable]

/-- The sorted lists of lines agree exactly when the classes agree. -/
theorem printedLines_stableSort_eq_iff (left right : List CollectedReport) :
    printedLines (stableSort reportBefore left) =
        printedLines (stableSort reportBefore right) ↔
      SameCanonical left right := by
  rw [printedLines_eq_iff, sameCanonical_iff_sameFibers]
  constructor
  · intro equal
    refine ((sameFibers_knownReports_stableSort left).symm.trans ?_).trans
      (sameFibers_knownReports_stableSort right)
    refine sameFibers_of_map_eq (fun a inLeft b inRight printed => ?_) equal
    obtain ⟨line, out⟩ := Option.ne_none_iff_exists'.mp
      (printed_ne_none (mem_knownReports.mp inLeft).2)
    rw [reportKey_of_printed out, reportKey_of_printed (printed ▸ out)]
  · intro same
    exact map_eq_of_sameFibers (fun a b => a ≤ b)
      (knownReports_stableSort_sorted left)
      (knownReports_stableSort_sorted right)
      (((sameFibers_knownReports_stableSort left).trans same).trans
        (sameFibers_knownReports_stableSort right).symm)

/-- The canonical text can be read back into its lines. -/
theorem joined_text_injective
    {left right : List CanonicalLine}
    (equal :
      joined '\n' (left.map CanonicalLine.text) =
        joined '\n' (right.map CanonicalLine.text)) :
    left = right := by
  have nonempty (lines : List CanonicalLine) :
      ∀ part ∈ lines.map CanonicalLine.text, part ≠ [] := by
    simpa using fun line _ => text_ne_nil line
  have free (lines : List CanonicalLine) :
      ∀ part ∈ lines.map CanonicalLine.text, '\n' ∉ part := by
    simpa using fun line _ => newline_not_mem_text line
  have texts :
      left.map CanonicalLine.text = right.map CanonicalLine.text := by
    by_cases empty : left.map CanonicalLine.text = []
    · rw [empty, joined_nil, eq_comm,
        joined_eq_nil_iff (nonempty right)] at equal
      rw [empty, equal]
    · have other : right.map CanonicalLine.text ≠ [] := by
        intro none
        rw [none, joined_nil, joined_eq_nil_iff (nonempty left)] at equal
        exact empty equal
      exact joined_injective (free left) (free right) empty other equal
  exact List.map_injective_iff.mpr text_injective texts

/-- Canonical agreement is equality of the canonical texts. -/
theorem sameCanonical_iff_text_eq (left right : List CollectedReport) :
    SameCanonical left right ↔
      (buildCanonicalText left).1 = (buildCanonicalText right).1 := by
  rw [← printedLines_stableSort_eq_iff, buildCanonicalText_eq,
    buildCanonicalText_eq]
  exact
    ⟨fun equal => by rw [equal], fun equal => joined_text_injective equal⟩

/-- Sorting the vector a second time changes neither it nor the text. -/
theorem buildCanonicalText_sorted (reports : List CollectedReport) :
    buildCanonicalText (buildCanonicalText reports).2 =
      buildCanonicalText reports := by
  simp only [buildCanonicalText,
    stableSort_idempotent reportBefore_compares]

/-- The flag says that the file opened and `fwrite` took the whole text. -/
theorem writeCanonicalOutput_ok_iff
    {reports : List CollectedReport} {file : FileOutcome} :
    (writeCanonicalOutput reports file).1 = true ↔
      file.opened = true ∧
        (buildCanonicalText reports).1.length ≤ file.accepted := by
  unfold writeCanonicalOutput
  by_cases opened : file.opened = true
  · simp only [opened, if_true, Bool.or_eq_true, List.isEmpty_iff,
      decide_eq_true_eq, true_and]
    constructor
    · rintro (empty | whole)
      · rw [empty]
        exact Nat.zero_le _
      · omega
    · intro fits
      exact Or.inr (Nat.min_eq_right fits)
  · simp [opened]

/--
A file that opens, takes every byte and closes holds exactly the canonical
text, and the write is reported as done.
-/
theorem writeCanonicalOutput_whole
    {reports : List CollectedReport} {file : FileOutcome}
    (opened : file.opened = true)
    (fits : (buildCanonicalText reports).1.length ≤ file.accepted)
    (closed : file.closed = true) :
    writeCanonicalOutput reports file =
      (true, some (buildCanonicalText reports).1) := by
  simp [writeCanonicalOutput, opened, closed, Nat.min_eq_right fits]

/-- Whatever the library answers, no other byte reaches the file. -/
theorem writeCanonicalOutput_prefix
    {reports : List CollectedReport} {file : FileOutcome}
    {bytes : List Char}
    (held : (writeCanonicalOutput reports file).2 = some bytes) :
    bytes <+: (buildCanonicalText reports).1 := by
  unfold writeCanonicalOutput at held
  by_cases opened : file.opened = true
  · simp only [opened, if_true, Option.some.injEq] at held
    rw [← held]
    exact (List.take_prefix _ _).trans (List.take_prefix _ _)
  · simp [opened] at held

/--
The canonical text decides exactly the agreement per sequence number and
type; hence it does not depend on how the classes interleave.  No line is cut
by the line buffer.  Rendering the vector again after the hash was taken
writes the bytes that were hashed: all of them where the file opens, takes
them and closes, and never another byte.  `fclose` may still fail behind a
returned `true`.
-/
theorem canonicalText_decides_classes :
    (∀ left right : List CollectedReport,
      (buildCanonicalText left).1 = (buildCanonicalText right).1 ↔
        ∀ seq type, type ≤ 5 →
          (reportClass seq type left).map CollectedReport.printed =
            (reportClass seq type right).map CollectedReport.printed) ∧
    (∀ left right : List CollectedReport,
      (∀ seq type,
        reportClass seq type left = reportClass seq type right) →
      (buildCanonicalText left).1 = (buildCanonicalText right).1) ∧
    (∀ line : CanonicalLine, line.text.length < lineBufferSize) ∧
    (∀ reports : List CollectedReport,
      (buildCanonicalText reports).1 =
        joined '\n'
          ((printedLines (stableSort reportBefore reports)).map
            CanonicalLine.text)) ∧
    (∀ (sha256Hex : List Char → String) (reports : List CollectedReport),
      let text := (buildCanonicalText reports).1
      let (hash, sorted) := computeCanonicalHash sha256Hex reports
      hash = sha256Hex text ∧
        ∀ file : FileOutcome,
          let (ok, written) := writeCanonicalOutput sorted file
          (ok = true ↔ file.opened = true ∧ text.length ≤ file.accepted) ∧
            (ok = true → file.closed = true → written = some text) ∧
            (∀ bytes, written = some bytes → bytes <+: text) ∧
            (file.opened = true → text.length ≤ file.accepted →
              file.closed = true → (ok, written) = (true, some text))) := by
  refine ⟨fun left right => ?_, fun left right classes => ?_,
    length_text_lt, buildCanonicalText_eq,
    fun sha256Hex reports => ⟨rfl, fun file => ?_⟩⟩
  · exact (sameCanonical_iff_text_eq left right).symm
  · refine (sameCanonical_iff_text_eq left right).mp fun seq type _ => ?_
    rw [classes seq type]
  · have again :
        (buildCanonicalText (computeCanonicalHash sha256Hex reports).2).1 =
          (buildCanonicalText reports).1 :=
      congrArg Prod.fst (buildCanonicalText_sorted reports)
    rw [← again]
    refine ⟨writeCanonicalOutput_ok_iff, fun ok closed => ?_,
      fun _ => writeCanonicalOutput_prefix, writeCanonicalOutput_whole⟩
    obtain ⟨opened, fits⟩ := writeCanonicalOutput_ok_iff.mp ok
    exact congrArg Prod.snd (writeCanonicalOutput_whole opened fits closed)

end MatchingBench.Correctness
