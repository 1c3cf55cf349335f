import MatchingBench.Correctness
import MatchingBench.Lib.Maps
import MatchingBench.Lib.Stdio
import Mathlib.Data.List.DropRight

/-!
# Replaying the canonical text

`tests/cheat_adapter.cpp` reads a canonical text into a table of reports by
sequence number and answers every message with the reports of its number.  It
matches nothing; it reproduces the text because the lines decode to all that
the text shows and the order within a sequence number survives the table.
-/

set_option autoImplicit false

namespace MatchingBench.Canonical.CheatAdapter

open MatchingBench.Api
open MatchingBench.Correctness
open MatchingBench.Lib.DecimalText
open MatchingBench.Lib.KeyedSort
open MatchingBench.Lib.Maps
open MatchingBench.Lib.Stdio
open MatchingBench.Lib.TextScan

/-! ## `parse_line` -/

/-- `me_report_t{}`. -/
def emptyReport : Report where
  type := 0
  side := 0
  sequenceNumber := 0
  orderId := 0
  priceTicks := 0
  quantity := 0
  makerOrderId := 0
  takerOrderId := 0

/-- The conversions of `"%llu,%u,%llu,%lld,%u"`, for types 0 and 3. -/
def scanOrder (fields : List Char) :
    Option (UInt64 × UInt32 × UInt64 × Int64 × UInt32) := do
  let (seq, fields) ← scanUInt64 fields
  let (side, fields) ← scanUInt32 (← scanChar ',' fields)
  let (orderId, fields) ← scanUInt64 (← scanChar ',' fields)
  let (price, fields) ← scanInt64 (← scanChar ',' fields)
  let (qty, _) ← scanUInt32 (← scanChar ',' fields)
  return (seq, side, orderId, price, qty)

/-- The conversions of `"%llu,%lld,%u,%llu,%llu"`, for type 1. -/
def scanTrade (fields : List Char) :
    Option (UInt64 × Int64 × UInt32 × UInt64 × UInt64) := do
  let (seq, fields) ← scanUInt64 fields
  let (price, fields) ← scanInt64 (← scanChar ',' fields)
  let (qty, fields) ← scanUInt32 (← scanChar ',' fields)
  let (maker, fields) ← scanUInt64 (← scanChar ',' fields)
  let (taker, _) ← scanUInt64 (← scanChar ',' fields)
  return (seq, price, qty, maker, taker)

/-- The conversions of `"%llu,%u,%llu,%lld"`, for type 2. -/
def scanCancel (fields : List Char) :
    Option (UInt64 × UInt32 × UInt64 × Int64) := do
  let (seq, fields) ← scanUInt64 fields
  let (side, fields) ← scanUInt32 (← scanChar ',' fields)
  let (orderId, fields) ← scanUInt64 (← scanChar ',' fields)
  let (price, _) ← scanInt64 (← scanChar ',' fields)
  return (seq, side, orderId, price)

/-- The conversions of `"%llu,%llu"`, for types 4 and 5. -/
def scanReject (fields : List Char) : Option (UInt64 × UInt64) := do
  let (seq, fields) ← scanUInt64 fields
  let (orderId, _) ← scanUInt64 (← scanChar ',' fields)
  return (seq, orderId)

/-- `parse_line` behind the type prefix. -/
def parseFields (type : UInt8) (fields : List Char) : Option Report :=
  let r := { emptyReport with type := type }
  if type = meOrderAck ∨ type = meModifyAck then do
    let (seq, side, orderId, price, qty) ← scanOrder fields
    return { r with
      sequenceNumber := seq, side := side.toUInt8, orderId := orderId,
      priceTicks := price, quantity := qty }
  else if type = meTrade then do
    let (seq, price, qty, maker, taker) ← scanTrade fields
    return { r with
      sequenceNumber := seq, priceTicks := price, quantity := qty,
      makerOrderId := maker, takerOrderId := taker }
  else if type = meCancelAck then do
    let (seq, side, orderId, price) ← scanCancel fields
    return { r with
      sequenceNumber := seq, side := side.toUInt8, orderId := orderId,
      priceTicks := price }
  else if type = meCancelReject ∨ type = meModifyReject then do
    let (seq, orderId) ← scanReject fields
    return { r with sequenceNumber := seq, orderId := orderId }
  else none

/-- `parse_line`. -/
def parseLine : List Char → Option Report
  | kind :: ',' :: fields =>
      if kind < '0' ∨ '5' < kind then none
      else parseFields (UInt8.ofNat (kind.toNat - '0'.toNat)) fields
  | _ => none

/-! ## The table -/

/-- `g_by_seq`. -/
abbrev Table : Type :=
  HashMap UInt64 (List Report)

/-- `g_by_seq[r.sequence_number].push_back(r)`. -/
def Table.push (table : Table) (r : Report) : Table :=
  table.set r.sequenceNumber
    ((table.get r.sequenceNumber).getD [] ++ [r])

/-- Carriage returns and newlines at the end are dropped. -/
def stripNewlines (line : List Char) : List Char :=
  line.rdropWhile fun char => char = '\n' || char = '\r'

/-- One iteration of the load loop. -/
def loadLine (table : Table) (buffer : List Char) : Table :=
  let line := stripNewlines (cString buffer)
  if line = [] then table
  else
    match parseLine line with
    | some r => table.push r
    | none => table

/-- `engine_init`, from the file's content when it can be opened. -/
def engineInit : Option (List Char) → Table
  | none => ∅
  | some text => (fgetsLines 256 text).foldl loadLine ∅

/-- `replay`. -/
def replay (table : Table) (seq : UInt64) : List Report :=
  match table.get seq with
  | none => []
  | some reports => reports

/-- `engine_on_new_order`, `engine_on_cancel` and `engine_on_modify`. -/
def engineOn (table : Table) : Msg → List Report
  | .newOrder order => replay table order.sequenceNumber
  | .cancel request => replay table request.sequenceNumber
  | .modify request => replay table request.sequenceNumber

/-! ## Decoding -/

/-- The report reduced to the fields that the line of its type prints. -/
def projected (r : CollectedReport) : Report where
  type := r.type
  side := if r.type ∈ [meOrderAck, meCancelAck, meModifyAck] then r.side else 0
  sequenceNumber := r.seq
  orderId := if r.type = meTrade then 0 else r.orderId
  priceTicks :=
    if r.type ∈ [meOrderAck, meTrade, meCancelAck, meModifyAck] then
      r.priceTicks
    else 0
  quantity :=
    if r.type ∈ [meOrderAck, meTrade, meModifyAck] then r.quantity else 0
  makerOrderId := if r.type = meTrade then r.makerOrderId else 0
  takerOrderId := if r.type = meTrade then r.takerOrderId else 0

theorem scanOrder_text
    (seq orderId : UInt64) (side : UInt8) (price : Int64) (qty : UInt32) :
    scanOrder (joined ','
        [decimal seq.toNat, decimal side.toNat, decimal orderId.toNat,
          signedDecimal price.toInt, decimal qty.toNat]) =
      some (seq, side.toUInt32, orderId, price, qty) := by
  have last := scanUInt32_decimal qty endsNumber_nil
  have wide : side.toNat = side.toUInt32.toNat :=
    (UInt8.toNat_toUInt32 side).symm
  rw [List.append_nil] at last
  simp only [scanOrder, joined_cons_cons, joined_singleton, wide,
    scanUInt64_decimal, scanUInt32_decimal, scanInt64_signedDecimal,
    endsNumber_comma, scanChar_cons, Option.bind_eq_bind, Option.bind_some,
    last, Option.pure_def]

theorem scanTrade_text
    (seq maker taker : UInt64) (price : Int64) (qty : UInt32) :
    scanTrade (joined ','
        [decimal seq.toNat, signedDecimal price.toInt, decimal qty.toNat,
          decimal maker.toNat, decimal taker.toNat]) =
      some (seq, price, qty, maker, taker) := by
  have last := scanUInt64_decimal taker endsNumber_nil
  rw [List.append_nil] at last
  simp only [scanTrade, joined_cons_cons, joined_singleton,
    scanUInt64_decimal, scanUInt32_decimal, scanInt64_signedDecimal,
    endsNumber_comma, scanChar_cons, Option.bind_eq_bind, Option.bind_some,
    last, Option.pure_def]

theorem scanCancel_text
    (seq orderId : UInt64) (side : UInt8) (price : Int64) :
    scanCancel (joined ','
        [decimal seq.toNat, decimal side.toNat, decimal orderId.toNat,
          signedDecimal price.toInt]) =
      some (seq, side.toUInt32, orderId, price) := by
  have last := scanInt64_signedDecimal price endsNumber_nil
  have wide : side.toNat = side.toUInt32.toNat :=
    (UInt8.toNat_toUInt32 side).symm
  rw [List.append_nil] at last
  simp only [scanCancel, joined_cons_cons, joined_singleton, wide,
    scanUInt64_decimal, scanUInt32_decimal, endsNumber_comma, scanChar_cons,
    Option.bind_eq_bind, Option.bind_some, last, Option.pure_def]

theorem scanReject_text (seq orderId : UInt64) :
    scanReject (joined ',' [decimal seq.toNat, decimal orderId.toNat]) =
      some (seq, orderId) := by
  have last := scanUInt64_decimal orderId endsNumber_nil
  rw [List.append_nil] at last
  simp only [scanReject, joined_cons_cons, joined_singleton,
    scanUInt64_decimal, endsNumber_comma, scanChar_cons,
    Option.bind_eq_bind, Option.bind_some, last, Option.pure_def]

/-- The type prefix of a line. -/
theorem parseLine_prefix
    {kind : Char} (known : ¬ (kind < '0' ∨ '5' < kind))
    (field : List Char) (fields : List (List Char)) :
    parseLine (joined ',' ([kind] :: field :: fields)) =
      parseFields (UInt8.ofNat (kind.toNat - '0'.toNat))
        (joined ',' (field :: fields)) := by
  rw [joined_cons_cons]
  exact if_neg known

/-- The six kinds of report that print a line, with their lines. -/
inductive Shows : CollectedReport → CanonicalLine → Prop
  | orderAck (seq side orderId price qty maker taker) :
      Shows ⟨0, seq, side, orderId, price, qty, maker, taker⟩
        (.orderAck seq side orderId price qty)
  | trade (seq side orderId price qty maker taker) :
      Shows ⟨1, seq, side, orderId, price, qty, maker, taker⟩
        (.trade seq price qty maker taker)
  | cancelAck (seq side orderId price qty maker taker) :
      Shows ⟨2, seq, side, orderId, price, qty, maker, taker⟩
        (.cancelAck seq side orderId price)
  | modifyAck (seq side orderId price qty maker taker) :
      Shows ⟨3, seq, side, orderId, price, qty, maker, taker⟩
        (.modifyAck seq side orderId price qty)
  | cancelReject (seq side orderId price qty maker taker) :
      Shows ⟨4, seq, side, orderId, price, qty, maker, taker⟩
        (.cancelReject seq orderId)
  | modifyReject (seq side orderId price qty maker taker) :
      Shows ⟨5, seq, side, orderId, price, qty, maker, taker⟩
        (.modifyReject seq orderId)

theorem shows_of_printed
    {r : CollectedReport} {line : CanonicalLine}
    (printed : r.printed = some line) : Shows r line := by
  rcases r with ⟨type, seq, side, orderId, price, qty, maker, taker⟩
  unfold CollectedReport.printed at printed
  split at printed
  case h_1 kind =>
    obtain rfl : type = 0 := UInt8.toNat_inj.mp kind
    obtain rfl := Option.some.inj printed
    exact Shows.orderAck ..
  case h_2 kind =>
    obtain rfl : type = 1 := UInt8.toNat_inj.mp kind
    obtain rfl := Option.some.inj printed
    exact Shows.trade ..
  case h_3 kind =>
    obtain rfl : type = 2 := UInt8.toNat_inj.mp kind
    obtain rfl := Option.some.inj printed
    exact Shows.cancelAck ..
  case h_4 kind =>
    obtain rfl : type = 3 := UInt8.toNat_inj.mp kind
    obtain rfl := Option.some.inj printed
    exact Shows.modifyAck ..
  case h_5 kind =>
    obtain rfl : type = 4 := UInt8.toNat_inj.mp kind
    obtain rfl := Option.some.inj printed
    exact Shows.cancelReject ..
  case h_6 kind =>
    obtain rfl : type = 5 := UInt8.toNat_inj.mp kind
    obtain rfl := Option.some.inj printed
    exact Shows.modifyReject ..
  case h_7 => exact absurd printed (by simp)

/-- A printed line decodes to what it shows of its report. -/
theorem parseLine_text
    {r : CollectedReport} {line : CanonicalLine}
    (printed : r.printed = some line) :
    parseLine line.text = some (projected r) := by
  cases shows_of_printed printed with
  | orderAck =>
      rw [CanonicalLine.text, CanonicalLine.fields,
        parseLine_prefix (by decide)]
      apply (congrArg (Option.bind · _) (scanOrder_text ..)).trans
      simp only [Option.bind_some, UInt8.toUInt8_toUInt32]
      rfl
  | trade =>
      rw [CanonicalLine.text, CanonicalLine.fields,
        parseLine_prefix (by decide)]
      exact congrArg (Option.bind · _) (scanTrade_text ..)
  | cancelAck =>
      rw [CanonicalLine.text, CanonicalLine.fields,
        parseLine_prefix (by decide)]
      apply (congrArg (Option.bind · _) (scanCancel_text ..)).trans
      simp only [Option.bind_some, UInt8.toUInt8_toUInt32]
      rfl
  | modifyAck =>
      rw [CanonicalLine.text, CanonicalLine.fields,
        parseLine_prefix (by decide)]
      apply (congrArg (Option.bind · _) (scanOrder_text ..)).trans
      simp only [Option.bind_some, UInt8.toUInt8_toUInt32]
      rfl
  | cancelReject =>
      rw [CanonicalLine.text, CanonicalLine.fields,
        parseLine_prefix (by decide)]
      exact congrArg (Option.bind · _) (scanReject_text ..)
  | modifyReject =>
      rw [CanonicalLine.text, CanonicalLine.fields,
        parseLine_prefix (by decide)]
      exact congrArg (Option.bind · _) (scanReject_text ..)

/-- The lines of a canonical text decode to the projected reports. -/
theorem parseLine_printedLines
    {reports : List CollectedReport}
    (known : ∀ r ∈ reports, r.type ≤ 5) :
    (printedLines reports).map (fun line => parseLine line.text) =
      reports.map fun r => some (projected r) := by
  induction reports with
  | nil => rfl
  | cons r reports induction =>
      rcases Option.ne_none_iff_exists'.mp
        (printed_ne_none (known r List.mem_cons_self)) with ⟨line, printed⟩
      have rest := induction fun other member =>
        known other (List.mem_cons_of_mem _ member)
      rw [printedLines] at rest ⊢
      rw [List.filterMap_cons_some printed, List.map_cons, rest,
        parseLine_text printed, List.map_cons]

/-! ## The table holds the reports by sequence number -/

/-- The reports of a sequence number, in the order they were loaded. -/
theorem replay_push (table : Table) (r : Report) (seq : UInt64) :
    replay (table.push r) seq =
      replay table seq ++ if r.sequenceNumber = seq then [r] else [] := by
  have replay_eq (table : Table) (seq : UInt64) :
      replay table seq = (table.get seq).getD [] := by
    rw [replay]
    cases table.get seq <;> rfl
  rw [replay_eq, replay_eq, Table.push, HashMap.get_set]
  by_cases same : r.sequenceNumber = seq
  · subst same
    rw [Function.update_self, if_pos rfl]
    rfl
  · rw [Function.update_of_ne (Ne.symm same), if_neg same, List.append_nil]

/-- `strlen` and the stripping loop leave a line without its newline. -/
theorem stripNewlines_text
    (line : CanonicalLine)
    {ending : List Char} (newline : ending = [] ∨ ending = ['\n']) :
    stripNewlines (cString (line.text ++ ending)) = line.text := by
  have absent {char : Char} (notDigit : char.isDigit = false)
      (notMinus : char ≠ '-') (notComma : char ≠ ',') :
      char ∉ line.text :=
    not_mem_text line notDigit notMinus notComma
  have noZero : Char.ofNat 0 ∉ line.text ++ ending := by
    intro member
    rcases List.mem_append.mp member with inLine | inEnding
    · exact absent rfl (by decide) (by decide) inLine
    · rcases newline with rfl | rfl
      · exact List.not_mem_nil inEnding
      · exact absurd inEnding (by decide)
  have kept : stripNewlines line.text = line.text := by
    apply List.rdropWhile_eq_self_iff.mpr
    intro nonempty stripped
    have last := List.getLast_mem nonempty
    rcases (Bool.or_eq_true _ _).mp stripped with isNewline | isReturn
    · rw [of_decide_eq_true isNewline] at last
      exact absent rfl (by decide) (by decide) last
    · rw [of_decide_eq_true isReturn] at last
      exact absent rfl (by decide) (by decide) last
  rw [cString_of_not_mem noZero]
  rcases newline with rfl | rfl
  · rw [List.append_nil, kept]
  · rw [stripNewlines, List.rdropWhile_concat_pos _ _ _ (by decide)]
    exact kept

/-- Loading a line that a report printed stores the projected report. -/
theorem loadLine_text
    (table : Table) {r : CollectedReport} {line : CanonicalLine}
    (printed : r.printed = some line)
    {ending : List Char} (newline : ending = [] ∨ ending = ['\n']) :
    loadLine table (line.text ++ ending) = table.push (projected r) := by
  simp only [loadLine, stripNewlines_text line newline, text_ne_nil,
    if_false, parseLine_text printed]

/-- Loading the lines that reports printed, newline by newline. -/
theorem foldl_loadLine
    (table : Table) {reports : List CollectedReport}
    (known : ∀ r ∈ reports, r.type ≤ 5) :
    ((printedLines reports).map fun line => line.text ++ ['\n']).foldl
        loadLine table =
      (reports.map projected).foldl Table.push table := by
  induction reports generalizing table with
  | nil => rfl
  | cons r reports induction =>
      rcases Option.ne_none_iff_exists'.mp
        (printed_ne_none (known r List.mem_cons_self)) with ⟨line, printed⟩
      have rest := induction (table.push (projected r)) fun other member =>
        known other (List.mem_cons_of_mem _ member)
      rw [printedLines] at rest ⊢
      rw [List.filterMap_cons_some printed, List.map_cons, List.foldl_cons,
        loadLine_text table printed (Or.inr rfl), rest, List.map_cons,
        List.foldl_cons]

/-- Loading a joined text stores every projected report in list order. -/
theorem engineInit_joined
    {reports : List CollectedReport} (known : ∀ r ∈ reports, r.type ≤ 5) :
    engineInit (some (joined '\n'
        ((printedLines reports).map CanonicalLine.text))) =
      (reports.map projected).foldl Table.push ∅ := by
  rcases List.eq_nil_or_concat' reports with rfl | ⟨front, last, rfl⟩
  · rfl
  · rw [List.forall_mem_append] at known
    rcases Option.ne_none_iff_exists'.mp
      (printed_ne_none (known.2 last List.mem_cons_self)) with
      ⟨line, printed⟩
    have shown : printedLines (front ++ [last]) =
        printedLines front ++ [line] := by
      rw [printedLines_append, printedLines, printedLines,
        List.filterMap_cons_some printed]
      rfl
    have read :
        fgetsLines 256 (joined '\n'
            ((printedLines front).map CanonicalLine.text ++ [line.text])) =
          ((printedLines front).map CanonicalLine.text).map (· ++ ['\n']) ++
            [line.text] := by
      apply fgetsLines_joined
      · intro part member
        rw [← List.map_singleton, ← List.map_append] at member
        rcases List.mem_map.mp member with ⟨other, _, rfl⟩
        exact newline_not_mem_text other
      · intro part member
        rw [← List.map_singleton, ← List.map_append] at member
        rcases List.mem_map.mp member with ⟨other, _, rfl⟩
        have short := length_text_lt other
        rw [lineBufferSize] at short
        omega
      · exact text_ne_nil line
    rw [shown, List.map_append, List.map_singleton, engineInit, read,
      List.foldl_append, List.map_map]
    have front_loaded := foldl_loadLine ∅ known.1
    have last_loaded := loadLine_text
      ((front.map projected).foldl Table.push ∅) printed (Or.inl rfl)
    rw [List.append_nil] at last_loaded
    rw [Function.comp_def, front_loaded, List.foldl_cons, List.foldl_nil,
      last_loaded, List.map_append, List.foldl_append]
    rfl

/-- What the table replays after reports were pushed. -/
theorem replay_foldl_push
    (reports : List Report) (table : Table) (seq : UInt64) :
    replay (reports.foldl Table.push table) seq =
      replay table seq ++ fiber Report.sequenceNumber seq reports := by
  induction reports generalizing table with
  | nil => simp
  | cons r reports induction =>
      rw [List.foldl_cons, induction, replay_push, List.append_assoc]
      by_cases same : r.sequenceNumber = seq
      · rw [if_pos same, fiber_cons_of_eq same, List.singleton_append]
      · rw [if_neg same, fiber_cons_of_ne same, List.nil_append]

/-! ## The replayed workload -/

/-- Every handler replays the message's own sequence number. -/
theorem engineOn_eq (table : Table) (message : Msg) :
    engineOn table message = replay table message.sequenceNumber := by
  cases message <;> rfl

/-- A projected report prints the line of the report. -/
theorem printed_projected
    {r : CollectedReport} {line : CanonicalLine}
    (printed : r.printed = some line) :
    (collect (projected r)).printed = some line := by
  cases shows_of_printed printed with
  | orderAck => rfl
  | trade => rfl
  | cancelAck => rfl
  | modifyAck => rfl
  | cancelReject => rfl
  | modifyReject => rfl

/-- Projecting changes no class of printed lines. -/
theorem sameCanonical_projected (reports : List CollectedReport) :
    SameCanonical (reports.map fun r => collect (projected r)) reports := by
  intro seq type known
  rw [reportClass, List.filter_map, List.map_map]
  apply List.map_congr_left
  intro r member
  have kind : r.type ≤ 5 := by
    have inClass := of_decide_eq_true (List.mem_filter.mp member).2
    exact inClass.2 ▸ known
  rcases Option.ne_none_iff_exists'.mp (printed_ne_none kind) with
    ⟨line, printed⟩
  exact (printed_projected printed).trans printed.symm

/-- A class is read off the reports of its sequence number. -/
theorem reportClass_fiber
    (seq : UInt64) (type : UInt8) (reports : List CollectedReport) :
    reportClass seq type (fiber CollectedReport.seq seq reports) =
      reportClass seq type reports := by
  rw [reportClass, fiber, List.filter_filter, reportClass]
  apply List.filter_congr
  intro r _
  by_cases same : r.seq = seq <;> simp [same]

/-- Replaying distinct sequence numbers that cover the reports. -/
theorem sameCanonical_replayed
    {seqs : List UInt64} (distinct : seqs.Nodup)
    {reports : List CollectedReport}
    (covered : ∀ r ∈ reports, r.seq ∈ seqs) :
    SameCanonical
      (seqs.flatMap fun seq => fiber CollectedReport.seq seq reports)
      reports := by
  intro seq type _
  by_cases listed : seq ∈ seqs
  · rw [← reportClass_fiber seq type (seqs.flatMap _),
      fiber_flatMap_fiber distinct listed, reportClass_fiber]
  · have absent : reportClass seq type reports = [] := by
      apply List.filter_eq_nil_iff.mpr
      intro r member inClass
      apply listed
      rw [← (of_decide_eq_true inClass).1]
      exact covered r member
    have replayed_absent :
        reportClass seq type
          (seqs.flatMap fun seq => fiber CollectedReport.seq seq reports) =
            [] := by
      apply List.filter_eq_nil_iff.mpr
      intro r member inClass
      rcases List.mem_flatMap.mp member with ⟨other, inSeqs, inFiber⟩
      apply listed
      rw [← (of_decide_eq_true inClass).1, (mem_fiber.mp inFiber).2]
      exact inSeqs
    rw [absent, replayed_absent]

/-- A sorted vector prints the text of the vector it was sorted from. -/
theorem sameCanonical_sorted (reports : List CollectedReport) :
    SameCanonical (stableSort reportBefore reports) reports := by
  apply (sameCanonical_iff_text_eq _ _).mpr
  exact congrArg Prod.fst (buildCanonicalText_sorted reports)

/-- What the adapter, loaded with a text, emits for a workload. -/
def emitted
    (text : List Char) (workload : List Msg) : List CollectedReport :=
  (workload.flatMap (engineOn (engineInit (some text)))).map collect

/--
Every line of a canonical text is accepted by `parse_line`, which recovers the
report reduced to the fields its type prints; and the adapter that loaded the
text and is driven over a workload whose distinct sequence numbers cover the
reports emits reports whose canonical text is the text it loaded.
-/
theorem canonical_text_replays
    (reports : List CollectedReport) (workload : List Msg)
    (known : ∀ r ∈ reports, r.type ≤ 5)
    (distinct : (workload.map Msg.sequenceNumber).Nodup)
    (covered : ∀ r ∈ reports, r.seq ∈ workload.map Msg.sequenceNumber) :
    (lines (buildCanonicalText reports).1).map parseLine =
        (buildCanonicalText reports).2.map (fun r => some (projected r)) ∧
      (buildCanonicalText
          (emitted (buildCanonicalText reports).1 workload)).1 =
        (buildCanonicalText reports).1 := by
  have sorted_perm := stableSort_perm reportBefore_compares reports
  have sorted_known :
      ∀ r ∈ stableSort reportBefore reports, r.type ≤ 5 := by
    intro r member
    exact known r (sorted_perm.mem_iff.mp member)
  have sorted_covered :
      ∀ r ∈ (stableSort reportBefore reports).map
          fun r => collect (projected r),
        r.seq ∈ workload.map Msg.sequenceNumber := by
    intro r member
    rcases List.mem_map.mp member with ⟨original, inSorted, rfl⟩
    exact covered original (sorted_perm.mem_iff.mp inSorted)
  have emitted_eq :
      emitted (buildCanonicalText reports).1 workload =
        (workload.map Msg.sequenceNumber).flatMap fun seq =>
          fiber CollectedReport.seq seq
            ((stableSort reportBefore reports).map
              fun r => collect (projected r)) := by
    rw [emitted, buildCanonicalText_eq, engineInit_joined sorted_known,
      List.map_flatMap, List.flatMap_map]
    apply List.flatMap_congr
    intro message _
    have empty : replay ∅ message.sequenceNumber = [] := rfl
    rw [engineOn_eq, replay_foldl_push, empty, List.nil_append, fiber, fiber,
      List.filter_map, List.filter_map, List.map_map]
    rfl
  apply And.intro
  · have read :
        lines (buildCanonicalText reports).1 =
          (printedLines (stableSort reportBefore reports)).map
            CanonicalLine.text := by
      rw [buildCanonicalText_eq]
      apply lines_joined
      · simpa using fun line _ => newline_not_mem_text line
      · simpa using fun line _ => text_ne_nil line
    rw [read, List.map_map]
    exact parseLine_printedLines sorted_known
  · apply (sameCanonical_iff_text_eq _ _).mp
    rw [emitted_eq]
    apply (sameCanonical_replayed distinct sorted_covered).trans
    apply (sameCanonical_projected _).trans
    exact sameCanonical_sorted reports

/-- Two orders, the second of which trades. -/
def twoOrders : List Msg :=
  [.newOrder ⟨1, 0, 100, 5, 0, 0⟩, .newOrder ⟨2, 1, 100, 5, 1, 0⟩]

/-- Their reports. -/
def ackAndTrade : List CollectedReport :=
  [⟨0, 0, 0, 1, 100, 5, 0, 0⟩, ⟨0, 1, 1, 2, 100, 5, 0, 0⟩,
    ⟨1, 1, 0, 0, 100, 5, 1, 2⟩]

theorem canonical_text_replays_ackAndTrade :
    (lines (buildCanonicalText ackAndTrade).1).map parseLine =
        (buildCanonicalText ackAndTrade).2.map (fun r => some (projected r)) ∧
      (buildCanonicalText
          (emitted (buildCanonicalText ackAndTrade).1 twoOrders)).1 =
        (buildCanonicalText ackAndTrade).1 :=
  canonical_text_replays ackAndTrade twoOrders (by decide) (by decide)
    (by decide)

end MatchingBench.Canonical.CheatAdapter
