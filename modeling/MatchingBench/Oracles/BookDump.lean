import MatchingBench.Lib.TextScan

/-!
# The book dump of cpp-orderbook

The text `OrderBook::toString` prints, as `cpp_orderbook_adapter.cpp` states
it, and the adapter's parser.  The dump prints one bid and one ask level a
line, best first, until both sides are exhausted.  Prices and quantities are
whole ticks.
-/

set_option autoImplicit false

namespace MatchingBench.Oracles.BookDump

open MatchingBench.Lib.DecimalText
open MatchingBench.Lib.TextScan

/-! ## The engine's text -/

/-- The separator between the columns. -/
def separator : List Char :=
  [' ', '|', ' ']

/-- A bid level, quantity first, or a blank column. -/
def bidColumn : Option (Nat × Nat) → List Char
  | some (price, qty) => decimal qty ++ '\t' :: decimal price
  | none => ['\t', '\t', '\t']

/-- An ask level, price first, or a blank column. -/
def askColumn : Option (Nat × Nat) → List Char
  | some (price, qty) => decimal price ++ '\t' :: decimal qty
  | none => []

/-- One line without its newline. -/
def row (bid ask : Option (Nat × Nat)) : List Char :=
  bidColumn bid ++ separator ++ askColumn ask

/-- The dump of the levels of both sides, prices with quantities. -/
def dump (bids asks : List (Nat × Nat)) : List Char :=
  (List.zipWithAll row bids asks).flatMap (· ++ ['\n'])

/-! ## The adapter's parser -/

/-- `splitBidAsk`. -/
def splitBidAsk (line : List Char) : List Char × List Char :=
  match find separator line with
  | none => ([], [])
  | some pos => (line.take pos, line.drop (pos + 3))

/-- `parseU64`. -/
def parseU64 (s : List Char) : Option UInt64 :=
  if leadingDigits s = [] then none
  else some (digitsValue (leadingDigits s))

/-- `parseBidLevel`: a price and a quantity. -/
def parseBidLevel (part : List Char) : Option (Int64 × UInt64) :=
  (find ['\t'] part).bind fun tab =>
    (parseU64 (part.take tab)).bind fun q =>
      (parseU64 (part.drop (tab + 1))).map fun p => (p.toInt64, q)

/-- `parseAskLevel`: a price and a quantity. -/
def parseAskLevel (part : List Char) : Option (Int64 × UInt64) :=
  (find ['\t'] part).bind fun tab =>
    (parseU64 (part.take tab)).bind fun p =>
      (parseU64 (part.drop (tab + 1))).map fun q => (p.toInt64, q)

/-- The text up to the first newline. -/
def firstLine (sv : List Char) : List Char :=
  match find ['\n'] sv with
  | none => sv
  | some nl => sv.take nl

/-- The level of a side in one line. -/
def parseLine (side : UInt8) (line : List Char) : Option (Int64 × UInt64) :=
  let parts := splitBidAsk line
  if side = 0 then parseBidLevel parts.1 else parseAskLevel parts.2

/-- The levels of a side in a dump. -/
def parseLevels (side : UInt8) (sv : List Char) : List (Int64 × UInt64) :=
  (lines sv).filterMap (parseLine side)

/-! ## Columns -/

/-- A level as the adapter holds it. -/
def wireLevel (level : Nat × Nat) : Int64 × UInt64 :=
  (Int64.ofNat level.1, UInt64.ofNat level.2)

theorem parseU64_decimal
    (value : Nat) {text : List Char}
    (ends : ∀ char ∈ text.head?, char.isDigit = false) :
    parseU64 (decimal value ++ text) = some (UInt64.ofNat value) := by
  unfold parseU64
  rw [leadingDigits_decimal value ends, if_neg (decimal_ne_nil value),
    digitsValue_decimal]

/-- Two numbers with a tab between them are read back. -/
theorem find_tab (left right : Nat) :
    find ['\t'] (decimal left ++ '\t' :: decimal right) =
      some (decimal left).length := by
  have found := find_append [] (@not_mem_decimal left '\t' rfl)
    (decimal right)
  rwa [List.append_assoc] at found

theorem parseU64_before (left right : Nat) :
    parseU64
        ((decimal left ++ '\t' :: decimal right).take (decimal left).length) =
      some (UInt64.ofNat left) := by
  rw [List.take_left]
  simpa using @parseU64_decimal left [] (by simp)

theorem parseU64_after (left right : Nat) :
    parseU64
        ((decimal left ++ '\t' :: decimal right).drop
          ((decimal left).length + 1)) =
      some (UInt64.ofNat right) := by
  rw [← List.drop_drop, List.drop_left, List.drop_one, List.tail_cons]
  simpa using @parseU64_decimal right [] (by simp)

theorem parseBidLevel_column (level : Nat × Nat) :
    parseBidLevel (bidColumn (some level)) = some (wireLevel level) := by
  unfold parseBidLevel bidColumn
  rw [find_tab, Option.bind_some, parseU64_before, Option.bind_some,
    parseU64_after]
  rfl

theorem parseAskLevel_column (level : Nat × Nat) :
    parseAskLevel (askColumn (some level)) = some (wireLevel level) := by
  unfold parseAskLevel askColumn
  rw [find_tab, Option.bind_some, parseU64_before, Option.bind_some,
    parseU64_after]
  rfl

/-- A blank column is no level. -/
theorem parseBidLevel_blank : parseBidLevel (bidColumn none) = none := by
  decide

theorem parseAskLevel_blank : parseAskLevel (askColumn none) = none := by
  decide

/-! ## Lines -/

/-- Columns hold neither blanks nor newlines. -/
theorem not_mem_bidColumn
    {char : Char} (notDigit : char.isDigit = false) (notTab : char ≠ '\t')
    (bid : Option (Nat × Nat)) : char ∉ bidColumn bid := by
  cases bid with
  | none => simp [bidColumn, notTab]
  | some level =>
      simp only [bidColumn, List.mem_append, List.mem_cons, not_or]
      exact ⟨not_mem_decimal notDigit, notTab, not_mem_decimal notDigit⟩

theorem not_mem_askColumn
    {char : Char} (notDigit : char.isDigit = false) (notTab : char ≠ '\t')
    (ask : Option (Nat × Nat)) : char ∉ askColumn ask := by
  cases ask with
  | none => simp [askColumn]
  | some level =>
      simp only [askColumn, List.mem_append, List.mem_cons, not_or]
      exact ⟨not_mem_decimal notDigit, notTab, not_mem_decimal notDigit⟩

theorem newline_not_mem_row (bid ask : Option (Nat × Nat)) :
    '\n' ∉ row bid ask := by
  simp only [row, List.mem_append, not_or]
  refine ⟨⟨?_, by decide⟩, ?_⟩
  · exact not_mem_bidColumn rfl (by decide) bid
  · exact not_mem_askColumn rfl (by decide) ask

theorem splitBidAsk_row (bid ask : Option (Nat × Nat)) :
    splitBidAsk (row bid ask) = (bidColumn bid, askColumn ask) := by
  have found : find separator (row bid ask) = some (bidColumn bid).length :=
    find_append ['|', ' '] (not_mem_bidColumn rfl (by decide) bid)
      (askColumn ask)
  unfold splitBidAsk
  rw [found]
  dsimp only
  rw [row, List.append_assoc, List.take_left, ← List.drop_drop,
    List.drop_left]
  rfl

/-- The lines of a dump are its rows. -/
theorem lines_dump (bids asks : List (Nat × Nat)) :
    lines (dump bids asks) = List.zipWithAll row bids asks := by
  refine lines_flatMap ?_
  induction bids generalizing asks with
  | nil =>
      rw [List.nil_zipWithAll]
      intro line member
      rcases List.mem_map.mp member with ⟨ask, _, rfl⟩
      exact newline_not_mem_row none (some ask)
  | cons bid bids induction =>
      cases asks with
      | nil =>
          rw [List.zipWithAll_nil]
          intro line member
          rcases List.mem_map.mp member with ⟨bid, _, rfl⟩
          exact newline_not_mem_row (some bid) none
      | cons ask asks =>
          rw [List.zipWithAll_cons_cons]
          intro line member
          rcases List.mem_cons.mp member with rfl | member
          · exact newline_not_mem_row (some bid) (some ask)
          · exact induction asks line member

/-! ## Round trip -/

/--
Parsing a dump recovers every level of both sides, however many levels the
other side has.
-/
theorem parseLevels_dump (bids asks : List (Nat × Nat)) (side : UInt8) :
    parseLevels side (dump bids asks) =
      (if side = 0 then bids else asks).map wireLevel := by
  unfold parseLevels
  rw [lines_dump]
  by_cases buy : side = 0
  · rw [if_pos buy]
    refine filterMap_zipWithAll_left (fun bid ask => ?_) (fun ask => ?_) _ _
    · rw [parseLine, splitBidAsk_row, if_pos buy, parseBidLevel_column]
    · rw [parseLine, splitBidAsk_row, if_pos buy, parseBidLevel_blank]
  · rw [if_neg buy]
    refine filterMap_zipWithAll_right (fun bid ask => ?_) (fun bid => ?_) _ _
    · rw [parseLine, splitBidAsk_row, if_neg buy, parseAskLevel_column]
    · rw [parseLine, splitBidAsk_row, if_neg buy, parseAskLevel_blank]

/-- The first line of a dump shows the best level of each side. -/
theorem firstLine_dump (bids asks : List (Nat × Nat)) :
    firstLine (dump bids asks) =
      if bids = [] ∧ asks = [] then [] else row bids.head? asks.head? := by
  have terminated (bid ask : Option (Nat × Nat)) (text : List Char) :
      firstLine (row bid ask ++ ['\n'] ++ text) = row bid ask := by
    have found := find_append [] (newline_not_mem_row bid ask) text
    unfold firstLine
    rw [found]
    dsimp only
    rw [List.append_assoc, List.take_left]
  cases bids with
  | nil =>
      cases asks with
      | nil => rfl
      | cons ask asks => exact terminated none (some ask) _
  | cons bid bids =>
      cases asks with
      | nil => exact terminated (some bid) none _
      | cons ask asks => exact terminated (some bid) (some ask) _

/-- The best level of a side is read from the first line. -/
theorem parseLine_firstLine
    (bids asks : List (Nat × Nat)) (side : UInt8) :
    parseLine side (firstLine (dump bids asks)) =
      (if side = 0 then bids else asks).head?.map wireLevel := by
  rw [firstLine_dump]
  split
  · rename_i empty
    rcases empty with ⟨rfl, rfl⟩
    unfold parseLine
    split <;> rfl
  · rw [parseLine, splitBidAsk_row]
    dsimp only
    split
    · cases bids with
      | nil => exact parseBidLevel_blank
      | cons bid bids => exact parseBidLevel_column bid
    · cases asks with
      | nil => exact parseAskLevel_blank
      | cons ask asks => exact parseAskLevel_column ask

end MatchingBench.Oracles.BookDump
