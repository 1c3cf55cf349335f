import MatchingBench.Scripts.LoadPublished

/-!
# Two readers of the reference hash file

The harness looks a tag up that it prints itself; the validator takes the tags
of the file apart and looks numbers up.  Both read the file from newline to
newline, so they are compared row by row, by the words that stand in a row.
Printable rows that fit into the buffer show the same to both, except with a
third word or with padded numbers.
-/

set_option autoImplicit false

namespace MatchingBench.Scripts.HashReaders

open MatchingBench.Lib.DecimalText
open MatchingBench.Lib.Maps
open MatchingBench.Lib.PythonText (fileLines fileLines_split isWhite split
  universalNewlines universalNewlines_append)
open MatchingBench.Lib.Stdio
open MatchingBench.Lib.TextScan
open MatchingBench.Harness.ReferenceHash
open MatchingBench.Scripts.LoadPublished
open MatchingBench.Scripts.ValidateSeeds (scenarios)

/-! ## The two lookups -/

/-- The hash that a run of the harness expects. -/
def expectedHash
    (content : List UInt8) (scenario : Scenario) (seed : UInt64) :
    Option (List Char) :=
  (readHashFile (some (content.map byteChar))).get
    (wantTag scenario seed (UInt64.ofNat publishedCount))

/-- The hash that the validator assigns to a cell. -/
def publishedHash (python : Interpreter)
    (content : List UInt8) (scenario : Scenario) (seed : UInt64) :
    Option (List Char) :=
  (python.loadPublished (some content)
    (scenarios.map String.toList)).bind fun loaded =>
      loaded.1.get (seed.toNat, scenario.name)

/-! ## What stands in a file -/

/-- One of the five scenarios of the validator. -/
def Published (scenario : Scenario) : Prop :=
  scenario.name ∈ scenarios.map String.toList

/-- The pieces of a row in a buffer of 512 bytes. -/
def pieces (row : List UInt8) : List (List Char) :=
  fgetsLines 512 (row.map byteChar)

/--
Up to a zero byte, the first words are a hash and the tag as the harness
prints it.
-/
def Literal (scenario : Scenario) (seed : UInt64)
    (hash piece : List Char) : Prop :=
  isHash hash = true ∧ ∃ others, words isSpace (cString piece) =
    hash :: wantTag scenario seed (UInt64.ofNat publishedCount) :: others

/-- Decimal digits, perhaps padded or of other scripts, of this value. -/
def Spells (python : Interpreter) (digits : List Char) (value : Nat) : Prop :=
  digits ≠ [] ∧ (∀ char ∈ digits, python.isDecimal char) ∧
    python.int digits = some value

/-- The only words are a hash and a tag that spells the cell. -/
def Spelled (python : Interpreter) (scenario : Scenario) (seed : UInt64)
    (hash line : List Char) : Prop :=
  isHash hash = true ∧ ∃ number count : List Char,
    split line = [hash, TagMatch.text ⟨scenario.name, number, count⟩] ∧
      Spells python number seed.toNat ∧ Spells python count publishedCount

/-- The only words are a hash and a tag with more digits than `int` takes. -/
def Overlong (python : Interpreter) (line : List Char) : Prop :=
  ∃ (hash : List Char) (found : TagMatch), isHash hash = true ∧
    found.Formed python ∧ split line = [hash, found.text] ∧
      (python.int found.count = none ∨
        python.int found.count = some publishedCount ∧
          python.int found.seed = none)

/-- The first piece of a row with the cell's own tag shows this hash. -/
def LiteralRow (scenario : Scenario) (seed : UInt64)
    (hash : List Char) (row : List UInt8) : Prop :=
  First (Literal scenario seed) hash (pieces row)

/-- The first line of a row that spells the cell shows this hash. -/
def SpelledRow (python : Interpreter) (scenario : Scenario) (seed : UInt64)
    (hash : List Char) (row : List UInt8) : Prop :=
  First (Spelled python scenario seed) hash (fileLines (python.decode row))

/-- A line of the row is overlong. -/
def OverlongRow (python : Interpreter) (row : List UInt8) : Prop :=
  ∃ line ∈ fileLines (python.decode row), Overlong python line

/-- The text of a file does not part the readers on a cell. -/
def Unambiguous (python : Interpreter)
    (content : List UInt8) (scenario : Scenario) (seed : UInt64) : Prop :=
  ((∃ row ∈ rows 10 content, OverlongRow python row) ∧
    ∀ row ∈ rows 10 content, ∀ hash, ¬LiteralRow scenario seed hash row) ∨
  ((∀ row ∈ rows 10 content, ¬OverlongRow python row) ∧
    (Undisturbed (LiteralRow scenario seed) (SpelledRow python scenario seed)
        (rows 10 content) ∨
      Coincident (LiteralRow scenario seed) (SpelledRow python scenario seed)
        (rows 10 content)))

/-! ## Rows of the file -/

/-- What a buffer says about a tag. -/
def finds (tag buffer : List Char) : Option (List Char) :=
  match readEntry buffer with
  | some (other, hash) => if tag = other then some hash else none
  | none => none

/-- What a row of the file says about a cell to the harness. -/
def harnessRow
    (scenario : Scenario) (seed : UInt64) (row : List UInt8) :
    Option (List Char) :=
  (fgetsLines 512 (row.map byteChar)).findSome?
    (finds (wantTag scenario seed (UInt64.ofNat publishedCount)))

/-- What a row of the file says about a cell to the validator. -/
def validatorRow (python : Interpreter)
    (scenario : Scenario) (seed : UInt64) (row : List UInt8) :
    Option (List Char) :=
  (fileLines (python.decode row)).findSome?
    (python.finds (seed.toNat, scenario.name))

/-- `int` fails on a line of the row. -/
def Raises (python : Interpreter) (row : List UInt8) : Prop :=
  ∃ line ∈ fileLines (python.decode row), python.readLine line = .valueError

/-! ## Reading row by row -/

theorem get_foldl_readLine_finds
    (buffers : List (List Char)) (entries : HashEntries) (tag : List Char) :
    (buffers.foldl readLine entries).get tag =
      (entries.get tag).or (buffers.findSome? (finds tag)) := by
  induction buffers generalizing entries with
  | nil => exact Option.or_none.symm
  | cons buffer buffers induction =>
      rw [List.foldl_cons, induction, readLine, List.findSome?_cons, finds]
      cases read : readEntry buffer with
      | none => rfl
      | some entry =>
          dsimp only
          rw [get_emplace, Option.or_assoc]
          by_cases same : tag = entry.1 <;> simp [same]

theorem map_byteChar_newline (line rest : List UInt8) :
    (line ++ 10 :: rest).map byteChar =
      line.map byteChar ++ '\n' :: rest.map byteChar := by
  rw [List.map_append, List.map_cons]
  rfl

section Rowwise

variable (python : Interpreter) (content : List UInt8) (scenario : Scenario)
  (seed : UInt64)

/-- The harness takes the first row that says something about the cell. -/
theorem expectedHash_eq :
    expectedHash content scenario seed =
      (rows 10 content).findSome? (harnessRow scenario seed) := by
  have rowwise := @findSome?_rows _ _ _ _ 10
    (fun row : List UInt8 => fgetsLines 512 (row.map byteChar)) rfl
    (fun line rest => by
      rw [map_byteChar_newline, map_byteChar_newline, fgetsLines_split]
      rfl)
    (finds (wantTag scenario seed (UInt64.ofNat publishedCount))) content
  rw [expectedHash, readHashFile, get_foldl_readLine_finds,
    HashMap.get_empty, Option.none_or, ← rowwise]
  rfl

/-- The validator's lines, row by row. -/
theorem fileLines_newline (line rest : List UInt8) :
    fileLines (python.decode (line ++ 10 :: rest)) =
      fileLines (python.decode (line ++ [10])) ++
        fileLines (python.decode rest) := by
  have empty : python.decode [] = [] :=
    python.decode_ascii [] (List.forall_mem_nil _)
  rw [python.decode_newline, python.decode_newline, fileLines_split, empty]

theorem decode_nil : fileLines (python.decode []) = [] := by
  rw [python.decode_ascii [] (List.forall_mem_nil _)]
  rfl

/-- A line of the file is a line of one of its rows. -/
theorem mem_fileLines {line : List Char} :
    line ∈ fileLines (python.decode content) ↔
      ∃ row ∈ rows 10 content, line ∈ fileLines (python.decode row) := by
  rw [← @flatMap_rows _ _ _ 10 (fun row => fileLines (python.decode row))
    (decode_nil python) (fileLines_newline python) content, List.mem_flatMap]

/-- The script survives the file, and what it then finds. -/
theorem publishedHash_eq
    (survives : ∀ row ∈ rows 10 content, ¬Raises python row) :
    publishedHash python content scenario seed =
      (rows 10 content).findSome? (validatorRow python scenario seed) := by
  have rowwise := @findSome?_rows _ _ _ _ 10
    (fun row => fileLines (python.decode row)) (decode_nil python)
    (fileLines_newline python) (python.finds (seed.toNat, scenario.name))
    content
  cases read : python.readLines .empty (fileLines (python.decode content)) with
  | none =>
      rcases readLines_eq_none_iff.mp read with ⟨line, member, raises⟩
      rcases (mem_fileLines python content).mp member with
        ⟨row, inRows, inRow⟩
      exact absurd ⟨line, inRow, raises⟩ (survives row inRows)
  | some dicts =>
      have found := readLines_get read (seed.toNat, scenario.name)
      rw [Dictionaries.empty, HashMap.get_empty, Option.none_or, ← rowwise]
        at found
      rw [publishedHash, Interpreter.loadPublished]
      simp only [Option.bind_eq_bind, Option.bind_some, read]
      exact found

/-- A `ValueError` ends the script before it assigns anything. -/
theorem publishedHash_raises
    (raises : ∃ row ∈ rows 10 content, Raises python row) :
    publishedHash python content scenario seed = none := by
  rcases raises with ⟨row, inRows, line, inRow, fails⟩
  have member := (mem_fileLines python content).mpr ⟨row, inRows, inRow⟩
  have read := (@readLines_eq_none_iff python .empty _).mpr
    ⟨line, member, fails⟩
  rw [publishedHash, Interpreter.loadPublished]
  simp only [Option.bind_eq_bind, Option.bind_some, read, Option.bind_none]

end Rowwise

/-! ## Plain rows -/

theorem length_of_isHash {hash : List Char} (valid : isHash hash = true) :
    hash.length = 64 := by
  rw [isHash, Bool.and_eq_true, decide_eq_true_eq] at valid
  exact valid.1

/-- A word that fills the buffer of `%255s` is no hash. -/
theorem isHash_long {word : List Char} (long : 255 ≤ word.length) :
    isHash word = false := by
  rw [← Bool.not_eq_true]
  intro valid
  have length := length_of_isHash valid
  omega

/-- The harness reads the first two words of a buffer. -/
theorem readEntry_words (buffer : List Char) :
    readEntry buffer =
      match words isSpace (cString buffer) with
      | hash :: tag :: _ =>
          if isHash hash then some (tag.take 255, hash) else none
      | _ => none := by
  have width : 0 < 255 := by decide
  have bound : readEntry buffer =
      (scanWord 255 (cString buffer)).bind fun hash =>
        (scanWord 255 (hash.2.dropWhile isSpace)).bind fun tag =>
          if isHash hash.1 then some (tag.1, hash.1) else none := rfl
  rw [bound]
  cases scanned : scanWord 255 (cString buffer) with
  | none =>
      rw [words_of_scanWord_none width scanned]
      rfl
  | some result =>
      rcases result with ⟨word, rest⟩
      rw [Option.bind_some]
      by_cases fits : word.length < 255
      · rw [scanWord_first scanned fits, ← words_dropWhile rest]
        cases later : scanWord 255 (rest.dropWhile isSpace) with
        | none =>
            rw [words_of_scanWord_none width later]
            rfl
        | some result =>
            rcases words_of_scanWord width later with
              ⟨tag, others, shown, cut⟩
            rw [shown, Option.bind_some, cut]
      · -- The first word is longer than a hash, whatever follows it.
        rcases words_of_scanWord width scanned with
          ⟨long, others, shown, cut⟩
        rw [cut, List.length_take] at fits
        have noHash : isHash word = false :=
          isHash_long (by rw [cut, List.length_take]; omega)
        have noHashToo : isHash long = false := isHash_long (by omega)
        rw [shown]
        dsimp only
        rw [noHash]
        cases scanWord 255 (rest.dropWhile isSpace) <;>
          cases others <;> simp [noHashToo]

/-- A tab or a printable character of ASCII. -/
def plainByte (byte : UInt8) : Bool :=
  byte = 9 || (32 ≤ byte && byte < 127)

/-- Printable text and its line ending, within one buffer. -/
structure Plain (text ending : List UInt8) : Prop where
  fits : (text ++ ending).length < 512
  printable : ∀ byte ∈ text, plainByte byte = true
  ends : ending = [] ∨ ending = [10] ∨ ending = [13, 10]

/-- The line shows the cell's entry, and more words behind it. -/
def Trailing
    (scenario : Scenario) (seed : UInt64) (line : List Char) : Prop :=
  ∃ hash others, isHash hash = true ∧ others ≠ [] ∧
    split line =
      hash :: wantTag scenario seed (UInt64.ofNat publishedCount) :: others

/-- The line shows the numbers of the cell otherwise than they are printed. -/
def Padded (python : Interpreter)
    (scenario : Scenario) (seed : UInt64) (line : List Char) : Prop :=
  ∃ hash tag found, isHash hash = true ∧ split line = [hash, tag] ∧
    tag ≠ wantTag scenario seed (UInt64.ofNat publishedCount) ∧
    python.matchTag tag = some found ∧ found.scenario = scenario.name ∧
    python.int found.seed = some seed.toNat ∧
    python.int found.count = some publishedCount

/-- What a plain character is to both readers. -/
structure PlainChar (char : Char) : Prop where
  space : isSpace char = isWhite char
  newline : char ≠ '\n'
  carriage : char ≠ '\r'
  zero : char ≠ Char.ofNat 0

theorem plainChar_byteChar {byte : UInt8} (plain : plainByte byte = true) :
    PlainChar (byteChar byte) := by
  have table : ∀ code < 127, (code = 9 ∨ 32 ≤ code) →
      isSpace (Char.ofNat code) = isWhite (Char.ofNat code) ∧
        Char.ofNat code ≠ '\n' ∧ Char.ofNat code ≠ '\r' ∧
          Char.ofNat code ≠ Char.ofNat 0 := by decide
  have range : byte.toNat < 127 ∧ (byte.toNat = 9 ∨ 32 ≤ byte.toNat) := by
    rw [plainByte, Bool.or_eq_true, Bool.and_eq_true] at plain
    rcases plain with tab | ⟨low, high⟩
    · rw [of_decide_eq_true tab]
      decide
    · have least : 32 ≤ byte.toNat := of_decide_eq_true low
      have most : byte.toNat < 127 := of_decide_eq_true high
      exact ⟨most, Or.inr least⟩
  rcases table byte.toNat range.1 range.2 with ⟨space, newline, carriage, zero⟩
  exact ⟨space, newline, carriage, zero⟩

section PlainText

variable {text : List Char} (plain : ∀ char ∈ text, PlainChar char)

include plain

theorem carriage_not_mem_plain : '\r' ∉ text :=
  fun member => (plain _ member).carriage rfl

theorem newline_not_mem_plain : '\n' ∉ text :=
  fun member => (plain _ member).newline rfl

/-- The validator reads the text of a plain row as one line. -/
theorem fileLines_plain {ending : List Char}
    (ends : ending = [] ∨ ending = ['\n'] ∨ ending = ['\r', '\n']) :
    fileLines (text ++ ending) = [text] ∨
      text = [] ∧ fileLines (text ++ ending) = [] := by
  have free := newline_not_mem_plain plain
  rw [fileLines, universalNewlines_append (carriage_not_mem_plain plain)]
  have terminated : lines (text ++ ['\n']) = [text] := by
    rw [lines_append free]
    rfl
  rcases ends with rfl | rfl | rfl
  · cases text with
    | nil => exact Or.inr ⟨rfl, rfl⟩
    | cons char text =>
        left
        have single := lines_joined (List.forall_mem_singleton.mpr free)
          (List.forall_mem_singleton.mpr (List.cons_ne_nil char text))
        rw [joined_singleton] at single
        rw [show universalNewlines [] = [] from rfl, List.append_nil, single]
  · exact Or.inl terminated
  · exact Or.inl terminated

/-- The harness reads a plain row that fits into one buffer. -/
theorem fgetsLines_plain {ending : List Char}
    (ends : ending = [] ∨ ending = ['\n'] ∨ ending = ['\r', '\n'])
    (fits : (text ++ ending).length < 512) :
    fgetsLines 512 (text ++ ending) = [text ++ ending] ∨
      text ++ ending = [] ∧ fgetsLines 512 (text ++ ending) = [] := by
  have free := newline_not_mem_plain plain
  have terminated {line : List Char} (free : '\n' ∉ line)
      (fits : line.length + 1 < 512) :
      fgetsLines 512 (line ++ ['\n']) = [line ++ ['\n']] := by
    have single := @fgetsLines_flatMap 512 [line]
      (List.forall_mem_singleton.mpr free)
      (List.forall_mem_singleton.mpr fits)
    simpa using single
  rcases ends with rfl | rfl | rfl
  · cases text with
    | nil => exact Or.inr ⟨rfl, rfl⟩
    | cons char text =>
        left
        rw [List.append_nil] at fits ⊢
        exact chunks_last free (List.cons_ne_nil _ _) (by omega)
  · left
    rw [List.length_append, List.length_singleton] at fits
    exact terminated free fits
  · left
    have whole : text ++ ['\r', '\n'] = (text ++ ['\r']) ++ ['\n'] := by simp
    rw [whole] at fits ⊢
    rw [List.length_append, List.length_singleton] at fits
    refine terminated ?_ fits
    rw [List.mem_append, not_or]
    exact ⟨free, by decide⟩

/-- Both readers see the words of the text alone. -/
theorem words_plain {ending : List Char}
    (ends : ending = [] ∨ ending = ['\n'] ∨ ending = ['\r', '\n']) :
    words isSpace (text ++ ending) = split text := by
  have same : words isSpace text = split text :=
    words_congr fun char member => (plain char member).space
  have newline : words isSpace ['\n'] = [] := by decide
  rcases ends with rfl | rfl | rfl
  · rw [List.append_nil, same]
  · rw [words_append (by decide : isSpace '\n' = true), same]
    exact List.append_nil _
  · rw [words_append (by decide : isSpace '\r' = true), same, newline,
      List.append_nil]

end PlainText

/-! ## Plain rows are read alike -/

theorem published_name {scenario : Scenario} (known : Published scenario) :
    scenario.name.all tagChar = true ∧ scenario.name.length ≤ 11 := by
  rcases List.mem_map.mp known with ⟨text, listed, named⟩
  rw [← named]
  simp only [scenarios, List.mem_cons, List.not_mem_nil, or_false] at listed
  rcases listed with rfl | rfl | rfl | rfl | rfl <;> decide

section Alike

variable {python : Interpreter} {scenario : Scenario}

/-- The parts of the harness's tag. -/
def wantMatch (scenario : Scenario) (seed : UInt64) : TagMatch where
  scenario := scenario.name
  seed := decimal seed.toNat
  count := decimal publishedCount

theorem text_wantMatch (scenario : Scenario) (seed : UInt64) :
    (wantMatch scenario seed).text =
      wantTag scenario seed (UInt64.ofNat publishedCount) :=
  rfl

/-- The validator takes the harness's tag apart. -/
theorem matchTag_wantTag (known : Published scenario) (seed : UInt64) :
    python.matchTag (wantTag scenario seed (UInt64.ofNat publishedCount)) =
      some (wantMatch scenario seed) := by
  have digits (value : Nat) : decimal value ≠ [] ∧
      ∀ char ∈ decimal value, python.isDecimal char = true :=
    ⟨decimal_ne_nil value, fun char member =>
      isDecimal_of_isDigit python (isDigit_of_mem_decimal member)⟩
  rw [← text_wantMatch]
  exact matchTag_text
    ⟨⟨scenario.accepted.1, List.all_eq_true.mp (published_name known).1⟩,
      digits seed.toNat, digits publishedCount⟩

theorem length_seed_le (seed : UInt64) :
    (decimal seed.toNat).length ≤ 20 :=
  length_decimal_le (by decide)
    (Nat.lt_of_lt_of_le seed.toNat_lt (by decide))

/-- The harness's tag is shorter than the buffer of `%255s`. -/
theorem wantTag_short (known : Published scenario) (seed : UInt64) :
    (wantTag scenario seed (UInt64.ofNat publishedCount)).length < 255 := by
  have name := (published_name known).2
  have number := length_seed_le seed
  have count : (decimal publishedCount).length = 7 := by decide
  rw [← text_wantMatch]
  simp only [TagMatch.text, wantMatch, List.length_append, count]
  have literals : "_seed".toList.length = 5 ∧
      "_count".toList.length = 6 ∧ "_reports.txt".toList.length = 12 := by
    decide
  omega

/-- A tag cut to the buffer is the harness's tag only when nothing is cut. -/
theorem take_eq_wantTag (known : Published scenario) (seed : UInt64)
    (tag : List Char) :
    wantTag scenario seed (UInt64.ofNat publishedCount) = tag.take 255 ↔
      wantTag scenario seed (UInt64.ofNat publishedCount) = tag := by
  have short := wantTag_short known seed
  by_cases fits : tag.length ≤ 255
  · rw [List.take_of_length_le fits]
  · constructor
    · intro same
      rw [same, List.length_take] at short
      omega
    · intro same
      rw [same] at short
      omega

end Alike

section Lines

variable {python : Interpreter} {scenario : Scenario}

/-- Digits of a line that fits are within the limit of `int`. -/
theorem exists_int (python : Interpreter) {digits : List Char}
    (short : digits.length ≤ 640) :
    ∃ value, python.int digits = some value := by
  have within : ¬ (python.maxStrDigits ≠ 0 ∧
      python.maxStrDigits < digits.length) := by
    have limit := python.limit
    omega
  rw [Interpreter.int, if_neg within]
  exact ⟨_, rfl⟩

/-- What the validator takes from a line of two words. -/
theorem readLine_two {line hash tag : List Char}
    (shown : split line = [hash, tag]) (valid : isHash hash = true)
    {found : TagMatch} (matched : python.matchTag tag = some found)
    {number count : Nat} (numbers : python.int found.seed = some number)
    (counts : python.int found.count = some count) :
    python.readLine line =
      if count = publishedCount then .entry number found.scenario hash
      else .skipped := by
  simp only [Interpreter.readLine, shown, if_pos valid, matched, numbers,
    counts]

/-- The validator takes what the harness takes from the cell's own tag. -/
theorem finds_wantTag (known : Published scenario) (seed : UInt64)
    {line hash : List Char} (valid : isHash hash = true)
    (shown : split line =
      [hash, wantTag scenario seed (UInt64.ofNat publishedCount)]) :
    python.finds (seed.toNat, scenario.name) line = some hash := by
  have number : python.int (wantMatch scenario seed).seed =
      some seed.toNat :=
    int_decimal python (Nat.le_trans (length_seed_le seed) (by decide))
  have count : python.int (wantMatch scenario seed).count =
      some publishedCount :=
    @int_decimal python publishedCount (by decide)
  have read := readLine_two shown valid (matchTag_wantTag known seed)
    number count
  rw [Interpreter.finds, read, if_pos rfl]
  exact if_pos rfl

/-- The parts of a tag in a line are no longer than the line. -/
theorem length_parts {line hash tag : List Char}
    (shown : split line = [hash, tag]) {found : TagMatch}
    (matched : python.matchTag tag = some found) :
    found.seed.length ≤ line.length ∧ found.count.length ≤ line.length := by
  have word : tag.length ≤ line.length := by
    refine (of_mem_words (show tag ∈ split line from ?_)).2
    rw [shown]
    exact List.mem_cons_of_mem _ List.mem_cons_self
  have whole : found.text.length ≤ tag.length := by
    rcases eq_of_matchTag matched with whole | ended
    · rw [whole]
    · rw [ended, List.length_append]
      exact Nat.le_add_right _ _
  simp only [TagMatch.text, List.length_append] at whole
  omega

/-- `int` does not fail on a line that fits. -/
theorem readLine_ne_valueError {line : List Char}
    (short : line.length ≤ 640) : python.readLine line ≠ .valueError := by
  rw [Interpreter.readLine]
  split
  · rename_i hash tag shown
    split
    · cases matched : python.matchTag tag with
      | none => exact Reading.noConfusion
      | some found =>
          have parts := length_parts shown matched
          rcases @exists_int python found.count (by omega) with
            ⟨count, counts⟩
          rcases @exists_int python found.seed (by omega) with
            ⟨number, numbers⟩
          simp only [counts, numbers]
          split <;> exact Reading.noConfusion
    · exact Reading.noConfusion
  · exact Reading.noConfusion

/-- The padded lines of two words. -/
theorem padded_iff {seed : UInt64} {line hash tag : List Char}
    (shown : split line = [hash, tag]) :
    Padded python scenario seed line ↔
      isHash hash = true ∧
        tag ≠ wantTag scenario seed (UInt64.ofNat publishedCount) ∧
        ∃ found, python.matchTag tag = some found ∧
          found.scenario = scenario.name ∧
          python.int found.seed = some seed.toNat ∧
          python.int found.count = some publishedCount := by
  constructor
  · rintro ⟨_, _, found, valid, again, other, rest⟩
    rw [shown] at again
    cases again
    exact ⟨valid, other, found, rest⟩
  · rintro ⟨valid, other, found, rest⟩
    exact ⟨hash, tag, found, valid, shown, other, rest⟩

/-- The trailing lines of two words or more. -/
theorem trailing_iff {seed : UInt64} {line hash tag : List Char}
    {others : List (List Char)} (shown : split line = hash :: tag :: others) :
    Trailing scenario seed line ↔
      isHash hash = true ∧ others ≠ [] ∧
        wantTag scenario seed (UInt64.ofNat publishedCount) = tag := by
  constructor
  · rintro ⟨_, _, valid, more, again⟩
    rw [shown] at again
    cases again
    exact ⟨valid, more, rfl⟩
  · rintro ⟨valid, more, rfl⟩
    exact ⟨hash, others, valid, more, shown⟩

/-- From another tag the validator takes something only when it is padded. -/
theorem finds_otherTag {seed : UInt64}
    {line hash tag : List Char} (valid : isHash hash = true)
    (shown : split line = [hash, tag])
    (other : tag ≠ wantTag scenario seed (UInt64.ofNat publishedCount))
    (short : line.length ≤ 640) :
    python.finds (seed.toNat, scenario.name) line = none ↔
      ¬Padded python scenario seed line := by
  rw [padded_iff shown, and_iff_right valid, and_iff_right other]
  cases matched : python.matchTag tag with
  | none =>
      have read : python.readLine line = .skipped := by
        simp only [Interpreter.readLine, shown, if_pos valid, matched]
      rw [Interpreter.finds, read]
      refine iff_of_true rfl ?_
      rintro ⟨found, taken, _⟩
      cases taken
  | some found =>
      have parts := @length_parts python line hash tag shown found matched
      rcases @exists_int python found.count (by omega) with ⟨count, counts⟩
      rcases @exists_int python found.seed (by omega) with
        ⟨number, numbers⟩
      have spelled : (∃ other, some found = some other ∧
          other.scenario = scenario.name ∧
          python.int other.seed = some seed.toNat ∧
          python.int other.count = some publishedCount) ↔
            count = publishedCount ∧
              (seed.toNat, scenario.name) = (number, found.scenario) := by
        constructor
        · rintro ⟨_, ⟨⟩, named, same, published⟩
          rw [numbers] at same
          rw [counts] at published
          exact ⟨Option.some.inj published,
            by rw [Option.some.inj same, named]⟩
        · rintro ⟨published, own⟩
          rcases Prod.mk.inj own with ⟨same, named⟩
          exact ⟨found, rfl, named.symm, by rw [numbers, same],
            by rw [counts, published]⟩
      rw [spelled, Interpreter.finds,
        readLine_two shown valid matched numbers counts]
      by_cases published : count = publishedCount
      · rw [if_pos published, and_iff_right published]
        dsimp only
        by_cases own : (seed.toNat, scenario.name) = (number, found.scenario)
        · rw [if_pos own]
          exact iff_of_false (by simp) (fun different => different own)
        · rw [if_neg own]
          exact iff_of_true rfl own
      · rw [if_neg published]
        exact iff_of_true rfl fun both => published both.1

/-- A line of two words is read alike unless it is padded. -/
theorem two_words (known : Published scenario) (seed : UInt64)
    {line hash tag : List Char} (shown : split line = [hash, tag])
    (short : line.length ≤ 640) :
    (if isHash hash then
        if wantTag scenario seed (UInt64.ofNat publishedCount) = tag
        then some hash else none
      else none) = python.finds (seed.toNat, scenario.name) line ↔
      ¬Trailing scenario seed line ∧ ¬Padded python scenario seed line := by
  have ends : ¬Trailing scenario seed line := by
    rw [trailing_iff shown]
    exact fun trails => trails.2.1 rfl
  rw [and_iff_right ends]
  by_cases valid : isHash hash = true
  · rw [if_pos valid]
    by_cases own : wantTag scenario seed (UInt64.ofNat publishedCount) = tag
    · rw [if_pos own, padded_iff shown]
      refine iff_of_true ?_ fun padded => padded.2.1 own.symm
      rw [← own] at shown
      exact (finds_wantTag known seed valid shown).symm
    · rw [if_neg own, eq_comm]
      exact finds_otherTag valid shown (Ne.symm own) short
  · have read : python.readLine line = .skipped := by
      simp only [Interpreter.readLine, shown, if_neg valid]
    rw [if_neg valid, Interpreter.finds, read, padded_iff shown]
    exact iff_of_true rfl fun padded => valid padded.1

/-- A line of more words is read alike unless they stand behind the entry. -/
theorem more_words {seed : UInt64} {line hash tag more : List Char}
    {others : List (List Char)}
    (shown : split line = hash :: tag :: more :: others) :
    (if isHash hash then
        if wantTag scenario seed (UInt64.ofNat publishedCount) = tag
        then some hash else none
      else none) = none ↔ ¬Trailing scenario seed line := by
  rw [trailing_iff shown, and_iff_right (List.cons_ne_nil more others)]
  by_cases valid : isHash hash = true
  · rw [if_pos valid, and_iff_right valid]
    by_cases own : wantTag scenario seed (UInt64.ofNat publishedCount) = tag
    · rw [if_pos own]
      exact iff_of_false (by simp) (fun different => different own)
    · rw [if_neg own]
      exact iff_of_true rfl own
  · rw [if_neg valid]
    exact iff_of_true rfl fun both => valid both.1

/-- Text that is not two words is no entry for the validator. -/
theorem readLine_skipped {line : List Char}
    (shown : ∀ hash tag, split line ≠ [hash, tag]) :
    python.readLine line = .skipped := by
  rw [Interpreter.readLine]
  split
  · rename_i hash tag two
    exact absurd two (shown hash tag)
  · rfl

end Lines

/-! ## Plain files -/

section PlainRow

variable {python : Interpreter} {text ending : List UInt8}

/-- What a plain row is to both readers, as characters. -/
theorem Plain.chars (plain : Plain text ending) :
    (∀ char ∈ text.map byteChar, PlainChar char) ∧
      (ending.map byteChar = [] ∨ ending.map byteChar = ['\n'] ∨
        ending.map byteChar = ['\r', '\n']) := by
  constructor
  · intro char member
    rcases List.mem_map.mp member with ⟨byte, inText, rfl⟩
    exact plainChar_byteChar (plain.printable byte inText)
  · rcases plain.ends with rfl | rfl | rfl
    · exact Or.inl rfl
    · exact Or.inr (Or.inl rfl)
    · exact Or.inr (Or.inr rfl)

/-- The validator decodes a plain row as the harness reads it. -/
theorem Plain.decode (plain : Plain text ending) :
    python.decode (text ++ ending) =
      text.map byteChar ++ ending.map byteChar := by
  rw [python.decode_ascii, List.map_append]
  intro byte member
  rcases List.mem_append.mp member with inText | inEnding
  · have printable := plain.printable byte inText
    rw [plainByte, Bool.or_eq_true, Bool.and_eq_true] at printable
    rcases printable with tab | ⟨_, high⟩
    · rw [of_decide_eq_true tab]
      decide
    · have most : byte.toNat < 127 := of_decide_eq_true high
      exact UInt8.lt_iff_toNat_lt.mpr (Nat.lt_trans most (by decide))
  · rcases plain.ends with rfl | rfl | rfl
    · cases inEnding
    · rw [List.mem_singleton.mp inEnding]
      decide
    · rcases List.mem_pair.mp inEnding with rfl | rfl
      · decide
      · decide

theorem noZero_plain (plain : Plain text ending) :
    Char.ofNat 0 ∉ text.map byteChar ++ ending.map byteChar := by
  rw [List.mem_append, not_or]
  constructor
  · exact fun member => (plain.chars.1 _ member).zero rfl
  · rcases plain.chars.2 with nothing | newline | both
    · rw [nothing]
      exact List.not_mem_nil
    · rw [newline]
      decide
    · rw [both]
      decide

/-- The only line of a plain row. -/
theorem Plain.fileLines (plain : Plain text ending) :
    (∀ line ∈ fileLines (python.decode (text ++ ending)),
        line = text.map byteChar) ∧
      ∀ cell, (fileLines (python.decode (text ++ ending))).findSome?
        (python.finds cell) = python.finds cell (text.map byteChar) := by
  have nothing (cell : Nat × List Char) : python.finds cell [] = none := by
    have read : python.readLine [] = .skipped :=
      readLine_skipped fun _ _ two => by cases two
    rw [Interpreter.finds, read]
  rw [plain.decode]
  rcases fileLines_plain plain.chars.1 plain.chars.2 with
    one | ⟨blank, none_⟩
  · rw [one]
    exact ⟨fun line member => List.mem_singleton.mp member, fun cell => by
      rw [List.findSome?_singleton]⟩
  · rw [none_, blank]
    exact ⟨fun line member => absurd member List.not_mem_nil, fun cell =>
      (nothing cell).symm⟩

/-- The only buffer of a plain row. -/
theorem Plain.fgetsLines (plain : Plain text ending)
    (tag : List Char) :
    (fgetsLines 512 ((text ++ ending).map byteChar)).findSome? (finds tag) =
      finds tag (text.map byteChar ++ ending.map byteChar) := by
  have fits : (text.map byteChar ++ ending.map byteChar).length < 512 := by
    rw [← List.map_append, List.length_map]
    exact plain.fits
  rw [List.map_append]
  rcases fgetsLines_plain plain.chars.1 plain.chars.2 fits with
    one | ⟨blank, none_⟩
  · rw [one, List.findSome?_singleton]
  · rw [none_, blank]
    rfl

/-- What the harness takes from a plain row. -/
theorem Plain.finds_eq (plain : Plain text ending)
    (tag : List Char) :
    finds tag (text.map byteChar ++ ending.map byteChar) =
      match split (text.map byteChar) with
      | hash :: other :: _ =>
          if isHash hash then
            if tag = other.take 255 then some hash else none
          else none
      | _ => none := by
  rw [finds, readEntry_words, cString_of_not_mem (noZero_plain plain),
    words_plain plain.chars.1 plain.chars.2]
  split
  · rename_i other hash read
    split at read
    · split at read
      · rename_i valid
        cases read
        rw [if_pos valid]
      · cases read
    · cases read
  · rename_i missing
    split
    · rename_i hash other _ shown
      rw [shown] at missing
      dsimp only at missing
      split at missing
      · cases missing
      · rename_i invalid
        rw [if_neg invalid]
    · rfl

theorem Plain.short (plain : Plain text ending) :
    (text.map byteChar).length ≤ 640 := by
  have fits := plain.fits
  rw [List.length_append] at fits
  rw [List.length_map]
  omega

/--
Both readers take the same from a plain row, unless more words stand behind
the cell's entry or the cell's numbers are padded.
-/
theorem Plain.alike_iff (plain : Plain text ending) {scenario : Scenario}
    (known : Published scenario) (seed : UInt64) :
    harnessRow scenario seed (text ++ ending) =
        validatorRow python scenario seed (text ++ ending) ↔
      ¬Trailing scenario seed (text.map byteChar) ∧
        ¬Padded python scenario seed (text.map byteChar) := by
  have short := plain.short
  rw [harnessRow, plain.fgetsLines, plain.finds_eq, validatorRow,
    plain.fileLines.2]
  generalize text.map byteChar = line at short
  have skipped (odd : ∀ hash tag, split line ≠ [hash, tag]) :
      python.finds (seed.toNat, scenario.name) line = none ∧
        ¬Padded python scenario seed line := by
    constructor
    · rw [Interpreter.finds, readLine_skipped odd]
    · rintro ⟨hash, tag, _, _, two, _⟩
      exact odd hash tag two
  cases shown : split line with
  | nil =>
      have odd := skipped fun _ _ two => by rw [shown] at two; cases two
      refine iff_of_true odd.1.symm ⟨?_, odd.2⟩
      rintro ⟨_, _, _, _, again⟩
      rw [shown] at again
      cases again
  | cons hash later =>
      cases later with
      | nil =>
          have odd := skipped fun _ _ two => by rw [shown] at two; cases two
          refine iff_of_true odd.1.symm ⟨?_, odd.2⟩
          rintro ⟨_, _, _, _, again⟩
          rw [shown] at again
          cases again
      | cons tag others =>
          dsimp only
          rw [if_congr (take_eq_wantTag known seed tag) rfl rfl]
          cases others with
          | nil => exact two_words known seed shown short
          | cons more others =>
              have odd := skipped fun _ _ two => by
                rw [shown] at two
                cases two
              rw [odd.1]
              exact (more_words shown).trans
                (and_iff_left odd.2).symm

theorem Plain.not_raises (python : Interpreter)
    (plain : Plain text ending) : ¬Raises python (text ++ ending) := by
  rintro ⟨line, member, fails⟩
  rw [plain.fileLines.1 line member] at fails
  exact readLine_ne_valueError plain.short fails

end PlainRow

/-! ## What the readers take stands in the text -/

section Shown

variable {python : Interpreter} {scenario : Scenario}

/-- The harness takes the hash that stands before the cell's own tag. -/
theorem finds_eq_some_iff (known : Published scenario) (seed : UInt64)
    (buffer hash : List Char) :
    finds (wantTag scenario seed (UInt64.ofNat publishedCount)) buffer =
        some hash ↔ Literal scenario seed hash buffer := by
  rw [finds, readEntry_words, Literal]
  cases shown : words isSpace (cString buffer) with
  | nil => simp
  | cons first later =>
      cases later with
      | nil => simp
      | cons tag others =>
          dsimp only
          by_cases valid : isHash first = true
          · rw [if_pos valid]
            dsimp only
            rw [if_congr (take_eq_wantTag known seed tag) rfl rfl,
              Option.ite_none_right_eq_some]
            constructor
            · rintro ⟨own, same⟩
              cases same
              exact ⟨valid, others, by rw [own]⟩
            · rintro ⟨_, _, same⟩
              cases same
              exact ⟨rfl, rfl⟩
          · rw [if_neg valid]
            refine iff_of_false (Option.some_ne_none hash).symm ?_
            rintro ⟨isHash, _, same⟩
            cases same
            exact valid isHash

/-- A word of a line holds no newline. -/
theorem newline_not_mem_word {line word : List Char}
    (member : word ∈ split line) : '\n' ∉ word :=
  fun inside => absurd ((of_mem_words member).1 _ inside) (by decide)

/-- What the validator makes of a line. -/
theorem readLine_cases (python : Interpreter) (line : List Char) :
    python.readLine line = .skipped ∨
      ∃ (hash : List Char) (found : TagMatch), isHash hash = true ∧
        found.Formed python ∧ split line = [hash, found.text] ∧
        (python.readLine line = .valueError ∧
            (python.int found.count = none ∨
              python.int found.count = some publishedCount ∧
                python.int found.seed = none) ∨
          ∃ number,
            python.readLine line = .entry number found.scenario hash ∧
              python.int found.seed = some number ∧
              python.int found.count = some publishedCount) := by
  by_cases two : ∃ hash tag, split line = [hash, tag]
  · rcases two with ⟨hash, tag, shown⟩
    by_cases valid : isHash hash = true
    · cases matched : python.matchTag tag with
      | none =>
          left
          simp only [Interpreter.readLine, shown, if_pos valid, matched]
      | some found =>
          have last : tag ∈ split line := by
            rw [shown]
            exact List.mem_cons_of_mem hash (List.mem_singleton_self tag)
          have free := newline_not_mem_word last
          rcases (matchTag_iff free found).mp matched with ⟨rfl, formed⟩
          cases counts : python.int found.count with
          | none =>
              refine Or.inr ⟨hash, found, valid, formed, shown, Or.inl
                ⟨?_, Or.inl counts⟩⟩
              simp only [Interpreter.readLine, shown, if_pos valid, matched,
                counts]
          | some count =>
              by_cases published : count = publishedCount
              · rw [published] at counts
                right
                refine ⟨hash, found, valid, formed, shown, ?_⟩
                cases numbers : python.int found.seed with
                | none =>
                    refine Or.inl ⟨?_, Or.inr ⟨counts, rfl⟩⟩
                    simp only [Interpreter.readLine, shown, if_pos valid,
                      matched, counts, if_true, numbers]
                | some number =>
                    refine Or.inr ⟨number, ?_, rfl, counts⟩
                    rw [readLine_two shown valid matched numbers counts,
                      if_pos rfl]
              · left
                simp only [Interpreter.readLine, shown, if_pos valid,
                  matched, counts, if_neg published]
    · left
      simp only [Interpreter.readLine, shown, if_neg valid]
  · exact Or.inl (readLine_skipped fun hash tag shown =>
      two ⟨hash, tag, shown⟩)

/-- `int` fails on the overlong lines. -/
theorem readLine_eq_valueError_iff (line : List Char) :
    python.readLine line = .valueError ↔ Overlong python line := by
  constructor
  · intro fails
    rcases readLine_cases python line with
      skipped | ⟨hash, found, valid, formed, shown, ⟨_, long⟩ | ⟨_, read, _⟩⟩
    · rw [skipped] at fails
      cases fails
    · exact ⟨hash, found, valid, formed, shown, long⟩
    · rw [read] at fails
      cases fails
  · rintro ⟨hash, found, valid, formed, shown, counts | ⟨counts, numbers⟩⟩
    · simp only [Interpreter.readLine, shown, if_pos valid,
        matchTag_text formed, counts]
    · simp only [Interpreter.readLine, shown, if_pos valid,
        matchTag_text formed, counts, if_true, numbers]

/-- The validator takes the hash that stands before a tag of the cell. -/
theorem python_finds_eq_some_iff (known : Published scenario)
    (seed : UInt64) (line hash : List Char) :
    python.finds (seed.toNat, scenario.name) line = some hash ↔
      Spelled python scenario seed hash line := by
  constructor
  · intro taken
    rw [Interpreter.finds] at taken
    rcases readLine_cases python line with
      skipped | ⟨first, found, valid, formed, shown, ⟨fails, _⟩ |
        ⟨number, read, numbers, counts⟩⟩
    · rw [skipped] at taken
      cases taken
    · rw [fails] at taken
      cases taken
    · rw [read] at taken
      dsimp only at taken
      rw [Option.ite_none_right_eq_some] at taken
      rcases taken with ⟨own, same⟩
      cases same
      rcases Prod.mk.inj own with ⟨rfl, named⟩
      refine ⟨valid, found.seed, found.count, ?_,
        ⟨formed.seed.1, formed.seed.2, numbers⟩,
        ⟨formed.count.1, formed.count.2, counts⟩⟩
      rw [named]
      exact shown
  · rintro ⟨valid, number, count, shown, spelled, published⟩
    have formed : TagMatch.Formed python ⟨scenario.name, number, count⟩ :=
      ⟨⟨scenario.accepted.1, List.all_eq_true.mp (published_name known).1⟩,
        ⟨spelled.1, spelled.2.1⟩, ⟨published.1, published.2.1⟩⟩
    have read := readLine_two shown valid (matchTag_text formed)
      spelled.2.2 published.2.2
    rw [Interpreter.finds, read, if_pos rfl]
    exact if_pos rfl

theorem harnessRow_eq_some_iff (known : Published scenario) (seed : UInt64)
    (row : List UInt8) (hash : List Char) :
    harnessRow scenario seed row = some hash ↔
      LiteralRow scenario seed hash row :=
  findSome?_eq_some_iff_first (finds_eq_some_iff known seed) _ _

theorem validatorRow_eq_some_iff (known : Published scenario)
    (seed : UInt64) (row : List UInt8) (hash : List Char) :
    validatorRow python scenario seed row = some hash ↔
      SpelledRow python scenario seed hash row :=
  findSome?_eq_some_iff_first (python_finds_eq_some_iff known seed) _ _

theorem raises_iff (row : List UInt8) :
    Raises python row ↔ OverlongRow python row := by
  simp only [Raises, OverlongRow, readLine_eq_valueError_iff]

end Shown

/-! ## Agreement -/

/-- A file of plain rows without either oddity is read alike. -/
theorem agree_of_plain
    {python : Interpreter} {content : List UInt8} {scenario : Scenario}
    {seed : UInt64} (known : Published scenario)
    (plain : ∀ row ∈ rows 10 content, ∃ text ending,
      row = text ++ ending ∧ Plain text ending ∧
        ¬Trailing scenario seed (text.map byteChar) ∧
        ¬Padded python scenario seed (text.map byteChar)) :
    expectedHash content scenario seed =
      publishedHash python content scenario seed := by
  have survives : ∀ row ∈ rows 10 content, ¬Raises python row := by
    intro row member
    rcases plain row member with ⟨text, ending, rfl, plain, _⟩
    exact plain.not_raises python
  have alike : ∀ row ∈ rows 10 content,
      harnessRow scenario seed row =
        validatorRow python scenario seed row := by
    intro row member
    rcases plain row member with ⟨text, ending, rfl, plain, ordinary⟩
    exact (plain.alike_iff known seed).mpr ordinary
  rw [expectedHash_eq, publishedHash_eq python content scenario seed survives]
  generalize rows 10 content = found at alike
  induction found with
  | nil => rfl
  | cons row later induction =>
      rw [List.forall_mem_cons] at alike
      rw [List.findSome?_cons, List.findSome?_cons, alike.1,
        induction alike.2]

section Agreement

variable (python : Interpreter) (content : List UInt8) {scenario : Scenario}

/-- The readers agree on a cell when, and only when, the text parts neither. -/
theorem agree_iff (known : Published scenario) (seed : UInt64) :
    expectedHash content scenario seed =
        publishedHash python content scenario seed ↔
      Unambiguous python content scenario seed := by
  have isLeft := harnessRow_eq_some_iff known seed
  have isRight := @validatorRow_eq_some_iff python scenario known seed
  by_cases raises : ∃ row ∈ rows 10 content, OverlongRow python row
  · have survives : ¬∀ row ∈ rows 10 content, ¬OverlongRow python row := by
      rcases raises with ⟨row, member, fails⟩
      exact fun all => all row member fails
    have fails : ∃ row ∈ rows 10 content, Raises python row := by
      simpa only [raises_iff] using raises
    rw [publishedHash_raises python content scenario seed fails,
      expectedHash_eq, List.findSome?_eq_none_iff, Unambiguous]
    simp only [raises, survives, true_and, false_and, or_false, ← isLeft,
      Option.eq_none_iff_forall_ne_some, ne_eq]
  · have survives : ∀ row ∈ rows 10 content, ¬OverlongRow python row :=
      fun row member fails => raises ⟨row, member, fails⟩
    have reads : ∀ row ∈ rows 10 content, ¬Raises python row := by
      simpa only [raises_iff] using survives
    rw [publishedHash_eq python content scenario seed reads, expectedHash_eq,
      findSome?_eq_iff isLeft isRight, Unambiguous]
    constructor
    · exact fun same => Or.inr ⟨survives, same⟩
    · rintro (⟨fails, _⟩ | ⟨_, same⟩)
      · exact absurd fails raises
      · exact same

/-- A plain row shows the same both ways unless it trails or is padded. -/
theorem Plain.shown_iff {text ending : List UInt8}
    (plain : Plain text ending) (known : Published scenario)
    (seed : UInt64) :
    (∀ hash, LiteralRow scenario seed hash (text ++ ending) ↔
        SpelledRow python scenario seed hash (text ++ ending)) ↔
      ¬Trailing scenario seed (text.map byteChar) ∧
        ¬Padded python scenario seed (text.map byteChar) := by
  rw [← plain.alike_iff known seed]
  simp only [← harnessRow_eq_some_iff known seed,
    ← @validatorRow_eq_some_iff python scenario known seed]
  exact Option.ext_iff.symm

/--
The readers agree on a cell when, and only when, nothing stands in the file
before the first row that shows the cell's hash both as the harness prints its
tag and by the numbers in it, or what stands there happens to come to the same
hash.  Of plain rows, those with words behind the entry and those with padded
numbers alone do not show the same both ways; a file of other plain rows is
read alike.
-/
theorem readers_agree_iff (known : Published scenario) (seed : UInt64) :
    (expectedHash content scenario seed =
        publishedHash python content scenario seed ↔
      Unambiguous python content scenario seed) ∧
    (∀ text ending, Plain text ending →
      ¬OverlongRow python (text ++ ending) ∧
        ((∀ hash, LiteralRow scenario seed hash (text ++ ending) ↔
            SpelledRow python scenario seed hash (text ++ ending)) ↔
          ¬Trailing scenario seed (text.map byteChar) ∧
            ¬Padded python scenario seed (text.map byteChar))) ∧
    ((∀ row ∈ rows 10 content, ∃ text ending,
        row = text ++ ending ∧ Plain text ending ∧
          ¬Trailing scenario seed (text.map byteChar) ∧
          ¬Padded python scenario seed (text.map byteChar)) →
      expectedHash content scenario seed =
        publishedHash python content scenario seed) := by
  refine ⟨agree_iff python content known seed, fun text ending plain => ?_,
    agree_of_plain known⟩
  rw [← raises_iff]
  exact ⟨plain.not_raises python, plain.shown_iff python known seed⟩

end Agreement

/-- A locale whose characters are the bytes, and the usual limit of `int`. -/
def latin1 : Interpreter where
  decode := List.map byteChar
  decode_ascii _ _ := rfl
  decode_newline line rest := map_byteChar_newline line rest
  digit char := if char.isDigit then some (char.toNat - 48) else none
  digit_ascii _ _ := rfl
  maxStrDigits := 4300
  limit := Or.inr (by decide)

def normal : Scenario where
  name := "normal".toList
  accepted := by decide

theorem published_normal : Published normal := by
  unfold Published
  decide

/-- A row with 64 times the same character for a hash. -/
def entryRow (char : Char) (tag : String) : List UInt8 :=
  (List.replicate 64 char ++ ("  " ++ tag ++ "\n").toList).map
    fun char => UInt8.ofNat char.toNat

/-- Two entries for seed 7, the first with its seed padded to three digits. -/
def paddedFile : List UInt8 :=
  entryRow 'a' "normal_seed007_count1000000_reports.txt" ++
    entryRow 'b' "normal_seed7_count1000000_reports.txt"

theorem expectedHash_padded :
    expectedHash paddedFile normal 7 = some (List.replicate 64 'b') := by
  decide +kernel

theorem publishedHash_padded :
    publishedHash latin1 paddedFile normal 7 =
      some (List.replicate 64 'a') := by
  decide +kernel

/-- The harness skips the padded entry and the validator takes it. -/
theorem padded_seed_read_twice :
    Published normal ∧
      expectedHash paddedFile normal 7 = some (List.replicate 64 'b') ∧
      publishedHash latin1 paddedFile normal 7 =
        some (List.replicate 64 'a') ∧
      expectedHash paddedFile normal 7 ≠
        publishedHash latin1 paddedFile normal 7 := by
  refine ⟨published_normal, expectedHash_padded, publishedHash_padded, ?_⟩
  rw [expectedHash_padded, publishedHash_padded]
  decide

/-- The padded entry behind the other one, and a third word behind a third. -/
def shadowedFile : List UInt8 :=
  entryRow 'b' "normal_seed7_count1000000_reports.txt" ++
    entryRow 'a' "normal_seed007_count1000000_reports.txt" ++
    entryRow 'c' "normal_seed7_count1000000_reports.txt again"

/-- Behind a proper entry the oddities do no harm; before it they do. -/
theorem readers_agree_iff_shadowed :
    (expectedHash shadowedFile normal 7 = some (List.replicate 64 'b') ∧
      Unambiguous latin1 shadowedFile normal 7) ∧
    ¬Unambiguous latin1 paddedFile normal 7 := by
  have expected : expectedHash shadowedFile normal 7 =
      some (List.replicate 64 'b') := by
    decide +kernel
  have published : publishedHash latin1 shadowedFile normal 7 =
      some (List.replicate 64 'b') := by
    decide +kernel
  have shadowed :=
    (readers_agree_iff latin1 shadowedFile published_normal 7).1
  have padded := (readers_agree_iff latin1 paddedFile published_normal 7).1
  refine ⟨⟨expected, shadowed.mp (by rw [expected, published])⟩, ?_⟩
  intro unambiguous
  have same := padded.mpr unambiguous
  rw [expectedHash_padded, publishedHash_padded] at same
  exact absurd same (by decide)

end MatchingBench.Scripts.HashReaders
