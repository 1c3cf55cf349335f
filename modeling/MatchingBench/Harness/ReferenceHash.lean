import MatchingBench.Lib.KeyedSort
import MatchingBench.Lib.Maps
import MatchingBench.Lib.Stdio

/-!
# The reference hash file

`reference/correctness_hash.txt` holds one `<sha256>  <tag>` line for each
scenario, seed and count.  A run with `--write-reference` reads the entries,
sets its own and writes the file anew; a later run reads the file and looks up
its tag.
-/

set_option autoImplicit false

namespace MatchingBench.Harness.ReferenceHash

open MatchingBench.Lib.DecimalText
open MatchingBench.Lib.KeyedSort
open MatchingBench.Lib.Maps
open MatchingBench.Lib.Stdio
open MatchingBench.Lib.TextScan (takeWhile_run)

/-! ## Tags and digests -/

/-- A character that a scenario name may have. -/
def scenarioChar (char : Char) : Bool :=
  char.isAlpha || char.isDigit || char = '_' || char = '-'

/-- A scenario name that the harness accepts. -/
structure Scenario where
  name : List Char
  accepted : name ≠ [] ∧ name.all scenarioChar = true

/-- A character of a hash in lower-case hexadecimal. -/
def hexChar (char : Char) : Bool :=
  "0123456789abcdef".toList.contains char

/-- Exactly 64 lower-case hexadecimal characters. -/
def isHash (hash : List Char) : Bool :=
  hash.length = 64 && hash.all hexChar

/-- A SHA-256 digest in hexadecimal. -/
structure Digest where
  hex : List Char
  isHash : isHash hex = true

/-- `want_tag`. -/
def wantTag (scenario : Scenario) (seed count : UInt64) : List Char :=
  scenario.name ++ "_seed".toList ++ decimal seed.toNat ++
    "_count".toList ++ decimal count.toNat ++ "_reports.txt".toList

/-! ## `read_hash_file` -/

/-- `std::map<std::string, std::string>`, from tags to hashes. -/
abbrev HashEntries : Type :=
  HashMap (List Char) (List Char)

/-- `emplace`: the first entry of a tag wins. -/
def HashEntries.emplace
    (entries : HashEntries) (tag hash : List Char) : HashEntries :=
  match entries.get tag with
  | some _ => entries
  | none => entries.set tag hash

/-- The tag and the hash of a line, when both are read and the hash is one. -/
def readEntry (line : List Char) : Option (List Char × List Char) := do
  let (hash, rest) ← scanWord 255 (cString line)
  let (tag, _) ← scanWord 255 (rest.dropWhile isSpace)
  if isHash hash then some (tag, hash) else none

/-- One iteration of the loop over the lines. -/
def readLine (entries : HashEntries) (line : List Char) : HashEntries :=
  match readEntry line with
  | some (tag, hash) => entries.emplace tag hash
  | none => entries

/-- `read_hash_file`, from the content when the file can be opened. -/
def readHashFile : Option (List Char) → HashEntries
  | none => ∅
  | some content => (fgetsLines 512 content).foldl readLine ∅

/-! ## `--write-reference` -/

/-- The map's order of tags. -/
def tagBefore (a b : Sigma fun _ : List Char => List Char) : Bool :=
  decide (a.1 < b.1)

/-- `fprintf(hfp, "%s  %s\n", hash, tag)`. -/
def entryLine (entry : Sigma fun _ : List Char => List Char) : List Char :=
  entry.2 ++ ' ' :: ' ' :: entry.1 ++ ['\n']

/-- What is written for a map, in the order of the tags. -/
def hashFileText (entries : HashEntries) : List Char :=
  (stableSort tagBefore entries.entries).flatMap entryLine

/-- What the file system answers for the temporary file. -/
structure TmpOutcome where
  opened : Bool
  flushed : Bool
  renamed : Bool

/-- The write succeeded. -/
def TmpOutcome.success : TmpOutcome where
  opened := true
  flushed := true
  renamed := true

/-- The merge and the rename: what the reference file holds afterwards. -/
def writeReference
    (previous : Option (List Char)) (tag computed : List Char)
    (tmp : TmpOutcome) : Option (List Char) :=
  let entries := (readHashFile previous).set tag computed
  if tmp.opened && tmp.flushed && tmp.renamed then
    some (hashFileText entries)
  else previous

/-! ## Words -/

/-- A nonempty word without spaces, of at most 255 characters. -/
structure Readable (word : List Char) : Prop where
  nonempty : word ≠ []
  solid : ∀ char ∈ word, isSpace char = false
  noZero : Char.ofNat 0 ∉ word
  short : word.length ≤ 255

theorem Readable.newline_free
    {word : List Char} (readable : Readable word) : '\n' ∉ word := by
  intro member
  exact absurd (readable.solid _ member) (by decide)

/-- A readable word in front of a space is read whole. -/
theorem scanWord_readable
    {word : List Char} (readable : Readable word) {rest : List Char}
    (ends : ∀ char ∈ rest.head?, isSpace char = true) :
    scanWord 255 (word ++ rest) = some (word, rest) := by
  have solid : ∀ char ∈ word, (!isSpace char) = true := by
    intro char member
    rw [readable.solid char member]
    rfl
  have front : (word ++ rest).dropWhile isSpace = word ++ rest := by
    cases word with
    | nil => exact absurd rfl readable.nonempty
    | cons char word =>
        apply List.dropWhile_cons_of_neg
        rw [readable.solid char List.mem_cons_self]
        exact Bool.false_ne_true
  have taken :
      ((word ++ rest).takeWhile fun char => !isSpace char).take 255 =
        word := by
    rw [takeWhile_run solid, List.take_of_length_le readable.short]
    intro char member
    rw [ends char member]
    rfl
  simp only [scanWord, front, taken, readable.nonempty, if_false,
    List.drop_left]

/-- What is read as a word is readable. -/
theorem readable_of_scanWord
    {text word rest : List Char} (noZero : Char.ofNat 0 ∉ text)
    (read : scanWord 255 text = some (word, rest)) :
    Readable word ∧ Char.ofNat 0 ∉ rest := by
  rw [scanWord] at read
  split at read
  · exact absurd read (by simp)
  · rename_i nonempty
    obtain ⟨rfl, rfl⟩ := Prod.mk.inj (Option.some.inj read)
    constructor
    · constructor
      · exact nonempty
      · intro char member
        have kept := List.mem_takeWhile_imp (List.mem_of_mem_take member)
        simpa using kept
      · intro member
        apply noZero
        apply (List.dropWhile_sublist isSpace).subset
        exact (List.takeWhile_sublist _).subset (List.mem_of_mem_take member)
      · rw [List.length_take]
        exact Nat.min_le_left 255 _
    · intro member
      apply noZero
      apply (List.dropWhile_sublist isSpace).subset
      exact List.mem_of_mem_drop member

/-- A hash is a readable word. -/
theorem readable_of_isHash {hash : List Char} (valid : isHash hash = true) :
    Readable hash := by
  rw [isHash, Bool.and_eq_true, decide_eq_true_eq, List.all_eq_true] at valid
  have hex {char : Char} (member : char ∈ hash) :
      char ∈ "0123456789abcdef".toList := by
    have listed := valid.2 char member
    rwa [hexChar, List.contains_iff_mem] at listed
  constructor
  · rintro rfl
    exact absurd valid.1 (by decide)
  · intro char member
    have none_ : ("0123456789abcdef".toList.any isSpace) = false := by
      decide
    exact eq_false_of_ne_true (List.any_eq_false.mp none_ char (hex member))
  · intro member
    exact absurd (hex member) (by decide)
  · rw [valid.1]
    decide

/-! ## Entries read from a file -/

/-- Every entry of the map is one that a line can show. -/
def HashEntries.Readable (entries : HashEntries) : Prop :=
  ∀ tag hash, entries.get tag = some hash →
    ReferenceHash.Readable tag ∧ isHash hash = true

theorem cString_noZero (buffer : List Char) :
    Char.ofNat 0 ∉ cString buffer := by
  intro member
  exact absurd (List.mem_takeWhile_imp member) (by decide)

theorem readEntry_readable
    {line tag hash : List Char} (read : readEntry line = some (tag, hash)) :
    Readable tag ∧ isHash hash = true := by
  rw [readEntry] at read
  obtain ⟨⟨first, rest⟩, readFirst, read⟩ := Option.bind_eq_some_iff.mp read
  obtain ⟨⟨second, more⟩, readSecond, read⟩ :=
    Option.bind_eq_some_iff.mp read
  have restNoZero :=
    (readable_of_scanWord (cString_noZero line) readFirst).2
  have skippedNoZero : Char.ofNat 0 ∉ rest.dropWhile isSpace := by
    intro member
    exact restNoZero ((List.dropWhile_sublist isSpace).subset member)
  have readable := (readable_of_scanWord skippedNoZero readSecond).1
  change (if isHash first = true then some (second, first) else none) =
    some (tag, hash) at read
  split at read
  · rename_i valid
    obtain ⟨rfl, rfl⟩ := Prod.mk.inj (Option.some.inj read)
    exact ⟨readable, valid⟩
  · exact absurd read (by simp)

/-- The first entry of a tag wins. -/
theorem get_emplace (entries : HashEntries) (tag hash other : List Char) :
    (entries.emplace tag hash).get other =
      (entries.get other).or (if other = tag then some hash else none) := by
  rw [HashEntries.emplace]
  split
  · rename_i value found
    by_cases same : other = tag
    · rw [same, found, Option.some_or]
    · rw [if_neg same, Option.or_none]
  · rename_i missing
    rw [HashMap.get_set]
    by_cases same : other = tag
    · rw [same, missing, Function.update_self, Option.none_or, if_pos rfl]
    · rw [Function.update_of_ne same, if_neg same, Option.or_none]

theorem readLine_readable
    {entries : HashEntries} (readable : entries.Readable)
    (line : List Char) : (readLine entries line).Readable := by
  rw [readLine]
  split
  · rename_i tag hash read
    intro other value found
    rw [get_emplace] at found
    rcases Option.or_eq_some_iff.mp found with before | ⟨_, added⟩
    · exact readable other value before
    · split at added
      · rename_i same
        obtain rfl := Option.some.inj added
        rw [same]
        exact readEntry_readable read
      · exact absurd added (by simp)
  · exact readable

/-- A file yields readable entries only, whatever it holds. -/
theorem readHashFile_readable (previous : Option (List Char)) :
    (readHashFile previous).Readable := by
  have lines (buffers : List (List Char)) {entries : HashEntries}
      (readable : entries.Readable) :
      (buffers.foldl readLine entries).Readable := by
    induction buffers generalizing entries with
    | nil => exact readable
    | cons buffer buffers induction =>
        exact induction (readLine_readable readable buffer)
  have empty : HashEntries.Readable ∅ := by
    intro tag hash found
    rw [HashMap.get_empty] at found
    exact absurd found (by simp)
  cases previous with
  | none => exact empty
  | some content => exact lines _ empty

/-! ## Entries read back -/

/-- A written line is read as its entry. -/
theorem readEntry_entryLine
    {tag hash : List Char} (readable : Readable tag)
    (valid : isHash hash = true) :
    readEntry (entryLine ⟨tag, hash⟩) = some (tag, hash) := by
  have hashReadable := readable_of_isHash valid
  have noZero : Char.ofNat 0 ∉ entryLine ⟨tag, hash⟩ := by
    simp only [entryLine, List.mem_append, List.mem_cons, not_or,
      hashReadable.noZero, readable.noZero, List.not_mem_nil]
    decide
  have readHash :
      scanWord 255 (entryLine ⟨tag, hash⟩) =
        some (hash, ' ' :: ' ' :: tag ++ ['\n']) := by
    rw [entryLine, List.append_assoc]
    apply scanWord_readable hashReadable
    rintro char ⟨⟩
    rfl
  have skipped :
      (' ' :: ' ' :: tag ++ ['\n']).dropWhile isSpace = tag ++ ['\n'] := by
    cases tag with
    | nil => exact absurd rfl readable.nonempty
    | cons char tag =>
        rw [List.cons_append, List.cons_append, List.cons_append,
          List.dropWhile_cons_of_pos (by decide),
          List.dropWhile_cons_of_pos (by decide)]
        apply List.dropWhile_cons_of_neg
        rw [readable.solid char List.mem_cons_self]
        exact Bool.false_ne_true
  have readTag : scanWord 255 (tag ++ ['\n']) = some (tag, ['\n']) := by
    apply scanWord_readable readable
    rintro char ⟨⟩
    rfl
  rw [readEntry, cString_of_not_mem noZero]
  simp only [readHash, Option.bind_eq_bind, Option.bind_some, skipped,
    readTag, valid, if_true]

/-- Reading written entries looks them up, first entry first. -/
theorem get_foldl_readLine
    {written : List (Sigma fun _ : List Char => List Char)}
    (readable :
      ∀ entry ∈ written, Readable entry.1 ∧ isHash entry.2 = true)
    (entries : HashEntries) (tag : List Char) :
    ((written.map entryLine).foldl readLine entries).get tag =
      (entries.get tag).or (written.dlookup tag) := by
  induction written generalizing entries with
  | nil => rw [List.dlookup_nil, Option.or_none]; rfl
  | cons entry written induction =>
      rw [List.forall_mem_cons] at readable
      have read := readEntry_entryLine readable.1.1 readable.1.2
      rw [List.map_cons, List.foldl_cons, induction readable.2, readLine,
        read]
      dsimp only
      rw [get_emplace, Option.or_assoc]
      by_cases same : tag = entry.1
      · subst same
        rw [if_pos rfl, List.dlookup_cons_eq, Option.some_or]
      · rw [if_neg same, List.dlookup_cons_ne _ _ same,
          Option.none_or]

/-- The file written for readable entries is read back as these entries. -/
theorem readHashFile_hashFileText
    {entries : HashEntries} (readable : entries.Readable) :
    (readHashFile (some (hashFileText entries))).get = entries.get := by
  have sorted_perm :
      (stableSort tagBefore entries.entries).Perm entries.entries :=
    List.perm_insertionSort _ _
  have members :
      ∀ entry ∈ stableSort tagBefore entries.entries,
        Readable entry.1 ∧ isHash entry.2 = true := by
    rintro ⟨tag, hash⟩ member
    apply readable tag hash
    apply (HashMap.mem_entries entries tag hash).mp
    exact sorted_perm.mem_iff.mp member
  have text :
      hashFileText entries =
        ((stableSort tagBefore entries.entries).map
          fun entry => entry.2 ++ ' ' :: ' ' :: entry.1).flatMap
            (· ++ ['\n']) := by
    rw [hashFileText, List.flatMap_map]
    rfl
  have read :
      fgetsLines 512 (hashFileText entries) =
        (stableSort tagBefore entries.entries).map entryLine := by
    rw [text, fgetsLines_flatMap, List.map_map]
    · rfl
    · intro line member newline
      rcases List.mem_map.mp member with ⟨entry, inEntries, rfl⟩
      have ⟨tagReadable, valid⟩ := members entry inEntries
      rcases List.mem_append.mp newline with inHash | behind
      · exact (readable_of_isHash valid).newline_free inHash
      · rcases List.mem_cons.mp behind with isSpace | behind
        · exact absurd isSpace (by decide)
        · rcases List.mem_cons.mp behind with isSpace | inTag
          · exact absurd isSpace (by decide)
          · exact tagReadable.newline_free inTag
    · intro line member
      rcases List.mem_map.mp member with ⟨entry, inEntries, rfl⟩
      have ⟨tagReadable, valid⟩ := members entry inEntries
      have hashLength := (readable_of_isHash valid).short
      have tagLength := tagReadable.short
      rw [List.length_append, List.length_cons, List.length_cons]
      rw [isHash, Bool.and_eq_true, decide_eq_true_eq] at valid
      rw [valid.1]
      omega
  funext tag
  rw [readHashFile, read, get_foldl_readLine members, HashMap.get_empty,
    Option.none_or, List.perm_dlookup tag _ sorted_perm]
  · rfl
  · exact (List.perm_nodupKeys sorted_perm).mpr entries.nodupKeys

/-! ## The run's own entry -/

theorem scenarioChar_printable
    {char : Char} (valid : scenarioChar char = true) : 45 ≤ char.toNat := by
  have least {low high : UInt32}
      (both : (decide (low ≤ char.val) && decide (char.val ≤ high)) = true) :
      low.toNat ≤ char.toNat :=
    of_decide_eq_true ((Bool.and_eq_true _ _).mp both).1
  simp only [scenarioChar, Bool.or_eq_true, decide_eq_true_eq] at valid
  rcases valid with ((alpha | digit) | rfl) | rfl
  · rcases (Bool.or_eq_true _ _).mp alpha with upper | lower
    · have both : 65 ≤ char.val ∧ char.val ≤ 90 := of_decide_eq_true upper
      exact le_trans (by decide) (show 65 ≤ char.toNat from both.1)
    · exact le_trans (by decide) (@least 97 122 lower)
  · exact le_trans (by decide) (@least 48 57 digit)
  · decide
  · decide

theorem wantTag_printable
    (scenario : Scenario) (seed count : UInt64) :
    ∀ char ∈ wantTag scenario seed count, 45 ≤ char.toNat := by
  have number (value : Nat) : ∀ char ∈ decimal value, 45 ≤ char.toNat := by
    intro char member
    apply scenarioChar_printable
    rw [scenarioChar, isDigit_of_mem_decimal member, Bool.or_true,
      Bool.true_or, Bool.true_or]
  have named : ∀ char ∈ scenario.name, 45 ≤ char.toNat := by
    intro char member
    apply scenarioChar_printable
    exact List.all_eq_true.mp scenario.accepted.2 char member
  have fixed {text : List Char}
      (all : (text.all fun char => decide (45 ≤ char.toNat)) = true) :
      ∀ char ∈ text, 45 ≤ char.toNat := by
    intro char member
    exact of_decide_eq_true (List.all_eq_true.mp all char member)
  have seedTag := @fixed "_seed".toList (by decide)
  have countTag := @fixed "_count".toList (by decide)
  have ending := @fixed "_reports.txt".toList (by decide)
  simp only [wantTag, List.forall_mem_append]
  exact ⟨⟨⟨⟨⟨named, seedTag⟩, number _⟩, countTag⟩, number _⟩, ending⟩

theorem length_wantTag (scenario : Scenario) (seed count : UInt64) :
    (wantTag scenario seed count).length =
      scenario.name.length + (decimal seed.toNat).length +
        (decimal count.toNat).length + 23 := by
  have fixed :
      "_seed".toList.length = 5 ∧ "_count".toList.length = 6 ∧
        "_reports.txt".toList.length = 12 := by
    decide
  simp only [wantTag, List.length_append, fixed]
  omega

/-- The run's tag is read back exactly when it fits into 255 characters. -/
theorem readable_wantTag_iff (scenario : Scenario) (seed count : UInt64) :
    Readable (wantTag scenario seed count) ↔
      scenario.name.length + (decimal seed.toNat).length +
        (decimal count.toNat).length ≤ 232 := by
  have printable := wantTag_printable scenario seed count
  have size := length_wantTag scenario seed count
  constructor
  · intro readable
    have short := readable.short
    omega
  · intro short
    constructor
    · intro empty
      rw [empty] at size
      exact absurd size (by simp)
    · intro char member
      have high := printable char member
      have other : char ≠ ' ' := by
        rintro rfl
        exact absurd high (by decide)
      simp only [isSpace, other, decide_false, Bool.false_or,
        Bool.and_eq_false_iff, decide_eq_false_iff_not]
      right
      omega
    · intro member
      exact absurd (printable _ member) (by decide)
    · omega

/-- The written entry is found when its tag can be read, and only then. -/
theorem readHashFile_writeReference_iff
    (previous : Option (List Char)) (tag : List Char) (digest : Digest) :
    (readHashFile (writeReference previous tag digest.hex
        TmpOutcome.success)).get =
        Function.update (readHashFile previous).get tag (some digest.hex) ↔
      Readable tag := by
  have written :
      writeReference previous tag digest.hex TmpOutcome.success =
        some (hashFileText ((readHashFile previous).set tag digest.hex)) :=
    rfl
  rw [written]
  constructor
  · intro equal
    have found := congrFun equal tag
    rw [Function.update_self] at found
    exact (readHashFile_readable _ _ _ found).1
  · intro readable
    rw [readHashFile_hashFileText, HashMap.get_set]
    intro other hash found
    rw [HashMap.get_set] at found
    by_cases same : other = tag
    · rw [same, Function.update_self] at found
      rw [same, ← Option.some.inj found]
      exact ⟨readable, digest.isHash⟩
    · rw [Function.update_of_ne same] at found
      exact readHashFile_readable previous other hash found

/--
After a successful `--write-reference` the file reads as the previous entries
with the run's own set to the new digest exactly when the run's tag fits the
255 characters that a reader takes, that is when the scenario name and the
digits of seed and count are at most 232 characters.
-/
theorem reference_hash_reads_back_iff
    (previous : Option (List Char)) (scenario : Scenario)
    (seed count : UInt64) (digest : Digest) :
    (readHashFile (writeReference previous (wantTag scenario seed count)
        digest.hex TmpOutcome.success)).get =
        Function.update (readHashFile previous).get
          (wantTag scenario seed count) (some digest.hex) ↔
      scenario.name.length + (decimal seed.toNat).length +
        (decimal count.toNat).length ≤ 232 := by
  rw [readHashFile_writeReference_iff]
  exact readable_wantTag_iff scenario seed count

/-- A scenario name of 231 letters, which makes a file name of 249. -/
def longScenario : Scenario where
  name := List.replicate 231 'a'
  accepted := by
    constructor
    · exact List.cons_ne_nil _ _
    · rw [List.all_replicate]
      rfl

/-- A digest. -/
def zeroDigest : Digest where
  hex := List.replicate 64 '0'
  isHash := by decide

theorem reference_hash_lost_longScenario :
    (readHashFile (writeReference none (wantTag longScenario 23 1)
        zeroDigest.hex TmpOutcome.success)).get ≠
      Function.update (readHashFile none).get
        (wantTag longScenario 23 1) (some zeroDigest.hex) := by
  intro equal
  have readable :=
    (readHashFile_writeReference_iff none _ zeroDigest).mp equal
  have short := (readable_wantTag_iff longScenario 23 1).mp readable
  have size : longScenario.name.length = 231 := List.length_replicate
  have digits :
      (decimal (23 : UInt64).toNat).length = 2 ∧
        (decimal (1 : UInt64).toNat).length = 1 := by
    decide
  omega

end MatchingBench.Harness.ReferenceHash
