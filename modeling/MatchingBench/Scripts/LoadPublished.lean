import MatchingBench.Harness.ReferenceHash
import MatchingBench.Lib.PythonText
import MatchingBench.Scripts.ValidateSeeds

/-!
# The validator's reader of the reference hash file

`load_published` of `validate_seeds.py`: the file is decoded, its lines are cut
into words, and a regular expression takes the tag of an entry apart.  A cell
is keyed by the numbers in the tag.
-/

set_option autoImplicit false

namespace MatchingBench.Scripts.LoadPublished

open MatchingBench.Lib.DecimalText
open MatchingBench.Lib.KeyedSort
open MatchingBench.Lib.Maps
open MatchingBench.Lib.PythonText
open MatchingBench.Lib.TextScan (drop_takeWhile takeWhile_run)
open MatchingBench.Harness.ReferenceHash (isHash)

/-! ## The interpreter -/

/-- The character whose code is a byte. -/
def byteChar (byte : UInt8) : Char :=
  Char.ofNat byte.toNat

/-- What the script takes from its interpreter and the locale. -/
structure Interpreter where
  /-- The codec of text files, with `errors="replace"`. -/
  decode : List UInt8 → List Char
  decode_ascii : ∀ bytes, (∀ byte ∈ bytes, byte < 128) →
    decode bytes = bytes.map byteChar
  /-- A newline is no part of a longer sequence of bytes. -/
  decode_newline : ∀ line rest,
    decode (line ++ 10 :: rest) = decode line ++ '\n' :: decode rest
  /-- The value of a decimal digit of Unicode. -/
  digit : Char → Option Nat
  digit_ascii : ∀ char : Char, char.toNat < 128 →
    digit char = if char.isDigit then some (char.toNat - 48) else none
  /-- `sys.get_int_max_str_digits()`; zero is no limit. -/
  maxStrDigits : Nat
  limit : maxStrDigits = 0 ∨ 640 ≤ maxStrDigits

/-- `int` of decimal digits, or nothing for a `ValueError`. -/
def Interpreter.int (python : Interpreter) (digits : List Char) :
    Option Nat :=
  if python.maxStrDigits ≠ 0 ∧ python.maxStrDigits < digits.length then none
  else
    some (digits.foldl
      (fun value char => 10 * value + (python.digit char).getD 0) 0)

/-! ## `TAG_RE` -/

/-- What `TAG_RE` captures. -/
structure TagMatch where
  scenario : List Char
  seed : List Char
  count : List Char
deriving DecidableEq, Repr

/-- `[a-z0-9-]`. -/
def tagChar (char : Char) : Bool :=
  char.isLower || char.isDigit || char = '-'

/-- `\d`. -/
def Interpreter.isDecimal (python : Interpreter) (char : Char) : Bool :=
  (python.digit char).isSome

/-- The longest run of characters of a class, if there is one. -/
def takeRun (inClass : Char → Bool) (text : List Char) :
    Option (List Char × List Char) :=
  let run := text.takeWhile inClass
  if run = [] then none else some (run, text.drop run.length)

/--
`TAG_RE.match`.  A run of the pattern is followed by an underscore, which is
in none of the classes, so only the longest runs can match.
-/
def Interpreter.matchTag (python : Interpreter) (text : List Char) :
    Option TagMatch := do
  let (scenario, text) ← takeRun tagChar text
  let text ← text.dropPrefix? "_seed".toList
  let (seed, text) ← takeRun python.isDecimal text
  let text ← text.dropPrefix? "_count".toList
  let (count, text) ← takeRun python.isDecimal text
  let text ← text.dropPrefix? "_reports.txt".toList
  if text = [] ∨ text = ['\n'] then
    some { scenario := scenario, seed := seed, count := count }
  else none

/-! ## `load_published` -/

/-- `COUNT`. -/
def publishedCount : Nat := 1000000

/-- `CANONICAL_SEED`. -/
def canonicalSeed : Nat := 23

/-- What the body of the loop makes of a line. -/
inductive Reading where
  | skipped
  | entry (seed : Nat) (scenario hash : List Char)
  | valueError
deriving DecidableEq, Repr

/-- The body of the loop up to the dictionaries. -/
def Interpreter.readLine (python : Interpreter) (line : List Char) :
    Reading :=
  match split line with
  | [hash, tag] =>
      if isHash hash then
        match python.matchTag tag with
        | none => .skipped
        | some found =>
            match python.int found.count with
            | none => .valueError
            | some count =>
                if count = publishedCount then
                  match python.int found.seed with
                  | none => .valueError
                  | some seed => .entry seed found.scenario hash
                else .skipped
      else .skipped
  | _ => .skipped

/-- The two dictionaries; `have` is a word of Lean. -/
structure Dictionaries where
  published : HashMap (Nat × List Char) (List Char)
  have_ : HashMap Nat (List (List Char))

def Dictionaries.empty : Dictionaries where
  published := ∅
  have_ := ∅

/-- The first entry of a cell wins. -/
def Dictionaries.add
    (dicts : Dictionaries) (seed : Nat) (scenario hash : List Char) :
    Dictionaries :=
  match dicts.published.get (seed, scenario) with
  | some _ => dicts
  | none =>
      { published := dicts.published.set (seed, scenario) hash
        have_ := dicts.have_.set seed
          (((dicts.have_.get seed).getD []).insert scenario) }

/-- The loop over the lines, which a `ValueError` leaves. -/
def Interpreter.readLines (python : Interpreter) :
    Dictionaries → List (List Char) → Option Dictionaries
  | dicts, [] => some dicts
  | dicts, line :: lines =>
      match python.readLine line with
      | .skipped => python.readLines dicts lines
      | .entry seed scenario hash =>
          python.readLines (dicts.add seed scenario hash) lines
      | .valueError => none

/-- The pool: other seeds that have every requested scenario. -/
def Dictionaries.pool
    (dicts : Dictionaries) (scenarios : List (List Char)) : List Nat :=
  stableSort (fun a b => decide (a < b))
    ((dicts.have_.entries.filter fun entry =>
      entry.1 ≠ canonicalSeed && scenarios.all entry.2.contains).map
        Sigma.fst)

/--
`load_published`, from the content when the file exists; nothing when the
script ends with an error.
-/
def Interpreter.loadPublished (python : Interpreter)
    (file : Option (List UInt8)) (scenarios : List (List Char)) :
    Option (HashMap (Nat × List Char) (List Char) × List Nat) := do
  let content ← file
  let dicts ← python.readLines .empty (fileLines (python.decode content))
  some (dicts.published, dicts.pool scenarios)

/-! ## Tags taken apart -/

/-- The tag of which these are the parts. -/
def TagMatch.text (found : TagMatch) : List Char :=
  found.scenario ++ "_seed".toList ++ found.seed ++ "_count".toList ++
    found.count ++ "_reports.txt".toList

/-- The parts that `TAG_RE` captures. -/
structure TagMatch.Formed (python : Interpreter) (found : TagMatch) :
    Prop where
  scenario : found.scenario ≠ [] ∧ ∀ char ∈ found.scenario, tagChar char
  seed : found.seed ≠ [] ∧ ∀ char ∈ found.seed, python.isDecimal char
  count : found.count ≠ [] ∧ ∀ char ∈ found.count, python.isDecimal char

section Runs

variable {inClass : Char → Bool}

theorem formed_of_takeRun {text run rest : List Char}
    (taken : takeRun inClass text = some (run, rest)) :
    run ≠ [] ∧ ∀ char ∈ run, inClass char := by
  rw [takeRun] at taken
  split at taken
  · cases taken
  · rename_i nonempty
    rcases Prod.mk.inj (Option.some.inj taken) with ⟨rfl, _⟩
    exact ⟨nonempty, fun char member => List.mem_takeWhile_imp member⟩

theorem eq_of_takeRun {text run rest : List Char}
    (taken : takeRun inClass text = some (run, rest)) :
    text = run ++ rest := by
  rw [takeRun] at taken
  split at taken
  · cases taken
  · rcases Prod.mk.inj (Option.some.inj taken) with ⟨rfl, rfl⟩
    rw [drop_takeWhile, List.takeWhile_append_dropWhile]

theorem takeRun_append {run rest : List Char} (nonempty : run ≠ [])
    (all : ∀ char ∈ run, inClass char = true)
    (ends : ∀ char ∈ rest.head?, inClass char = false) :
    takeRun inClass (run ++ rest) = some (run, rest) := by
  rw [takeRun, takeWhile_run all ends, if_neg nonempty, List.drop_left]

theorem eq_of_dropPrefix {text literal rest : List Char}
    (dropped : text.dropPrefix? literal = some rest) :
    text = literal ++ rest := by
  rcases List.dropPrefix?_eq_some_iff.mp dropped with ⟨front, rfl, same⟩
  rw [eq_of_beq same]

end Runs

section Tags

variable {python : Interpreter}

/-- A matched tag is its parts, or ends in a newline. -/
theorem eq_of_matchTag {text : List Char} {found : TagMatch}
    (matched : python.matchTag text = some found) :
    text = found.text ∨ text = found.text ++ ['\n'] := by
  rw [Interpreter.matchTag] at matched
  rcases Option.bind_eq_some_iff.mp matched with
    ⟨⟨scenario, text₁⟩, run₁, matched⟩
  rcases Option.bind_eq_some_iff.mp matched with ⟨text₂, drop₁, matched⟩
  rcases Option.bind_eq_some_iff.mp matched with
    ⟨⟨seed, text₃⟩, run₂, matched⟩
  rcases Option.bind_eq_some_iff.mp matched with ⟨text₄, drop₂, matched⟩
  rcases Option.bind_eq_some_iff.mp matched with
    ⟨⟨count, text₅⟩, run₃, matched⟩
  rcases Option.bind_eq_some_iff.mp matched with ⟨text₆, drop₃, matched⟩
  rw [eq_of_takeRun run₁, eq_of_dropPrefix drop₁, eq_of_takeRun run₂,
    eq_of_dropPrefix drop₂, eq_of_takeRun run₃, eq_of_dropPrefix drop₃]
  split at matched
  · rename_i ends
    cases matched
    rcases ends with rfl | rfl
    · left
      simp [TagMatch.text]
    · right
      simp [TagMatch.text]
  · cases matched

theorem formed_of_matchTag {text : List Char} {found : TagMatch}
    (matched : python.matchTag text = some found) : found.Formed python := by
  rw [Interpreter.matchTag] at matched
  rcases Option.bind_eq_some_iff.mp matched with
    ⟨⟨scenario, text₁⟩, run₁, matched⟩
  rcases Option.bind_eq_some_iff.mp matched with ⟨text₂, _, matched⟩
  rcases Option.bind_eq_some_iff.mp matched with
    ⟨⟨seed, text₃⟩, run₂, matched⟩
  rcases Option.bind_eq_some_iff.mp matched with ⟨text₄, _, matched⟩
  rcases Option.bind_eq_some_iff.mp matched with
    ⟨⟨count, text₅⟩, run₃, matched⟩
  rcases Option.bind_eq_some_iff.mp matched with ⟨text₆, _, matched⟩
  split at matched
  · cases matched
    exact ⟨formed_of_takeRun run₁, formed_of_takeRun run₂,
      formed_of_takeRun run₃⟩
  · cases matched

theorem isDecimal_underscore (python : Interpreter) :
    python.isDecimal '_' = false := by
  rw [Interpreter.isDecimal, python.digit_ascii '_' (by decide)]
  rfl

/-- A tag is taken apart as it was put together. -/
theorem matchTag_text {found : TagMatch} (formed : found.Formed python) :
    python.matchTag found.text = some found := by
  have underscore := isDecimal_underscore python
  have run₁ := @takeRun_append tagChar found.scenario
    ("_seed".toList ++ (found.seed ++ ("_count".toList ++
      (found.count ++ "_reports.txt".toList))))
    formed.scenario.1 formed.scenario.2 (by rintro char ⟨⟩; rfl)
  have run₂ := @takeRun_append python.isDecimal found.seed
    ("_count".toList ++ (found.count ++ "_reports.txt".toList))
    formed.seed.1 formed.seed.2 (by rintro char ⟨⟩; exact underscore)
  have run₃ := @takeRun_append python.isDecimal found.count
    "_reports.txt".toList
    formed.count.1 formed.count.2 (by rintro char ⟨⟩; exact underscore)
  have dropped (literal rest : List Char) :
      (literal ++ rest).dropPrefix? literal = some rest :=
    List.dropPrefix?_append_of_beq rest (beq_self_eq_true literal)
  have last : "_reports.txt".toList.dropPrefix? "_reports.txt".toList =
      some [] := by decide
  have whole : found.text = found.scenario ++ ("_seed".toList ++
      (found.seed ++ ("_count".toList ++
        (found.count ++ "_reports.txt".toList)))) := by
    rw [TagMatch.text, List.append_assoc, List.append_assoc,
      List.append_assoc, List.append_assoc]
  rw [Interpreter.matchTag, whole]
  refine Option.bind_eq_some_iff.mpr ⟨_, run₁, ?_⟩
  refine Option.bind_eq_some_iff.mpr ⟨_, dropped _ _, ?_⟩
  refine Option.bind_eq_some_iff.mpr ⟨_, run₂, ?_⟩
  refine Option.bind_eq_some_iff.mpr ⟨_, dropped _ _, ?_⟩
  refine Option.bind_eq_some_iff.mpr ⟨_, run₃, ?_⟩
  refine Option.bind_eq_some_iff.mpr ⟨_, last, ?_⟩
  exact if_pos (Or.inl rfl)

/-- `TAG_RE` on a word, which ends in no newline. -/
theorem matchTag_iff {text : List Char} (free : '\n' ∉ text)
    (found : TagMatch) :
    python.matchTag text = some found ↔
      text = found.text ∧ found.Formed python := by
  constructor
  · intro matched
    refine ⟨?_, formed_of_matchTag matched⟩
    rcases eq_of_matchTag matched with whole | ended
    · exact whole
    · rw [ended] at free
      exact absurd (List.mem_append_right _ (List.mem_singleton_self _)) free
  · rintro ⟨rfl, formed⟩
    exact matchTag_text formed

end Tags

theorem ascii_of_isDigit {char : Char} (digit : char.isDigit = true) :
    char.toNat < 128 := by
  rw [Char.isDigit, Bool.and_eq_true, decide_eq_true_eq] at digit
  have high : char.toNat ≤ 57 := of_decide_eq_true digit.2
  omega

/-- A number in decimal is read back, within the limit. -/
theorem int_decimal (python : Interpreter) {value : Nat}
    (short : (decimal value).length ≤ 640) :
    python.int (decimal value) = some value := by
  have folded (digits : List Char) (all : ∀ char ∈ digits, char.isDigit)
      (start : Nat) :
      digits.foldl
          (fun value char => 10 * value + (python.digit char).getD 0) start =
        Nat.ofDigitChars 10 digits start := by
    induction digits generalizing start with
    | nil => rfl
    | cons char digits induction =>
        rw [List.forall_mem_cons] at all
        rw [List.foldl_cons, Nat.ofDigitChars_cons, induction all.2,
          python.digit_ascii char (ascii_of_isDigit all.1), if_pos all.1]
        rfl
  have within : ¬ (python.maxStrDigits ≠ 0 ∧
      python.maxStrDigits < (decimal value).length) := by
    have limit := python.limit
    omega
  rw [Interpreter.int, if_neg within,
    folded _ (fun _ member => isDigit_of_mem_decimal member), decimal,
    Nat.ofDigitChars_ten_toDigits]

/-- A decimal digit of ASCII is one of Unicode. -/
theorem isDecimal_of_isDigit (python : Interpreter) {char : Char}
    (digit : char.isDigit = true) : python.isDecimal char = true := by
  rw [Interpreter.isDecimal,
    python.digit_ascii char (ascii_of_isDigit digit), if_pos digit]
  rfl

/-! ## What the loop reads -/

/-- What a line says about a cell. -/
def Interpreter.finds
    (python : Interpreter) (cell : Nat × List Char) (line : List Char) :
    Option (List Char) :=
  match python.readLine line with
  | .entry seed scenario hash =>
      if cell = (seed, scenario) then some hash else none
  | _ => none

theorem get_add
    (dicts : Dictionaries) (seed : Nat) (scenario hash : List Char)
    (cell : Nat × List Char) :
    (dicts.add seed scenario hash).published.get cell =
      (dicts.published.get cell).or
        (if cell = (seed, scenario) then some hash else none) := by
  rw [Dictionaries.add]
  split
  · rename_i older found
    by_cases same : cell = (seed, scenario)
    · rw [same, found, Option.some_or]
    · rw [if_neg same, Option.or_none]
  · rename_i missing
    rw [HashMap.get_set]
    by_cases same : cell = (seed, scenario)
    · rw [same, missing, Function.update_self, if_pos rfl, Option.none_or]
    · rw [Function.update_of_ne same, if_neg same, Option.or_none]

section Loop

variable {python : Interpreter} {dicts last : Dictionaries}
  {lines : List (List Char)}

/-- The script survives the file unless `int` fails on a line. -/
theorem readLines_eq_none_iff :
    python.readLines dicts lines = none ↔
      ∃ line ∈ lines, python.readLine line = .valueError := by
  induction lines generalizing dicts with
  | nil => simp [Interpreter.readLines]
  | cons line lines induction =>
      rw [Interpreter.readLines]
      cases reading : python.readLine line <;> simp [reading, induction]

/-- The first line that says something about a cell decides. -/
theorem readLines_get
    (read : python.readLines dicts lines = some last)
    (cell : Nat × List Char) :
    last.published.get cell =
      (dicts.published.get cell).or
        (lines.findSome? (python.finds cell)) := by
  induction lines generalizing dicts with
  | nil =>
      cases read
      exact Option.or_none.symm
  | cons line lines induction =>
      rw [Interpreter.readLines] at read
      rw [List.findSome?_cons]
      cases reading : python.readLine line with
      | skipped =>
          rw [reading] at read
          rw [Interpreter.finds, reading]
          exact induction read
      | entry seed scenario hash =>
          rw [reading] at read
          rw [induction read, get_add, Option.or_assoc, Interpreter.finds,
            reading]
          by_cases same : cell = (seed, scenario) <;> simp [same]
      | valueError =>
          rw [reading] at read
          cases read

end Loop

end MatchingBench.Scripts.LoadPublished
