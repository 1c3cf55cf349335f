import MatchingBench.Lib.TextScan

/-!
# JSON

The reader of Python's `json`: a value at the front of a text and what stands
behind it.  Reading is stable under more text, so that no beginning of an
object is read as another value.  A character that is escaped as two surrogates
is refused.
-/

set_option autoImplicit false

namespace MatchingBench.Lib.Json

open MatchingBench.Lib.TextScan (takeWhile_run)

/-- A value; a number is kept as it is written. -/
inductive Value where
  | null
  | bool (value : Bool)
  | number (text : List Char)
  | string (text : List Char)
  | array (items : List Value)
  | object (members : List (List Char × Value))

/-- `dict.get`: of members of one name the last counts. -/
def get (members : List (List Char × Value)) (key : List Char) :
    Option Value :=
  members.reverse.lookup key

/-! ## White space -/

/-- White space between the tokens. -/
def white (char : Char) : Bool :=
  char = ' ' || char = '\t' || char = '\n' || char = '\r'

/-- What stands behind the white space. -/
def skip (text : List Char) : List Char :=
  text.dropWhile white

/-- What may stand behind a value. -/
def delimiter (char : Char) : Bool :=
  white char || char = ',' || char = '}' || char = ']'

/-- No text goes on from the value before it. -/
def Delimited (rest : List Char) : Prop :=
  ∀ char ∈ rest.head?, delimiter char = true

/-! ## Strings -/

/-- The value of a hexadecimal digit. -/
def hexValue (char : Char) : Option Nat :=
  if '0' ≤ char ∧ char ≤ '9' then some (char.toNat - 48)
  else if 'a' ≤ char ∧ char ≤ 'f' then some (char.toNat - 87)
  else if 'A' ≤ char ∧ char ≤ 'F' then some (char.toNat - 55)
  else none

/-- The character with a code of four hexadecimal digits. -/
def unicode (a b c d : Char) : Option Char := do
  let a ← hexValue a
  let b ← hexValue b
  let c ← hexValue c
  let d ← hexValue d
  let code := ((a * 16 + b) * 16 + c) * 16 + d
  if code.isValidChar then some (Char.ofNat code) else none

/-- The character that a letter behind a backslash stands for. -/
def unescape (escape : Char) : Option Char :=
  if escape = '"' then some '"'
  else if escape = '\\' then some '\\'
  else if escape = '/' then some '/'
  else if escape = 'b' then some (Char.ofNat 8)
  else if escape = 'f' then some (Char.ofNat 12)
  else if escape = 'n' then some '\n'
  else if escape = 'r' then some '\r'
  else if escape = 't' then some '\t'
  else none

/-- A character in front of the string that was read behind it. -/
def pushFront (char : Char) (scanned : List Char × List Char) :
    List Char × List Char :=
  (char :: scanned.1, scanned.2)

/-- The rest of a string behind its opening quote. -/
def scanString : List Char → Option (List Char × List Char)
  | [] => none
  | char :: rest =>
      if char = '"' then some ([], rest)
      else if char = '\\' then
        match rest with
        | [] => none
        | escape :: rest =>
            if escape = 'u' then
              match rest with
              | a :: b :: c :: d :: rest =>
                  match unicode a b c d with
                  | some char => (scanString rest).map (pushFront char)
                  | none => none
              | _ => none
            else
              match unescape escape with
              | some char => (scanString rest).map (pushFront char)
              | none => none
      else if char.toNat < 32 then none
      else (scanString rest).map (pushFront char)

/-! ## Numbers -/

/-- The digits before the point. -/
def scanWhole : List Char → Option (List Char × List Char)
  | [] => none
  | char :: rest =>
      if char = '0' then some (['0'], rest)
      else if char.isDigit then
        some (char :: rest.takeWhile Char.isDigit,
          rest.dropWhile Char.isDigit)
      else none

/-- A marker and the digits behind it, if there are any. -/
def scanMarked (marker : Char → Bool) (signed : Bool) (text : List Char) :
    List Char × List Char :=
  match text with
  | [] => ([], [])
  | char :: rest =>
      if marker char then
        let sign :=
          if signed then (rest.take 1).filter fun s => s = '+' || s = '-'
          else []
        let digits := (rest.drop sign.length).takeWhile Char.isDigit
        if digits = [] then ([], text)
        else
          (char :: (sign ++ digits),
            (rest.drop sign.length).dropWhile Char.isDigit)
      else ([], text)

/-- A number, as it is written. -/
def scanNumber (text : List Char) : Option (List Char × List Char) :=
  let sign := (text.take 1).filter (· = '-')
  match scanWhole (text.drop sign.length) with
  | none => none
  | some (whole, rest) =>
      let (fraction, rest) := scanMarked (· = '.') false rest
      let (exponent, rest) :=
        scanMarked (fun char => char = 'e' || char = 'E') true rest
      some (sign ++ whole ++ fraction ++ exponent, rest)

/-! ## Values -/

/-- The constants, `NaN` and the infinities among the numbers. -/
def literals : List (List Char × Value) :=
  [("null".toList, .null),
    ("true".toList, .bool true),
    ("false".toList, .bool false),
    ("NaN".toList, .number "NaN".toList),
    ("Infinity".toList, .number "Infinity".toList),
    ("-Infinity".toList, .number "-Infinity".toList)]

/-- A constant. -/
def scanLiteral (text : List Char) : Option (Value × List Char) :=
  literals.findSome? fun (word, value) =>
    (text.dropPrefix? word).map fun rest => (value, rest)

/-- A number or a constant. -/
def scanAtom (text : List Char) : Option (Value × List Char) :=
  match scanNumber text with
  | some (number, rest) => some (.number number, rest)
  | none => scanLiteral text

/-- What stands behind white space and a token. -/
def expect (token : Char) (text : List Char) : Option (List Char) :=
  match skip text with
  | [] => none
  | char :: rest => if char = token then some rest else none

/-- The name of a member and its colon. -/
def scanKey (text : List Char) : Option (List Char × List Char) :=
  match text with
  | [] => none
  | char :: rest =>
      if char = '"' then
        match scanString rest with
        | some (key, rest) =>
            (expect ':' rest).map fun rest => (key, skip rest)
        | none => none
      else none

mutual

/-- A value at the front of a text. -/
def scanValue : Nat → List Char → Option (Value × List Char)
  | 0, _ => none
  | _ + 1, [] => none
  | fuel + 1, char :: rest =>
      if char = '"' then
        (scanString rest).map fun (text, rest) => (.string text, rest)
      else if char = '{' then
        match expect '}' rest with
        | some rest => some (.object [], rest)
        | none =>
            (scanMembers fuel (skip rest)).map fun (members, rest) =>
              (.object members, rest)
      else if char = '[' then
        match expect ']' rest with
        | some rest => some (.array [], rest)
        | none =>
            (scanItems fuel (skip rest)).map fun (items, rest) =>
              (.array items, rest)
      else scanAtom (char :: rest)

/-- The members of an object up to its closing brace. -/
def scanMembers :
    Nat → List Char → Option (List (List Char × Value) × List Char)
  | 0, _ => none
  | fuel + 1, text =>
      match scanKey text with
      | none => none
      | some (key, rest) =>
          match scanValue fuel rest with
          | none => none
          | some (value, rest) =>
              match expect '}' rest with
              | some rest => some ([(key, value)], rest)
              | none =>
                  match expect ',' rest with
                  | some rest =>
                      (scanMembers fuel (skip rest)).map
                        fun (members, rest) => ((key, value) :: members, rest)
                  | none => none

/-- The items of an array up to its closing bracket. -/
def scanItems : Nat → List Char → Option (List Value × List Char)
  | 0, _ => none
  | fuel + 1, text =>
      match scanValue fuel text with
      | none => none
      | some (value, rest) =>
          match expect ']' rest with
          | some rest => some ([value], rest)
          | none =>
              match expect ',' rest with
              | some rest =>
                  (scanItems fuel (skip rest)).map fun (items, rest) =>
                    (value :: items, rest)
              | none => none

end

/-- `json.loads`: a whole text, or nothing for a `JSONDecodeError`. -/
def loads (text : List Char) : Option Value :=
  match scanValue (2 * text.length + 1) (skip text) with
  | some (value, rest) => if skip rest = [] then some value else none
  | none => none

/-! ## Strings, character by character -/

theorem scanString_quote (rest : List Char) :
    scanString ('"' :: rest) = some ([], rest) := by
  rw [scanString.eq_def]
  exact if_pos rfl

theorem scanString_plain
    {char : Char} (unquoted : char ≠ '"') (unescaped : char ≠ '\\')
    (printable : ¬ char.toNat < 32) (rest : List Char) :
    scanString (char :: rest) = (scanString rest).map (pushFront char) := by
  rw [scanString.eq_def]
  simp only [if_neg unquoted, if_neg unescaped, if_neg printable]

theorem scanString_unescape
    {escape char : Char} (other : escape ≠ 'u')
    (known : unescape escape = some char) (rest : List Char) :
    scanString ('\\' :: escape :: rest) =
      (scanString rest).map (pushFront char) := by
  rw [scanString.eq_def]
  simp [other, known]

theorem scanString_unicode
    {a b c d char : Char} (known : unicode a b c d = some char)
    (rest : List Char) :
    scanString ('\\' :: 'u' :: a :: b :: c :: d :: rest) =
      (scanString rest).map (pushFront char) := by
  rw [scanString.eq_def]
  simp [known]

/-! ## Longer texts -/

theorem dropWhile_append_of_head
    {inClass : Char → Bool} {text rest behind : List Char} {char : Char}
    (stops : text.dropWhile inClass = char :: rest) :
    (text ++ behind).dropWhile inClass = char :: rest ++ behind := by
  rw [List.dropWhile_append, stops]
  rfl

/-- A run that ends before the text does is not changed by what follows. -/
theorem run_append
    {inClass : Char → Bool} {text behind : List Char}
    (ends : ∀ char ∈ (text.dropWhile inClass ++ behind).head?,
      inClass char = false) :
    (text ++ behind).takeWhile inClass = text.takeWhile inClass ∧
      (text ++ behind).dropWhile inClass =
        text.dropWhile inClass ++ behind := by
  have parts : text ++ behind =
      text.takeWhile inClass ++ (text.dropWhile inClass ++ behind) := by
    rw [← List.append_assoc, List.takeWhile_append_dropWhile]
  have all : ∀ char ∈ text.takeWhile inClass, inClass char = true :=
    fun _ member => List.mem_takeWhile_imp member
  have taken : (text ++ behind).takeWhile inClass =
      text.takeWhile inClass := by
    rw [parts]
    exact takeWhile_run all ends
  have whole := @List.takeWhile_append_dropWhile _ inClass (text ++ behind)
  rw [taken] at whole
  exact ⟨taken, List.append_cancel_left (whole.trans parts)⟩

theorem scanString_append
    {text string rest : List Char} (behind : List Char)
    (read : scanString text = some (string, rest)) :
    scanString (text ++ behind) = some (string, rest ++ behind) := by
  have pushed {char : Char} {text string : List Char}
      (induction : ∀ {string : List Char},
        scanString text = some (string, rest) →
          scanString (text ++ behind) = some (string, rest ++ behind))
      (read : (scanString text).map (pushFront char) =
        some (string, rest)) :
      (scanString (text ++ behind)).map (pushFront char) =
        some (string, rest ++ behind) := by
    rw [Option.map_eq_some_iff] at read
    rcases read with ⟨⟨inner, left⟩, found, same⟩
    cases same
    rw [induction found]
    rfl
  fun_induction scanString text generalizing string with
  | case2 =>
      cases read
      exact scanString_quote _
  | case4 a b c d later char known _ induction =>
      rw [← pushed induction read]
      exact scanString_unicode known _
  | case7 escape later other char known _ induction =>
      rw [← pushed induction read]
      exact scanString_unescape other known _
  | case10 char later unquoted unescaped printable induction =>
      rw [← pushed induction read]
      exact scanString_plain unquoted unescaped printable _
  | _ => cases read

/-- A string is shorter than the text it is read from. -/
theorem scanString_length
    {text string rest : List Char}
    (read : scanString text = some (string, rest)) :
    rest.length < text.length := by
  have pushed {char : Char} {text string : List Char}
      (induction : ∀ {string : List Char},
        scanString text = some (string, rest) →
          rest.length < text.length)
      (read : (scanString text).map (pushFront char) =
        some (string, rest)) :
      rest.length < text.length := by
    rw [Option.map_eq_some_iff] at read
    rcases read with ⟨⟨inner, left⟩, found, same⟩
    cases same
    exact induction found
  fun_induction scanString text generalizing string with
  | case2 =>
      cases read
      exact Nat.lt_succ_self _
  | case4 a b c d later char known _ induction =>
      have shorter := pushed induction read
      simp only [List.length_cons]
      omega
  | case7 escape later other char known _ induction =>
      have shorter := pushed induction read
      simp only [List.length_cons]
      omega
  | case10 char later unquoted unescaped printable induction =>
      exact Nat.lt_succ_of_lt (pushed induction read)
  | _ => cases read

theorem scanWhole_append
    {text whole rest behind : List Char}
    (read : scanWhole text = some (whole, rest))
    (ends : ∀ char ∈ (rest ++ behind).head?, char.isDigit = false) :
    scanWhole (text ++ behind) = some (whole, rest ++ behind) := by
  cases text with
  | nil => cases read
  | cons char text =>
      rw [scanWhole] at read
      rw [List.cons_append, scanWhole]
      split at read
      · rename_i zero
        cases read
        rw [if_pos zero]
      · rename_i other
        rw [if_neg other]
        split at read
        · rename_i digit
          cases read
          obtain ⟨taken, dropped⟩ := run_append ends
          rw [if_pos digit, taken, dropped]
        · cases read

section Marked

variable {marker : Char → Bool} {signed : Bool}
  {text part rest behind : List Char}

/-- A part with its marker is absent, or the marker stands in front. -/
theorem scanMarked_absent
    (read : scanMarked marker signed text = (part, rest)) :
    rest = text ∨ ∃ char ∈ text.head?, marker char = true := by
  cases text with
  | nil =>
      cases read
      exact Or.inl rfl
  | cons char text =>
      by_cases marked : marker char = true
      · exact Or.inr ⟨char, rfl, marked⟩
      · rw [scanMarked, if_neg marked] at read
        cases read
        exact Or.inl rfl

theorem scanMarked_append
    (read : scanMarked marker signed text = (part, rest))
    (ends : ∀ char ∈ (rest ++ behind).head?,
      marker char = false ∧ char.isDigit = false) :
    scanMarked marker signed (text ++ behind) =
      (part, rest ++ behind) := by
  cases text with
  | nil =>
      cases read
      cases behind with
      | nil => rfl
      | cons char behind =>
          have other := (ends char rfl).1
          rw [List.nil_append, scanMarked, other]
          rfl
  | cons char text =>
      rw [scanMarked] at read
      rw [List.cons_append, scanMarked]
      by_cases marked : marker char = true
      · rw [if_pos marked] at read ⊢
        dsimp only at read ⊢
        generalize shown : (if signed then
          (text.take 1).filter fun s => s = '+' || s = '-' else []) = sign
          at read
        split at read
        · cases read
          have other := (ends char rfl).1
          rw [marked] at other
          cases other
        · rename_i some_
          cases read
          have nonempty : text ≠ [] := by
            rintro rfl
            simp at some_
          have first : (text ++ behind).take 1 = text.take 1 :=
            List.take_append_of_le_length
              (List.length_pos_iff.mpr nonempty)
          have short : sign.length ≤ text.length := by
            rw [← shown]
            split
            · exact (List.length_filter_le _ _).trans
                (List.length_take_le' _ _)
            · exact Nat.zero_le _
          obtain ⟨taken, dropped⟩ := run_append fun char head =>
            (ends char head).2
          rw [first, shown, List.drop_append_of_le_length short, taken,
            dropped, if_neg some_]
      · rw [if_neg marked] at read ⊢
        cases read
        rfl

end Marked

/-- A delimiter belongs to no number. -/
theorem not_number_of_delimiter
    {char : Char} (stops : delimiter char = true) :
    char.isDigit = false ∧ char ≠ '.' ∧ char ≠ 'e' ∧ char ≠ 'E' := by
  simp only [delimiter, white, Bool.or_eq_true, decide_eq_true_eq] at stops
  rcases stops with (((((rfl | rfl) | rfl) | rfl) | rfl) | rfl) | rfl <;>
    decide

/-- The parts of a number one behind the other. -/
theorem scanNumber_eq_some
    {text number rest : List Char} :
    let sign := (text.take 1).filter (· = '-')
    scanNumber text = some (number, rest) ↔
      ∃ whole rest₁ fraction rest₂ exponent,
        scanWhole (text.drop sign.length) = some (whole, rest₁) ∧
          scanMarked (· = '.') false rest₁ = (fraction, rest₂) ∧
          scanMarked (fun char => char = 'e' || char = 'E') true rest₂ =
            (exponent, rest) ∧
          sign ++ whole ++ fraction ++ exponent = number := by
  intro sign
  rw [scanNumber]
  constructor
  · intro read
    dsimp only at read
    split at read
    · cases read
    · rename_i whole rest₁ found
      cases read
      exact ⟨whole, rest₁, _, _, _, found, rfl, rfl, rfl⟩
  · rintro ⟨whole, rest₁, fraction, rest₂, exponent, found, left, right,
      rfl⟩
    dsimp only
    rw [found]
    dsimp only
    rw [left]
    dsimp only
    rw [right]

/-- A number ends before a delimiter, whatever stands behind it. -/
theorem scanNumber_append
    {text number rest behind : List Char}
    (read : scanNumber text = some (number, rest))
    (delimited : Delimited (rest ++ behind)) :
    scanNumber (text ++ behind) = some (number, rest ++ behind) := by
  have nonempty : text ≠ [] := by
    rintro rfl
    cases read
  have first : (text ++ behind).take 1 = text.take 1 :=
    List.take_append_of_le_length (List.length_pos_iff.mpr nonempty)
  have short : ((text.take 1).filter (· = '-')).length ≤ text.length :=
    (List.length_filter_le _ _).trans (List.length_take_le' _ _)
  obtain ⟨whole, rest₁, fraction, rest₂, exponent, found, left, right,
    same⟩ := scanNumber_eq_some.mp read
  have ends : ∀ char ∈ (rest ++ behind).head?,
      char.isDigit = false ∧ char ≠ '.' ∧ char ≠ 'e' ∧ char ≠ 'E' :=
    fun char head => not_number_of_delimiter (delimited char head)
  have ends₂ : ∀ char ∈ (rest₂ ++ behind).head?,
      char.isDigit = false ∧ char ≠ '.' := by
    intro char head
    rcases scanMarked_absent right with rfl | ⟨marked, front, letter⟩
    · exact ⟨(ends char head).1, (ends char head).2.1⟩
    · rw [List.head?_append, front] at head
      cases head
      rw [Bool.or_eq_true, decide_eq_true_eq, decide_eq_true_eq] at letter
      rcases letter with rfl | rfl <;> decide
  have ends₁ : ∀ char ∈ (rest₁ ++ behind).head?, char.isDigit = false := by
    intro char head
    rcases scanMarked_absent left with rfl | ⟨marked, front, point⟩
    · exact (ends₂ char head).1
    · rw [List.head?_append, front] at head
      cases head
      rw [decide_eq_true_eq] at point
      subst point
      rfl
  refine scanNumber_eq_some.mpr
    ⟨whole, rest₁ ++ behind, fraction, rest₂ ++ behind, exponent, ?_, ?_, ?_,
      ?_⟩
  · rw [first, List.drop_append_of_le_length short]
    exact scanWhole_append found ends₁
  · refine scanMarked_append left fun char head => ?_
    obtain ⟨digit, point⟩ := ends₂ char head
    exact ⟨decide_eq_false point, digit⟩
  · refine scanMarked_append right fun char head => ?_
    obtain ⟨digit, -, lower, upper⟩ := ends char head
    exact ⟨by simp [lower, upper], digit⟩
  · rw [first]
    exact same

/-- A constant is read as it is. -/
theorem scanLiteral_word
    {word : List Char} {value : Value} (known : (word, value) ∈ literals)
    (rest : List Char) :
    scanLiteral (word ++ rest) = some (value, rest) := by
  simp only [literals, List.mem_cons, Prod.mk.injEq, List.not_mem_nil,
    or_false] at known
  rcases known with ⟨rfl, rfl⟩ | ⟨rfl, rfl⟩ | ⟨rfl, rfl⟩ | ⟨rfl, rfl⟩ |
    ⟨rfl, rfl⟩ | ⟨rfl, rfl⟩ <;>
    simp [scanLiteral, literals, List.dropPrefix?]

/-- No constant is a number. -/
theorem scanNumber_word
    {word : List Char} {value : Value} (known : (word, value) ∈ literals)
    (rest : List Char) :
    scanNumber (word ++ rest) = none := by
  simp only [literals, List.mem_cons, Prod.mk.injEq, List.not_mem_nil,
    or_false] at known
  rcases known with ⟨rfl, rfl⟩ | ⟨rfl, rfl⟩ | ⟨rfl, rfl⟩ | ⟨rfl, rfl⟩ |
    ⟨rfl, rfl⟩ | ⟨rfl, rfl⟩ <;> rfl

theorem scanLiteral_eq_some
    {text rest : List Char} {value : Value}
    (read : scanLiteral text = some (value, rest)) :
    ∃ word, (word, value) ∈ literals ∧ word ++ rest = text := by
  rw [scanLiteral] at read
  obtain ⟨⟨word, found⟩, member, dropped⟩ :=
    List.exists_of_findSome?_eq_some read
  dsimp only at dropped
  rw [Option.map_eq_some_iff] at dropped
  rcases dropped with ⟨left, cut, same⟩
  cases same
  obtain ⟨front, whole, here⟩ := List.dropPrefix?_eq_some_iff.mp cut
  rw [beq_iff_eq] at here
  exact ⟨word, member, by rw [← here, whole]⟩

theorem scanAtom_word
    {word : List Char} {value : Value} (known : (word, value) ∈ literals)
    (rest : List Char) :
    scanAtom (word ++ rest) = some (value, rest) := by
  rw [scanAtom, scanNumber_word known, scanLiteral_word known]

theorem scanAtom_append
    {text rest behind : List Char} {value : Value}
    (read : scanAtom text = some (value, rest))
    (delimited : Delimited (rest ++ behind)) :
    scanAtom (text ++ behind) = some (value, rest ++ behind) := by
  rw [scanAtom] at read
  split at read
  · rename_i number left found
    cases read
    rw [scanAtom, scanNumber_append found delimited]
  · obtain ⟨word, known, rfl⟩ := scanLiteral_eq_some read
    rw [List.append_assoc]
    exact scanAtom_word known _

section Tokens

variable {token : Char} {text rest : List Char}

theorem expect_eq_some :
    expect token text = some rest ↔ skip text = token :: rest := by
  rw [expect]
  split
  · rename_i empty
    rw [empty]
    simp
  · rename_i char later stops
    rw [stops]
    split
    · rename_i same
      simp [same]
    · rename_i other
      simp [other]

theorem skip_append
    {char : Char} (stops : skip text = char :: rest)
    (behind : List Char) :
    skip (text ++ behind) = char :: (rest ++ behind) :=
  dropWhile_append_of_head stops

theorem expect_append
    (found : expect token text = some rest) (behind : List Char) :
    expect token (text ++ behind) = some (rest ++ behind) :=
  expect_eq_some.mpr (skip_append (expect_eq_some.mp found) behind)

/-- Another token stays another one. -/
theorem expect_append_none
    (other : expect token text = none) (more : skip text ≠ [])
    (behind : List Char) :
    expect token (text ++ behind) = none := by
  cases stops : skip text with
  | nil => exact absurd stops more
  | cons char later =>
      rw [expect, stops] at other
      rw [expect, skip_append stops]
      dsimp only at other ⊢
      split at other
      · cases other
      · rename_i different
        rw [if_neg different]

/-- What a token is read behind is delimited. -/
theorem delimited_of_expect
    (found : expect token text = some rest)
    (closing : delimiter token = true) (behind : List Char) :
    Delimited (text ++ behind) := by
  have stops := expect_eq_some.mp found
  intro first head
  cases text with
  | nil => cases stops
  | cons next text =>
      cases head
      by_cases space : white first = true
      · rw [delimiter, space]
        rfl
      · rw [skip, List.dropWhile_cons_of_neg space] at stops
        cases stops
        exact closing

theorem scanKey_append
    {key : List Char} (behind : List Char)
    (read : scanKey text = some (key, rest)) (more : rest ≠ []) :
    scanKey (text ++ behind) = some (key, rest ++ behind) := by
  cases text with
  | nil => cases read
  | cons char text =>
      rw [scanKey] at read
      rw [List.cons_append, scanKey]
      split at read
      · rename_i quote
        rw [if_pos quote]
        split at read
        · rename_i key' left found
          rw [scanString_append behind found]
          rw [Option.map_eq_some_iff] at read
          rcases read with ⟨value, colon, same⟩
          cases same
          dsimp only
          rw [expect_append colon, Option.map_some]
          cases stops : skip value with
          | nil => exact absurd stops more
          | cons first later => rw [skip_append stops, List.cons_append]
        · cases read
      · cases read

end Tokens

theorem scanValue_nil (fuel : Nat) : scanValue fuel [] = none := by
  cases fuel <;> rw [scanValue]

theorem scanMembers_nil (fuel : Nat) : scanMembers fuel [] = none := by
  cases fuel with
  | zero => rw [scanMembers]
  | succ fuel =>
      rw [scanMembers]
      rfl

theorem scanItems_nil (fuel : Nat) : scanItems fuel [] = none := by
  cases fuel with
  | zero => rw [scanItems]
  | succ fuel =>
      rw [scanItems, scanValue_nil]

/-- What is read stays what it is with more fuel and behind it more text. -/
structure Extends (fuel : Nat) : Prop where
  value : ∀ {text rest behind : List Char} {value : Value} {more : Nat},
    scanValue fuel text = some (value, rest) →
      Delimited (rest ++ behind) → fuel ≤ more →
        scanValue more (text ++ behind) = some (value, rest ++ behind)
  members : ∀ {text rest behind : List Char}
      {members : List (List Char × Value)} {more : Nat},
    scanMembers fuel text = some (members, rest) → fuel ≤ more →
      scanMembers more (text ++ behind) = some (members, rest ++ behind)
  items : ∀ {text rest behind : List Char} {items : List Value} {more : Nat},
    scanItems fuel text = some (items, rest) → fuel ≤ more →
      scanItems more (text ++ behind) = some (items, rest ++ behind)

section Steps

variable {fuel : Nat} (induction : Extends fuel)
  {text rest behind : List Char} {more : Nat}

include induction

theorem Extends.object
    {value : Value}
    (read : scanValue (fuel + 1) ('{' :: text) = some (value, rest))
    (enough : fuel ≤ more) :
    scanValue (more + 1) ('{' :: (text ++ behind)) =
      some (value, rest ++ behind) := by
  rw [scanValue, if_neg (by decide), if_pos rfl] at read ⊢
  split at read
  · rename_i left closed
    cases read
    rw [expect_append closed]
  · rename_i opened
    rw [Option.map_eq_some_iff] at read
    rcases read with ⟨⟨members, left⟩, found, same⟩
    cases same
    cases stops : skip text with
    | nil =>
        rw [stops, scanMembers_nil] at found
        cases found
    | cons char later =>
        have some_ : skip text ≠ [] := stops ▸ List.cons_ne_nil _ _
        rw [expect_append_none opened some_, skip_append stops,
          ← List.cons_append, ← stops, induction.members found enough]
        rfl

theorem Extends.array
    {value : Value}
    (read : scanValue (fuel + 1) ('[' :: text) = some (value, rest))
    (enough : fuel ≤ more) :
    scanValue (more + 1) ('[' :: (text ++ behind)) =
      some (value, rest ++ behind) := by
  rw [scanValue, if_neg (by decide), if_neg (by decide), if_pos rfl]
    at read ⊢
  split at read
  · rename_i left closed
    cases read
    rw [expect_append closed]
  · rename_i opened
    rw [Option.map_eq_some_iff] at read
    rcases read with ⟨⟨items, left⟩, found, same⟩
    cases same
    cases stops : skip text with
    | nil =>
        rw [stops, scanItems_nil] at found
        cases found
    | cons char later =>
        have some_ : skip text ≠ [] := stops ▸ List.cons_ne_nil _ _
        rw [expect_append_none opened some_, skip_append stops,
          ← List.cons_append, ← stops, induction.items found enough]
        rfl

theorem Extends.valueStep
    {value : Value}
    (read : scanValue (fuel + 1) text = some (value, rest))
    (delimited : Delimited (rest ++ behind)) (enough : fuel ≤ more) :
    scanValue (more + 1) (text ++ behind) =
      some (value, rest ++ behind) := by
  cases text with
  | nil => cases (scanValue_nil _).symm.trans read
  | cons char text =>
      by_cases quote : char = '"'
      · rw [scanValue, if_pos quote, Option.map_eq_some_iff] at read
        rcases read with ⟨⟨string, left⟩, found, same⟩
        cases same
        rw [List.cons_append, scanValue, if_pos quote,
          scanString_append behind found]
        rfl
      by_cases brace : char = '{'
      · subst brace
        exact induction.object read enough
      by_cases bracket : char = '['
      · subst bracket
        exact induction.array read enough
      rw [scanValue, if_neg quote, if_neg brace, if_neg bracket] at read
      rw [List.cons_append, scanValue, if_neg quote, if_neg brace,
        if_neg bracket]
      exact scanAtom_append read delimited

/-- Where an item is followed by a token, more text may stand behind it. -/
theorem Extends.before
    {token : Char} {left : List Char} {value : Value}
    (read : scanValue fuel text = some (value, left))
    (found : expect token left = some rest)
    (closing : delimiter token = true) (enough : fuel ≤ more) :
    scanValue more (text ++ behind) = some (value, left ++ behind) :=
  induction.value read (delimited_of_expect found closing behind) enough

theorem Extends.membersStep
    {members : List (List Char × Value)}
    (read : scanMembers (fuel + 1) text = some (members, rest))
    (enough : fuel ≤ more) :
    scanMembers (more + 1) (text ++ behind) =
      some (members, rest ++ behind) := by
  rw [scanMembers] at read ⊢
  split at read
  · cases read
  · rename_i key left named
    split at read
    · cases read
    · rename_i value right found
      have more_ : left ≠ [] := by
        rintro rfl
        cases (scanValue_nil _).symm.trans found
      rw [scanKey_append behind named more_]
      dsimp only
      split at read
      · rename_i closed
        cases read
        rw [induction.before found closed rfl enough]
        dsimp only
        rw [expect_append closed]
      · rename_i opened
        split at read
        · rename_i later comma
          rw [Option.map_eq_some_iff] at read
          rcases read with ⟨⟨others, last⟩, inside, same⟩
          cases same
          rw [induction.before found comma rfl enough]
          dsimp only
          have some_ : skip right ≠ [] :=
            expect_eq_some.mp comma ▸ List.cons_ne_nil _ _
          rw [expect_append_none opened some_, expect_append comma]
          dsimp only
          cases begins : skip later with
          | nil =>
              rw [begins, scanMembers_nil] at inside
              cases inside
          | cons char tail =>
              rw [skip_append begins, ← List.cons_append, ← begins,
                induction.members inside enough]
              rfl
        · cases read

theorem Extends.itemsStep
    {items : List Value}
    (read : scanItems (fuel + 1) text = some (items, rest))
    (enough : fuel ≤ more) :
    scanItems (more + 1) (text ++ behind) =
      some (items, rest ++ behind) := by
  rw [scanItems] at read ⊢
  split at read
  · cases read
  · rename_i value right found
    split at read
    · rename_i closed
      cases read
      rw [induction.before found closed rfl enough]
      dsimp only
      rw [expect_append closed]
    · rename_i opened
      split at read
      · rename_i later comma
        rw [Option.map_eq_some_iff] at read
        rcases read with ⟨⟨others, last⟩, inside, same⟩
        cases same
        rw [induction.before found comma rfl enough]
        dsimp only
        have some_ : skip right ≠ [] :=
          expect_eq_some.mp comma ▸ List.cons_ne_nil _ _
        rw [expect_append_none opened some_, expect_append comma]
        dsimp only
        cases begins : skip later with
        | nil =>
            rw [begins, scanItems_nil] at inside
            cases inside
        | cons char tail =>
            rw [skip_append begins, ← List.cons_append, ← begins,
              induction.items inside enough]
            rfl
      · cases read

end Steps

/-- Reading is stable under more fuel and more text, one token at a time. -/
theorem extends_all (fuel : Nat) : Extends fuel := by
  have succ {fuel more : Nat} (enough : fuel + 1 ≤ more) :
      ∃ less, more = less + 1 ∧ fuel ≤ less :=
    ⟨more - 1, by omega, by omega⟩
  induction fuel with
  | zero =>
      constructor
      · intro text rest behind value more read
        rw [scanValue] at read
        cases read
      · intro text rest behind members more read
        rw [scanMembers] at read
        cases read
      · intro text rest behind items more read
        rw [scanItems] at read
        cases read
  | succ fuel induction =>
      constructor
      · intro text rest behind value more read delimited enough
        obtain ⟨less, rfl, fits⟩ := succ enough
        exact induction.valueStep read delimited fits
      · intro text rest behind members more read enough
        obtain ⟨less, rfl, fits⟩ := succ enough
        exact induction.membersStep read fits
      · intro text rest behind items more read enough
        obtain ⟨less, rfl, fits⟩ := succ enough
        exact induction.itemsStep read fits

/-! ## Enough fuel -/

theorem length_skip_le (text : List Char) :
    (skip text).length ≤ text.length :=
  (List.dropWhile_suffix white).length_le

theorem length_expect_lt
    {token : Char} {text rest : List Char}
    (found : expect token text = some rest) :
    rest.length < text.length := by
  have stops := congrArg List.length (expect_eq_some.mp found)
  have shorter := length_skip_le text
  rw [List.length_cons] at stops
  omega

theorem length_scanKey_lt
    {text key rest : List Char} (read : scanKey text = some (key, rest)) :
    rest.length < text.length := by
  cases text with
  | nil => cases read
  | cons char text =>
      rw [scanKey] at read
      split at read
      · split at read
        · rename_i key' left found
          rw [Option.map_eq_some_iff] at read
          rcases read with ⟨value, colon, same⟩
          cases same
          have string := scanString_length found
          have behind := length_expect_lt colon
          have spaces := length_skip_le value
          rw [List.length_cons]
          omega
        · cases read
      · cases read

theorem length_scanWhole_lt
    {text whole rest : List Char}
    (read : scanWhole text = some (whole, rest)) :
    rest.length < text.length := by
  cases text with
  | nil => cases read
  | cons char text =>
      have digits := (@List.dropWhile_suffix _ text Char.isDigit).length_le
      rw [scanWhole] at read
      rw [List.length_cons]
      split at read
      · cases read
        exact Nat.lt_succ_self _
      · split at read
        · cases read
          omega
        · cases read

theorem length_scanMarked_le
    {marker : Char → Bool} {signed : Bool} {text part rest : List Char}
    (read : scanMarked marker signed text = (part, rest)) :
    rest.length ≤ text.length := by
  cases text with
  | nil => cases read; exact Nat.le_refl _
  | cons char text =>
      rw [scanMarked] at read
      by_cases marked : marker char = true
      · rw [if_pos marked] at read
        dsimp only at read
        generalize (if signed then
          (text.take 1).filter fun s => s = '+' || s = '-' else []) = sign
          at read
        split at read
        · cases read
          exact Nat.le_refl _
        · cases read
          refine (List.dropWhile_suffix _).length_le.trans ?_
          rw [List.length_drop, List.length_cons]
          omega
      · rw [if_neg marked] at read
        cases read
        exact Nat.le_refl _

theorem length_scanAtom_lt
    {text rest : List Char} {value : Value}
    (read : scanAtom text = some (value, rest)) :
    rest.length < text.length := by
  rw [scanAtom] at read
  split at read
  · rename_i number left found
    cases read
    obtain ⟨whole, rest₁, fraction, rest₂, exponent, first, second, third,
      -⟩ := scanNumber_eq_some.mp found
    have digits := length_scanWhole_lt first
    have behind := length_scanMarked_le second
    have last := length_scanMarked_le third
    rw [List.length_drop] at digits
    omega
  · obtain ⟨word, known, rfl⟩ := scanLiteral_eq_some read
    have some_ : word ≠ [] := by
      rintro rfl
      simp [literals] at known
    have positive := List.length_pos_iff.mpr some_
    rw [List.length_append]
    omega

/-- What is left is shorter than the text. -/
structure Shrinks (fuel : Nat) : Prop where
  value : ∀ {text rest : List Char} {value : Value},
    scanValue fuel text = some (value, rest) → rest.length < text.length
  members : ∀ {text rest : List Char} {members : List (List Char × Value)},
    scanMembers fuel text = some (members, rest) →
      rest.length < text.length
  items : ∀ {text rest : List Char} {items : List Value},
    scanItems fuel text = some (items, rest) → rest.length < text.length

theorem shrinks_all (fuel : Nat) : Shrinks fuel := by
  induction fuel with
  | zero =>
      constructor
      · intro text rest value read
        rw [scanValue] at read
        cases read
      · intro text rest members read
        rw [scanMembers] at read
        cases read
      · intro text rest items read
        rw [scanItems] at read
        cases read
  | succ fuel induction =>
      constructor
      · intro text rest value read
        cases text with
        | nil => cases (scanValue_nil _).symm.trans read
        | cons char text =>
            have spaces := length_skip_le text
            rw [scanValue] at read
            rw [List.length_cons]
            split at read
            · rw [Option.map_eq_some_iff] at read
              rcases read with ⟨⟨string, left⟩, found, same⟩
              cases same
              exact Nat.lt_succ_of_lt (scanString_length found)
            split at read
            · split at read
              · rename_i left closed
                cases read
                exact Nat.lt_succ_of_lt (length_expect_lt closed)
              · rw [Option.map_eq_some_iff] at read
                rcases read with ⟨⟨members, left⟩, found, same⟩
                cases same
                have inside := induction.members found
                omega
            split at read
            · split at read
              · rename_i left closed
                cases read
                exact Nat.lt_succ_of_lt (length_expect_lt closed)
              · rw [Option.map_eq_some_iff] at read
                rcases read with ⟨⟨items, left⟩, found, same⟩
                cases same
                have inside := induction.items found
                omega
            · exact length_scanAtom_lt read
      · intro text rest members read
        rw [scanMembers] at read
        split at read
        · cases read
        rename_i key left named
        have keyed := length_scanKey_lt named
        split at read
        · cases read
        rename_i value right found
        have valued := induction.value found
        split at read
        · rename_i closed
          cases read
          have behind := length_expect_lt closed
          omega
        split at read
        · rename_i later comma
          rw [Option.map_eq_some_iff] at read
          rcases read with ⟨⟨others, last⟩, inside, same⟩
          cases same
          have behind := length_expect_lt comma
          have spaces := length_skip_le later
          have others := induction.members inside
          omega
        · cases read
      · intro text rest items read
        rw [scanItems] at read
        split at read
        · cases read
        rename_i value right found
        have valued := induction.value found
        split at read
        · rename_i closed
          cases read
          have behind := length_expect_lt closed
          omega
        split at read
        · rename_i later comma
          rw [Option.map_eq_some_iff] at read
          rcases read with ⟨⟨others, last⟩, inside, same⟩
          cases same
          have behind := length_expect_lt comma
          have spaces := length_skip_le later
          have others := induction.items inside
          omega
        · cases read

/-- Two units of fuel for a character are enough. -/
structure Enough (fuel : Nat) : Prop where
  value : ∀ {text : List Char} {more : Nat},
    2 * text.length < fuel → 2 * text.length < more →
      scanValue fuel text = scanValue more text
  members : ∀ {text : List Char} {more : Nat},
    2 * text.length < fuel → 2 * text.length < more →
      scanMembers fuel text = scanMembers more text
  items : ∀ {text : List Char} {more : Nat},
    2 * text.length + 1 < fuel → 2 * text.length + 1 < more →
      scanItems fuel text = scanItems more text

theorem enough_all (fuel : Nat) : Enough fuel := by
  have succ {length more : Nat} (short : length < more) :
      ∃ less, more = less + 1 := ⟨more - 1, by omega⟩
  induction fuel with
  | zero =>
      constructor <;> intro text more short <;> exact absurd short (by omega)
  | succ fuel induction =>
      constructor
      · intro text more short long
        obtain ⟨more, rfl⟩ := succ long
        cases text with
        | nil => rw [scanValue_nil, scanValue_nil]
        | cons char text =>
            have spaces := length_skip_le text
            rw [List.length_cons] at short long
            rw [scanValue, scanValue,
              @Enough.members _ induction (skip text) more (by omega)
                (by omega),
              @Enough.items _ induction (skip text) more (by omega)
                (by omega)]
      · intro text more short long
        obtain ⟨more, rfl⟩ := succ long
        rw [scanMembers, scanMembers]
        cases named : scanKey text with
        | none => rfl
        | some found =>
            obtain ⟨key, left⟩ := found
            have keyed := length_scanKey_lt named
            dsimp only
            rw [@Enough.value _ induction left more (by omega) (by omega)]
            cases valued : scanValue more left with
            | none => rfl
            | some found =>
                obtain ⟨value, right⟩ := found
                have shorter := (shrinks_all more).value valued
                dsimp only
                cases expect '}' right with
                | some _ => rfl
                | none =>
                    cases comma : expect ',' right with
                    | none => rfl
                    | some later =>
                        have behind := length_expect_lt comma
                        have spaces := length_skip_le later
                        dsimp only
                        rw [@Enough.members _ induction (skip later) more
                          (by omega) (by omega)]
      · intro text more short long
        obtain ⟨more, rfl⟩ := succ long
        rw [scanItems, scanItems,
          @Enough.value _ induction text more (by omega) (by omega)]
        cases valued : scanValue more text with
        | none => rfl
        | some found =>
            obtain ⟨value, right⟩ := found
            have shorter := (shrinks_all more).value valued
            dsimp only
            cases expect ']' right with
            | some _ => rfl
            | none =>
                cases comma : expect ',' right with
                | none => rfl
                | some later =>
                    have behind := length_expect_lt comma
                    have spaces := length_skip_le later
                    dsimp only
                    rw [@Enough.items _ induction (skip later) more
                      (by omega) (by omega)]

/-! ## Whole texts -/

/-- A text is refused by its tokens only. -/
theorem loads_eq {fuel : Nat} {text : List Char}
    (enough : 2 * text.length < fuel) :
    loads text =
      match scanValue fuel (skip text) with
      | some (value, rest) => if skip rest = [] then some value else none
      | none => none := by
  have spaces := length_skip_le text
  rw [loads, @Enough.value _ (enough_all _) (skip text) fuel (by omega)
    (by omega)]

theorem skip_of_head
    {char : Char} (solid : white char = false) (text : List Char) :
    skip (char :: text) = char :: text := by
  rw [skip, List.dropWhile_cons_of_neg]
  rw [solid]
  exact Bool.false_ne_true

/--
A beginning of an object is refused unless only white space is missing: the end
of an object is not mistaken.
-/
theorem loads_of_cut
    {part behind : List Char} {whole value : Value}
    (opens : (part ++ behind).head? = some '{')
    (read : loads (part ++ behind) = some whole)
    (found : loads part = some value) :
    value = whole ∧ skip behind = [] := by
  cases part with
  | nil =>
      rw [loads_eq (Nat.lt_succ_self _), show skip [] = [] from rfl,
        scanValue_nil] at found
      cases found
  | cons char part =>
      cases opens
      have solid : white '{' = false := rfl
      rw [loads, List.cons_append, skip_of_head solid] at read
      rw [loads, skip_of_head solid] at found
      split at found
      · rename_i value' left inner
        split at found
        · cases found
          rw [(extends_all _).object inner (by
            simp only [List.length_cons, List.length_append]; omega)] at read
          dsimp only at read
          split at read
          · rename_i spaces
            refine ⟨Option.some_inj.mp read, ?_⟩
            rw [skip, List.dropWhile_eq_nil_iff] at spaces ⊢
            exact fun other member =>
              spaces other (List.mem_append_right _ member)
          · cases read
        · cases found
      · cases found

end MatchingBench.Lib.Json
