import MatchingBench.Lib.Json

/-!
# Texts that are read as JSON

Rules by which a text stands for a value: constants, numbers, strings spelled
character by character, and objects whose members stand for theirs.
-/

set_option autoImplicit false

namespace MatchingBench.Lib.Json

open MatchingBench.Lib.DecimalText

/-! ## Texts that are read -/

/-- A text that stands for a value, in front of whatever may follow. -/
structure Scans (text : List Char) (value : Value) : Prop where
  read : ∀ {fuel : Nat} {rest : List Char}, 2 * text.length < fuel →
    Delimited rest → scanValue fuel (text ++ rest) = some (value, rest)

/-- What is read with some fuel to the end of the text is read anywhere. -/
theorem Scans.of_scan
    {text : List Char} {value : Value} {fuel : Nat}
    (read : scanValue fuel text = some (value, [])) : Scans text value := by
  constructor
  intro more rest enough delimited
  by_cases fits : fuel ≤ more
  · exact (extends_all fuel).value read delimited fits
  · have whole := (enough_all fuel).value (by omega) enough
    rw [read] at whole
    exact (extends_all more).value whole.symm delimited (Nat.le_refl _)

theorem Scans.atom
    {text : List Char} {value : Value} {first : Char}
    (head : text.head? = some first)
    (quote : first ≠ '"') (brace : first ≠ '{') (bracket : first ≠ '[')
    (read : scanAtom text = some (value, [])) : Scans text value := by
  cases text with
  | nil => cases head
  | cons char text =>
      cases head
      refine @Scans.of_scan _ _ 1 ?_
      rw [scanValue, if_neg quote, if_neg brace, if_neg bracket]
      exact read

theorem scans_true : Scans "true".toList (.bool true) :=
  .atom rfl (by decide) (by decide) (by decide)
    (by simpa using @scanAtom_word "true".toList _ (by simp [literals]) [])

theorem scans_false : Scans "false".toList (.bool false) :=
  .atom rfl (by decide) (by decide) (by decide)
    (by simpa using @scanAtom_word "false".toList _ (by simp [literals]) [])

theorem scans_null : Scans "null".toList .null :=
  .atom rfl (by decide) (by decide) (by decide)
    (by simpa using @scanAtom_word "null".toList _ (by simp [literals]) [])

/-- The text of a number. -/
structure NumberText where
  text : List Char
  number : scanNumber text = some (text, [])

theorem scans_number (written : NumberText) :
    Scans written.text (.number written.text) := by
  obtain ⟨text, number⟩ := written
  have read : scanAtom text = some (.number text, []) := by
    rw [scanAtom, number]
  have other {char : Char} (opens : text.head? = some char)
      (odd : ∀ rest, scanNumber (char :: rest) = none) : False := by
    cases text with
    | nil => cases opens
    | cons first text =>
        cases opens
        rw [odd] at number
        cases number
  cases text with
  | nil => cases number
  | cons first text =>
      refine .atom rfl ?_ ?_ ?_ read
      · rintro rfl
        exact other rfl fun rest => rfl
      · rintro rfl
        exact other rfl fun rest => rfl
      · rintro rfl
        exact other rfl fun rest => rfl

/-- No number but zero is printed with a zero in front. -/
theorem leading_zero (value : Nat) :
    ∃ first rest, decimal value = first :: rest ∧
      (first = '0' → rest = []) := by
  induction value using Nat.strongRecOn with
  | ind value induction =>
      by_cases small : value < 10
      · exact ⟨value.digitChar, [], Nat.toDigits_of_lt_base small,
          fun _ => rfl⟩
      · obtain ⟨first, rest, printed, zero⟩ :=
          induction (value / 10) (by omega)
        have shown : decimal value =
            decimal (value / 10) ++ [Nat.digitChar (value % 10)] :=
          Nat.toDigits_of_base_le (by decide) (by omega)
        refine ⟨first, rest ++ [Nat.digitChar (value % 10)], ?_, ?_⟩
        · rw [shown, printed, List.cons_append]
        · intro first_
          have alone := zero first_
          subst alone first_
          have quotient : value / 10 = 0 := by
            apply decimal_injective
            rw [printed]
            rfl
          omega

theorem scanWhole_decimal (value : Nat) :
    scanWhole (decimal value) = some (decimal value, []) := by
  obtain ⟨first, rest, printed, zero⟩ := leading_zero value
  have digits : ∀ char ∈ first :: rest, char.isDigit = true := by
    intro char member
    exact isDigit_of_mem_decimal (printed ▸ member)
  rw [printed, scanWhole]
  split
  · rename_i isZero
    rw [zero isZero, isZero]
  · have behind : ∀ char ∈ rest, char.isDigit = true :=
      fun char member => digits char (List.mem_cons_of_mem _ member)
    rw [if_pos (digits first List.mem_cons_self),
      List.takeWhile_eq_self_iff.mpr behind,
      List.dropWhile_eq_nil_iff.mpr behind]

theorem scanNumber_signedDecimal (value : Int) :
    scanNumber (signedDecimal value) = some (signedDecimal value, []) := by
  have finish {text sign : List Char} {magnitude : Nat}
      (signed : (text.take 1).filter (· = '-') = sign)
      (whole : text = sign ++ decimal magnitude) :
      scanNumber text = some (text, []) := by
    refine scanNumber_eq_some.mpr
      ⟨decimal magnitude, [], [], [], [], ?_, rfl, rfl, ?_⟩
    · rw [signed, whole, List.drop_left]
      exact scanWhole_decimal magnitude
    · rw [signed, List.append_nil, List.append_nil]
      exact whole.symm
  cases value with
  | ofNat value =>
      obtain ⟨first, rest, printed, -⟩ := leading_zero value
      have digit : first.isDigit = true :=
        isDigit_of_mem_decimal (printed ▸ List.mem_cons_self)
      refine @finish (decimal value) [] value ?_ rfl
      rw [printed, List.take_succ_cons, List.take_zero,
        List.filter_cons_of_neg]
      · rfl
      · rintro minus
        rw [decide_eq_true_eq] at minus
        subst minus
        cases digit
  | negSucc value => exact @finish ('-' :: decimal (value + 1)) ['-'] _ rfl rfl

/-- A printed integer. -/
def printedInt (value : Int) : NumberText where
  text := signedDecimal value
  number := scanNumber_signedDecimal value

theorem scans_signedDecimal (value : Int) :
    Scans (signedDecimal value) (.number (signedDecimal value)) :=
  scans_number (printedInt value)

theorem scans_decimal (value : Nat) :
    Scans (decimal value) (.number (decimal value)) :=
  scans_signedDecimal (.ofNat value)

/-- What a piece of the text of a string stands for. -/
def Spells (piece : List Char) (char : Char) : Prop :=
  ∀ rest, scanString (piece ++ rest) = (scanString rest).map (pushFront char)

theorem scanString_spelled
    {spell : Char → List Char} (spells : ∀ char, Spells (spell char) char)
    (string rest : List Char) :
    scanString (string.flatMap spell ++ '"' :: rest) =
      some (string, rest) := by
  induction string with
  | nil => exact scanString_quote rest
  | cons char string induction =>
      rw [List.flatMap_cons, List.append_assoc, spells, induction]
      rfl

/-- A text between quotes. -/
def quoted (text : List Char) : List Char :=
  '"' :: (text ++ ['"'])

theorem scans_string
    {text string : List Char}
    (read : ∀ rest, scanString (text ++ '"' :: rest) = some (string, rest)) :
    Scans (quoted text) (.string string) := by
  refine @Scans.of_scan _ _ 1 ?_
  rw [quoted, scanValue, if_pos rfl, read]
  rfl

/-- A character that stands for itself in a string. -/
def plain (char : Char) : Bool :=
  char ≠ '"' && char ≠ '\\' && 32 ≤ char.toNat

theorem scanString_of_plain
    {string : List Char} (all : ∀ char ∈ string, plain char = true)
    (rest : List Char) :
    scanString (string ++ '"' :: rest) = some (string, rest) := by
  induction string with
  | nil => exact scanString_quote rest
  | cons char string induction =>
      have here := all char List.mem_cons_self
      simp only [plain, Bool.and_eq_true, decide_eq_true_eq] at here
      obtain ⟨⟨unquoted, unescaped⟩, printable⟩ := here
      rw [List.cons_append, scanString_plain unquoted unescaped (by omega),
        induction fun other member => all other (List.mem_cons_of_mem _ member)]
      rfl

/-! ## Objects -/

/-- The separators between the tokens of an object. -/
structure Layout where
  opening : List Char
  between : List Char
  closing : List Char
  white_opening : opening.all white = true
  white_between : between.all white = true
  white_closing : closing.all white = true

/-- A member as it is written: its name and the text of its value. -/
def memberText (member : List Char × List Char) : List Char :=
  quoted member.1 ++ ':' :: ' ' :: member.2

/-- The members of an object and its closing brace. -/
def membersText (layout : Layout) : List (List Char × List Char) → List Char
  | [] => layout.closing ++ ['}']
  | [member] => memberText member ++ layout.closing ++ ['}']
  | member :: members =>
      memberText member ++ ',' :: layout.between ++
        membersText layout members

/-- An object as it is written. -/
def objectText (layout : Layout) (members : List (List Char × List Char)) :
    List Char :=
  '{' :: (layout.opening ++ membersText layout members)

/-- A member that is read as a name and a value. -/
structure Member (written : List Char × List Char)
    (read : List Char × Value) : Prop where
  name : written.1 = read.1
  plain : ∀ char ∈ written.1, plain char = true
  value : Scans written.2 read.2

theorem skip_spaces
    {spaces : List Char} {char : Char} (all : spaces.all white = true)
    (solid : white char = false) (rest : List Char) :
    skip (spaces ++ char :: rest) = char :: rest := by
  rw [skip, List.dropWhile_append_of_pos (List.all_eq_true.mp all)]
  exact skip_of_head solid rest

theorem expect_here
    {token : Char} (solid : white token = false) (rest : List Char) :
    expect token (token :: rest) = some rest :=
  expect_eq_some.mpr (skip_of_head solid rest)

theorem expect_other
    {char token : Char} (solid : white char = false) (other : char ≠ token)
    (rest : List Char) :
    expect token (char :: rest) = none := by
  rw [expect, skip_of_head solid]
  exact if_neg other

theorem expect_spaces
    {spaces : List Char} {token : Char} (all : spaces.all white = true)
    (solid : white token = false) (rest : List Char) :
    expect token (spaces ++ token :: rest) = some rest :=
  expect_eq_some.mpr (skip_spaces all solid rest)

theorem scanAtom_white
    {char : Char} (space : white char = true) (text : List Char) :
    scanAtom (char :: text) = none := by
  simp only [white, Bool.or_eq_true, decide_eq_true_eq] at space
  rcases space with ((rfl | rfl) | rfl) | rfl <;>
    simp [scanAtom, scanNumber, scanWhole, scanLiteral, literals,
      List.dropPrefix?, Char.isDigit]

/-- No value starts with white space. -/
theorem Scans.solid {text : List Char} {value : Value}
    (scans : Scans text value) :
    ∃ char rest, text = char :: rest ∧ white char = false := by
  have read := @Scans.read _ _ scans (2 * text.length + 1) []
    (Nat.lt_succ_self _) (fun _ head => nomatch head)
  rw [List.append_nil] at read
  cases text with
  | nil => cases (scanValue_nil _).symm.trans read
  | cons char text =>
      refine ⟨char, text, rfl, Bool.eq_false_iff.mpr fun space => ?_⟩
      have other {token : Char} (solid : white token = false) :
          char ≠ token := by
        rintro rfl
        rw [space] at solid
        cases solid
      rw [scanValue, if_neg (other rfl), if_neg (other rfl),
        if_neg (other rfl), scanAtom_white space] at read
      cases read

section Objects

variable {layout : Layout} {written : List Char × List Char}
  {read : List Char × Value} {writtens : List (List Char × List Char)}
  {reads : List (List Char × Value)}

theorem Member.key (member : Member written read) (tail : List Char) :
    scanKey (memberText written ++ tail) =
      some (read.1, written.2 ++ tail) := by
  obtain ⟨first, rest, shown, solid⟩ := member.value.solid
  have behind : memberText written ++ tail =
      '"' :: (written.1 ++ '"' :: (':' :: ' ' :: (written.2 ++ tail))) := by
    simp [memberText, quoted]
  rw [behind, scanKey, if_pos rfl, scanString_of_plain member.plain]
  dsimp only
  rw [expect_here (rfl : white ':' = false), Option.map_some, shown,
    List.cons_append]
  have spaces : [' '].all white = true := rfl
  rw [show ' ' :: first :: (rest ++ tail) =
    [' '] ++ first :: (rest ++ tail) from rfl, skip_spaces spaces solid,
    member.name]

theorem membersText_eq_cons
    (nonempty : writtens ≠ []) :
    ∃ rest, membersText layout writtens = '"' :: rest := by
  cases writtens with
  | nil => exact absurd rfl nonempty
  | cons written writtens =>
      cases writtens with
      | nil => exact ⟨_, rfl⟩
      | cons next writtens => exact ⟨_, rfl⟩

theorem membersText_last
    (layout : Layout) (writtens : List (List Char × List Char)) :
    ∃ front, membersText layout writtens = front ++ ['}'] := by
  fun_induction membersText layout writtens with
  | case1 => exact ⟨layout.closing, rfl⟩
  | case2 written => exact ⟨memberText written ++ layout.closing, rfl⟩
  | case3 written writtens _ induction =>
      obtain ⟨front, last⟩ := induction
      exact ⟨memberText written ++ ',' :: layout.between ++ front, by
        rw [last, List.append_assoc, List.append_assoc, List.append_assoc]⟩

/-- An object ends with its brace. -/
theorem objectText_last
    (layout : Layout) (writtens : List (List Char × List Char)) :
    ∃ front, objectText layout writtens = front ++ ['}'] := by
  obtain ⟨front, last⟩ := membersText_last layout writtens
  exact ⟨'{' :: (layout.opening ++ front), by
    rw [objectText, last]
    simp⟩

theorem membersText_cons_cons
    (next : List Char × List Char) :
    membersText layout (written :: next :: writtens) =
      memberText written ++ ',' :: layout.between ++
        membersText layout (next :: writtens) := by
  rw [membersText]
  exact List.cons_ne_nil _ _

theorem scanMembers_membersText
    (nonempty : writtens ≠ [])
    (members : List.Forall₂ Member writtens reads) {fuel : Nat}
    (enough : 2 * (membersText layout writtens).length < fuel)
    (rest : List Char) :
    scanMembers fuel (membersText layout writtens ++ rest) =
      some (reads, rest) := by
  induction members generalizing fuel with
  | nil => exact absurd rfl nonempty
  | @cons written read writtens reads member members induction =>
      obtain ⟨fuel, rfl⟩ : ∃ less, fuel = less + 1 :=
        ⟨fuel - 1, by omega⟩
      cases members with
      | nil =>
          simp only [membersText, memberText, List.length_append,
            List.length_cons, List.length_nil] at enough
          have stops := expect_spaces layout.white_closing
            (rfl : white '}' = false) rest
          rw [membersText, List.append_assoc, List.append_assoc,
            scanMembers, member.key]
          dsimp only
          rw [List.singleton_append, member.value.read (by omega) (by
            simpa using delimited_of_expect stops rfl [])]
          dsimp only
          rw [stops]
      | @cons second _ others _ next later =>
          have more : second :: others ≠ [] := List.cons_ne_nil _ _
          rw [membersText_cons_cons] at enough ⊢
          simp only [memberText, List.length_append, List.length_cons]
            at enough
          obtain ⟨tail, begins⟩ := @membersText_eq_cons layout _ more
          have stops : skip (layout.between ++
              (membersText layout (second :: others) ++ rest)) =
              membersText layout (second :: others) ++ rest := by
            rw [begins]
            exact skip_spaces layout.white_between rfl _
          rw [List.append_assoc, List.append_assoc, scanMembers,
            member.key]
          dsimp only
          rw [List.cons_append, member.value.read (by omega)
            (fun char head => by cases head; rfl)]
          dsimp only
          rw [expect_other (rfl : white ',' = false) (by decide),
            expect_here (rfl : white ',' = false)]
          dsimp only
          rw [stops, induction more (by omega)]
          rfl

/-- A member is read by its name, spelled without escapes. -/
theorem Member.of
    {name text : List Char} {value : Value} (all : name.all Json.plain = true)
    (scans : Scans text value) : Member (name, text) (name, value) where
  name := rfl
  plain := List.all_eq_true.mp all
  value := scans

/-- An object is read member by member. -/
theorem scans_object
    (nonempty : writtens ≠ [])
    (members : List.Forall₂ Member writtens reads) :
    Scans (objectText layout writtens) (.object reads) := by
  constructor
  intro fuel rest enough _
  obtain ⟨fuel, rfl⟩ : ∃ less, fuel = less + 1 := ⟨fuel - 1, by omega⟩
  simp only [objectText, List.length_cons, List.length_append] at enough
  obtain ⟨tail, begins⟩ := @membersText_eq_cons layout _ nonempty
  have stops : skip (layout.opening ++
      (membersText layout writtens ++ rest)) =
        membersText layout writtens ++ rest := by
    rw [begins]
    exact skip_spaces layout.white_opening rfl _
  have opened : expect '}' (layout.opening ++
      (membersText layout writtens ++ rest)) = none := by
    rw [expect, stops, begins]
    exact if_neg (by decide)
  rw [objectText, List.cons_append, List.append_assoc, scanValue,
    if_neg (by decide), if_pos rfl, opened]
  dsimp only
  rw [stops, scanMembers_membersText nonempty members (by omega)]
  rfl

end Objects

/-- A text that stands for a value is read as the value. -/
theorem Scans.loads
    {text : List Char} {value : Value} (scans : Scans text value)
    {behind : List Char} (spaces : behind.all white = true) :
    loads (text ++ behind) = some value := by
  obtain ⟨char, rest, rfl, solid⟩ := scans.solid
  have dropped : skip behind = [] :=
    List.dropWhile_eq_nil_iff.mpr (List.all_eq_true.mp spaces)
  have delimited : Delimited behind := by
    intro first head
    rw [delimiter, List.all_eq_true.mp spaces first
      (List.mem_of_mem_head? head)]
    rfl
  have read := @Scans.read _ _ scans
    (2 * (char :: rest ++ behind).length + 1) behind (by
      rw [List.length_append]; omega) delimited
  rw [Json.loads]
  rw [List.cons_append] at read ⊢
  rw [skip_of_head solid, read]
  dsimp only
  rw [if_pos dropped]


end MatchingBench.Lib.Json
