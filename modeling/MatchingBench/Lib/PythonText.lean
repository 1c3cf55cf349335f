import MatchingBench.Lib.TextScan
import Mathlib.Data.List.DropRight

/-!
# Reading text the way Python does

Text files are read with universal newlines, `split` cuts at a separator or
at white space, and `int` takes surrounding white space, a sign and digits that
single underscores may separate.  White space and digits are those of ASCII,
except where `split` cuts at white space.
-/

set_option autoImplicit false

namespace MatchingBench.Lib.PythonText

open MatchingBench.Lib.DecimalText
open MatchingBench.Lib.TextScan (lines lines_split words)

/-! ## Files -/

/-- Carriage returns, alone or before a newline, are read as newlines. -/
def universalNewlines : List Char → List Char
  | [] => []
  | '\r' :: '\n' :: text => '\n' :: universalNewlines text
  | '\r' :: text => '\n' :: universalNewlines text
  | char :: text => char :: universalNewlines text

/-- Text without carriage returns is read as it is. -/
theorem universalNewlines_append
    {front : List Char} (free : '\r' ∉ front) (rest : List Char) :
    universalNewlines (front ++ rest) = front ++ universalNewlines rest := by
  induction front with
  | nil => rfl
  | cons char front induction =>
      rw [List.mem_cons, not_or] at free
      have other : char ≠ '\r' := Ne.symm free.1
      rw [List.cons_append, universalNewlines.eq_4 _ _
        (fun _ isReturn _ => other isReturn) other, induction free.2]
      rfl

theorem universalNewlines_of_not_mem
    {text : List Char} (free : '\r' ∉ text) :
    universalNewlines text = text := by
  have whole := universalNewlines_append free []
  rwa [List.append_nil, show universalNewlines [] = [] from rfl,
    List.append_nil] at whole

/-- What follows a newline is translated on its own. -/
theorem universalNewlines_split (line : List Char) :
    ∃ front, ∀ rest, universalNewlines (line ++ '\n' :: rest) =
      front ++ '\n' :: universalNewlines rest := by
  fun_induction universalNewlines line with
  | case1 => exact ⟨[], fun rest => by simp [universalNewlines]⟩
  | case2 text induction =>
      rcases induction with ⟨front, splits⟩
      exact ⟨'\n' :: front, fun rest => by
        simp [universalNewlines, splits]⟩
  | case3 text alone induction =>
      cases text with
      | nil => exact ⟨[], fun rest => by simp [universalNewlines]⟩
      | cons next text =>
          rcases induction with ⟨front, splits⟩
          have other : ∀ rest later,
              next :: text ++ '\n' :: rest = '\n' :: later → False := by
            intro rest later same
            rw [List.cons_append, List.cons.injEq] at same
            exact alone text (by rw [same.1])
          refine ⟨'\n' :: front, fun rest => ?_⟩
          rw [List.cons_append, universalNewlines.eq_3 _ (other rest), splits]
          rfl
  | case4 char text pair alone induction =>
      rcases induction with ⟨front, splits⟩
      refine ⟨char :: front, fun rest => ?_⟩
      rw [List.cons_append, universalNewlines.eq_4 _ _
        (fun _ isReturn _ => alone isReturn) alone, splits]
      rfl

/-- The lines that iterating over a text file yields. -/
def fileLines (text : List Char) : List (List Char) :=
  lines (universalNewlines text)

theorem fileLines_split (line rest : List Char) :
    fileLines (line ++ '\n' :: rest) =
      fileLines (line ++ ['\n']) ++ fileLines rest := by
  rcases universalNewlines_split line with ⟨front, splits⟩
  rw [fileLines, fileLines, fileLines, splits rest, splits [], lines_split]
  rfl

/-! ## Integers -/

/-- White space of `strip`, in ASCII. -/
def isSpace (char : Char) : Bool :=
  char = ' ' || (9 ≤ char.toNat && char.toNat ≤ 13) ||
    (28 ≤ char.toNat && char.toNat ≤ 31)

/-- White space of `split` without a separator, in Unicode. -/
def isWhite (char : Char) : Bool :=
  isSpace char || (0x2000 ≤ char.toNat && char.toNat ≤ 0x200a) ||
    [0x85, 0xa0, 0x1680, 0x2028, 0x2029, 0x202f, 0x205f, 0x3000].contains
      char.toNat

/-- `split()`. -/
def split (text : List Char) : List (List Char) :=
  words isWhite text

/-- `strip`. -/
def strip (text : List Char) : List Char :=
  (text.dropWhile isSpace).rdropWhile isSpace

/-- Digits, single underscores allowed between them. -/
def digitsValue (text : List Char) : Option Nat :=
  let parts := text.splitOn '_'
  if parts.all fun part => part ≠ [] && part.all Char.isDigit then
    some (Nat.ofDigitChars 10 parts.flatten 0)
  else none

/-- `int` of a string, or nothing for a `ValueError`. -/
def int (text : List Char) : Option Int :=
  match strip text with
  | '-' :: digits => (digitsValue digits).map fun value => -(value : Int)
  | '+' :: digits => (digitsValue digits).map fun value => (value : Int)
  | digits => (digitsValue digits).map fun value => (value : Int)

theorem isSpace_of_isDigit {char : Char} (digit : char.isDigit = true) :
    isSpace char = false := by
  have above := above_space_of_isDigit digit
  have space : ' '.toNat = 32 := rfl
  have other : char ≠ ' ' := by
    rintro rfl
    exact absurd above (Nat.lt_irrefl _)
  simp only [isSpace, other, decide_false, Bool.false_or,
    Bool.or_eq_false_iff, Bool.and_eq_false_iff, decide_eq_false_iff_not]
  constructor
  · right
    omega
  · right
    omega

theorem strip_decimal (value : Nat) :
    strip (decimal value) = decimal value := by
  have solid : ∀ char ∈ decimal value, ¬ isSpace char = true := by
    intro char member
    rw [isSpace_of_isDigit (isDigit_of_mem_decimal member)]
    exact Bool.false_ne_true
  have front : (decimal value).dropWhile isSpace = decimal value := by
    cases printed : decimal value with
    | nil => exact absurd printed (decimal_ne_nil value)
    | cons digit digits =>
        apply List.dropWhile_cons_of_neg
        apply solid
        rw [printed]
        exact List.mem_cons_self
  rw [strip, front]
  apply List.rdropWhile_eq_self_iff.mpr
  intro nonempty
  exact solid _ (List.getLast_mem nonempty)

theorem digitsValue_decimal (value : Nat) :
    digitsValue (decimal value) = some value := by
  have whole : (decimal value).splitOn '_' = [decimal value] := by
    have split := List.splitOn_intercalate '_'
      (List.forall_mem_singleton.mpr
        (not_mem_decimal rfl : '_' ∉ decimal value))
      (List.cons_ne_nil _ _)
    rwa [List.intercalate_singleton] at split
  have digits : (decimal value).all Char.isDigit = true :=
    List.all_eq_true.mpr fun char member => isDigit_of_mem_decimal member
  simp only [digitsValue, whole, List.all_cons, List.all_nil, digits,
    decimal_ne_nil, Bool.and_true, List.flatten_cons, List.flatten_nil,
    List.append_nil, ne_eq, not_false_eq_true, decide_true, if_true]
  rw [decimal, Nat.ofDigitChars_ten_toDigits]

/-- A printed number is read back. -/
theorem int_decimal (value : Nat) :
    int (decimal value) = some (value : Int) := by
  rw [int, strip_decimal]
  split
  · rename_i digits printed
    have member : '-' ∈ decimal value := printed ▸ List.mem_cons_self
    exact absurd member (not_mem_decimal rfl)
  · rename_i digits printed
    have member : '+' ∈ decimal value := printed ▸ List.mem_cons_self
    exact absurd member (not_mem_decimal rfl)
  · rw [digitsValue_decimal]
    rfl

end MatchingBench.Lib.PythonText
