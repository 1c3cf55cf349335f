import Mathlib.Algebra.GroupWithZero.Nat
import Mathlib.Data.List.Basic

/-!
# Decimal text

Numbers printed in base ten, fields joined by a separator and lines joined by
a separator.  Printing is injective, the printed length is bounded by the
magnitude, and a joined list of separator-free parts can be taken apart again.
-/

set_option autoImplicit false

namespace MatchingBench.Lib.DecimalText

/-! ## Printed numbers -/

/-- A natural number in base ten, without leading zeros. -/
def decimal (value : Nat) : List Char :=
  Nat.toDigits 10 value

/-- A signed integer in base ten, with a leading minus when negative. -/
def signedDecimal : Int → List Char
  | .ofNat value => decimal value
  | .negSucc value => '-' :: decimal (value + 1)

theorem isDigit_of_mem_decimal
    {value : Nat} {char : Char} (member : char ∈ decimal value) :
    char.isDigit = true :=
  Nat.isDigit_of_mem_toDigits (by decide) (by decide) member

/-- A digit comes after the white space of every table of characters. -/
theorem above_space_of_isDigit {char : Char} (digit : char.isDigit = true) :
    ' '.toNat < char.toNat := by
  rw [Char.isDigit, Bool.and_eq_true, decide_eq_true_eq] at digit
  have low : 48 ≤ char.toNat := digit.1
  exact Nat.lt_of_lt_of_le (by decide) low

theorem decimal_ne_nil (value : Nat) : decimal value ≠ [] :=
  Nat.toDigits_ne_nil

theorem decimal_injective : Function.Injective decimal := by
  intro left right equal
  have read := congrArg (Nat.ofDigitChars 10 · 0) equal
  simpa only [decimal, Nat.ofDigitChars_ten_toDigits] using read

theorem not_mem_decimal
    {value : Nat} {char : Char} (notDigit : char.isDigit = false) :
    char ∉ decimal value := by
  intro member
  rw [isDigit_of_mem_decimal member] at notDigit
  exact Bool.noConfusion notDigit

theorem not_mem_signedDecimal
    {value : Int} {char : Char}
    (notDigit : char.isDigit = false) (notMinus : char ≠ '-') :
    char ∉ signedDecimal value := by
  cases value with
  | ofNat value => exact not_mem_decimal notDigit
  | negSucc value =>
      simp only [signedDecimal, List.mem_cons, not_or]
      exact ⟨notMinus, not_mem_decimal notDigit⟩

theorem signedDecimal_injective : Function.Injective signedDecimal := by
  have minus (left right : Nat) :
      decimal left ≠ '-' :: decimal (right + 1) := by
    intro equal
    have member : '-' ∈ decimal left := by simp [equal]
    exact not_mem_decimal rfl member
  intro left right equal
  cases left with
  | ofNat left =>
      cases right with
      | ofNat right => rw [decimal_injective equal]
      | negSucc right => exact absurd equal (minus left right)
  | negSucc left =>
      cases right with
      | ofNat right => exact absurd equal.symm (minus right left)
      | negSucc right =>
          simp only [signedDecimal, List.cons.injEq, true_and] at equal
          have equal := decimal_injective equal
          rw [Nat.succ.inj equal]

/-- A number below `10 ^ width` prints in at most `width` characters. -/
theorem length_decimal_le
    {value width : Nat} (positive : 0 < width) (small : value < 10 ^ width) :
    (decimal value).length ≤ width :=
  (Nat.length_toDigits_le_iff (by decide) positive).mpr small

theorem length_signedDecimal_le
    {value : Int} {width : Nat}
    (positive : 0 < width) (small : value.natAbs < 10 ^ width) :
    (signedDecimal value).length ≤ width + 1 := by
  cases value with
  | ofNat value =>
      exact Nat.le_succ_of_le (length_decimal_le positive small)
  | negSucc value =>
      simp only [signedDecimal, List.length_cons]
      exact Nat.succ_le_succ (length_decimal_le positive small)

/-! ## Joined parts -/

section Joined

variable {α : Type*}

/-- The parts with one separator between neighbours and none at the end. -/
def joined (separator : α) (parts : List (List α)) : List α :=
  [separator].intercalate parts

@[simp]
theorem joined_nil (separator : α) : joined separator [] = [] := by
  simp [joined, List.intercalate]

@[simp]
theorem joined_singleton (separator : α) (part : List α) :
    joined separator [part] = part := by
  simp [joined, List.intercalate]

@[simp]
theorem joined_cons_cons
    (separator : α) (part next : List α) (parts : List (List α)) :
    joined separator (part :: next :: parts) =
      part ++ separator :: joined separator (next :: parts) := by
  simp [joined, List.intercalate]

/-- A part put at the end of a nonempty list follows one separator. -/
theorem joined_concat
    (separator : α) (parts : List (List α)) (nonempty : parts ≠ [])
    (part : List α) :
    joined separator (parts ++ [part]) =
      joined separator parts ++ separator :: part := by
  induction parts with
  | nil => exact absurd rfl nonempty
  | cons first parts induction =>
      cases parts with
      | nil => simp
      | cons second parts =>
          have rest := induction (List.cons_ne_nil _ _)
          simp only [List.cons_append, joined_cons_cons] at rest ⊢
          rw [rest]
          simp

theorem joined_eq_nil_iff
    {separator : α} {parts : List (List α)}
    (nonempty : ∀ part ∈ parts, part ≠ []) :
    joined separator parts = [] ↔ parts = [] := by
  cases parts with
  | nil => simp
  | cons first parts =>
      cases parts with
      | nil => simpa using nonempty first
      | cons second parts => simp

/-- What stands in joined parts is a separator or stands in a part. -/
theorem mem_joined
    {separator item : α} {parts : List (List α)}
    (member : item ∈ joined separator parts) :
    item = separator ∨ ∃ part ∈ parts, item ∈ part := by
  induction parts with
  | nil => simp at member
  | cons first parts induction =>
      cases parts with
      | nil =>
          rw [joined_singleton] at member
          exact Or.inr ⟨first, List.mem_cons_self, member⟩
      | cons second parts =>
          rw [joined_cons_cons, List.mem_append, List.mem_cons] at member
          rcases member with inFirst | same | later
          · exact Or.inr ⟨first, List.mem_cons_self, inFirst⟩
          · exact Or.inl same
          · rcases induction later with same | ⟨part, inParts, inPart⟩
            · exact Or.inl same
            · exact Or.inr ⟨part, List.mem_cons_of_mem _ inParts, inPart⟩

/-- The length of joined parts, a separator counted between neighbours. -/
theorem length_joined (separator : α) (parts : List (List α)) :
    (joined separator parts).length =
      (parts.map List.length).sum + (parts.length - 1) := by
  induction parts with
  | nil => simp
  | cons first parts induction =>
      cases parts with
      | nil => simp
      | cons second parts =>
          simp only [joined_cons_cons, List.length_append,
            List.length_cons, induction, List.map_cons, List.sum_cons]
          omega

/-- Separator-free parts can be read back from the joined text. -/
theorem joined_injective
    [DecidableEq α] {separator : α} {left right : List (List α)}
    (leftFree : ∀ part ∈ left, separator ∉ part)
    (rightFree : ∀ part ∈ right, separator ∉ part)
    (leftNonempty : left ≠ []) (rightNonempty : right ≠ [])
    (equal : joined separator left = joined separator right) :
    left = right := by
  rw [← List.splitOn_intercalate separator leftFree leftNonempty,
    ← List.splitOn_intercalate separator rightFree rightNonempty]
  exact congrArg (List.splitOn separator) equal

end Joined

end MatchingBench.Lib.DecimalText
