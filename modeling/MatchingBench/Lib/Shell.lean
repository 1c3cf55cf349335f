import MatchingBench.Lib.TextScan

/-!
# Simple shell commands

The part of the shell's grammar in which every character stands for itself: a
command of plain characters and blanks is split at the blanks, and nothing in
it is expanded, redirected or run beside it.
-/

set_option autoImplicit false

namespace MatchingBench.Lib.Shell

open MatchingBench.Lib.DecimalText
open MatchingBench.Lib.TextScan

/-- A character that the shell takes as it stands. -/
def plain (char : Char) : Bool :=
  char.isAlpha || char.isDigit || char = '_' || char = '-' || char = '.' ||
    char = '/'

/-- The words of a simple command; `none` for any other text. -/
def simpleCommand (text : List Char) : Option (List (List Char)) :=
  if text.all fun char => plain char || char = ' ' then
    some (words (· = ' ') text)
  else none

/-- Plain words that are joined by blanks are a simple command. -/
theorem simpleCommand_joined
    {parts : List (List Char)}
    (solid : ∀ part ∈ parts, part ≠ [] ∧ ∀ char ∈ part, plain char = true) :
    simpleCommand (joined ' ' parts) = some parts := by
  have safe : (joined ' ' parts).all
      (fun char => plain char || char = ' ') = true := by
    rw [List.all_eq_true]
    intro char member
    rw [Bool.or_eq_true, decide_eq_true_iff]
    rcases mem_joined member with blank | ⟨part, inParts, inPart⟩
    · exact Or.inr blank
    · exact Or.inl ((solid part inParts).2 char inPart)
  rw [simpleCommand, if_pos safe]
  refine congrArg some (words_joined (decide_eq_true rfl) ?_)
  intro part member
  obtain ⟨nonempty, own⟩ := solid part member
  refine ⟨nonempty, fun char inside => decide_eq_false ?_⟩
  rintro rfl
  exact absurd (own _ inside) (by decide)

end MatchingBench.Lib.Shell
