import MatchingBench.Lib.DecimalText
import Mathlib.Data.List.TakeWhile

/-!
# Scanning text

What a reader of a line-oriented dump does: find a pattern, go through the
lines, cut them into words, and read a number from leading digits into a
machine word.
-/

set_option autoImplicit false

namespace MatchingBench.Lib.TextScan

open MatchingBench.Lib.DecimalText

/-! ## Patterns -/

/-- `find`: where a pattern first occurs. -/
def find (pattern : List Char) : List Char → Option Nat
  | [] => if pattern = [] then some 0 else none
  | char :: text =>
      if pattern.isPrefixOf (char :: text) then some 0
      else (find pattern text).map (· + 1)

theorem not_isPrefixOf
    {first char : Char} (other : first ≠ char) (pattern text : List Char) :
    (first :: pattern).isPrefixOf (char :: text) = false := by
  simp [List.isPrefixOf, other]

/-- A pattern is found right behind text without its first character. -/
theorem find_append
    {first : Char} (pattern : List Char) {front : List Char}
    (absent : first ∉ front) (back : List Char) :
    find (first :: pattern) (front ++ first :: pattern ++ back) =
      some front.length := by
  induction front with
  | nil =>
      have here :
          (first :: pattern).isPrefixOf (first :: pattern ++ back) = true :=
        List.isPrefixOf_iff_prefix.mpr (List.prefix_append _ _)
      rw [List.nil_append, List.cons_append, find]
      rw [List.cons_append] at here
      rw [here]
      rfl
  | cons char front induction =>
      rw [List.mem_cons, not_or] at absent
      rw [List.cons_append, List.cons_append, find,
        not_isPrefixOf absent.1, induction absent.2]
      rfl

/-- `re.search`: the leftmost place where a text matches. -/
def search {α : Type} (matchHere : List Char → Option α) :
    List Char → Option α
  | [] => matchHere []
  | char :: text =>
      match matchHere (char :: text) with
      | some found => some found
      | none => search matchHere text

/-! ## Runs -/

section Runs

variable {α : Type} {inClass : α → Bool}

/-- A run of a class ends where no symbol of the class follows. -/
theorem takeWhile_run {run rest : List α}
    (all : ∀ symbol ∈ run, inClass symbol = true)
    (ends : ∀ symbol ∈ rest.head?, inClass symbol = false) :
    (run ++ rest).takeWhile inClass = run := by
  rw [List.takeWhile_append_of_pos all]
  cases rest with
  | nil => simp
  | cons symbol rest =>
      rw [List.takeWhile_cons_of_neg, List.append_nil]
      rw [ends symbol rfl]
      exact Bool.false_ne_true

/-- What stands behind the first run. -/
theorem drop_takeWhile (inClass : α → Bool) (text : List α) :
    text.drop (text.takeWhile inClass).length = text.dropWhile inClass := by
  have behind := @List.drop_left _ (text.takeWhile inClass)
    (text.dropWhile inClass)
  rwa [List.takeWhile_append_dropWhile] at behind

/-- The last separator of a text divides it in one way. -/
theorem split_last
    [DecidableEq α] {separator : α} {front front' back back' : List α}
    (free : separator ∉ back) (free' : separator ∉ back')
    (same : front ++ separator :: back = front' ++ separator :: back') :
    front = front' ∧ back = back' := by
  have read {front back : List α} (free : separator ∉ back) :
      (front ++ separator :: back).reverse.takeWhile (· ≠ separator) =
        back.reverse := by
    rw [List.reverse_append, List.reverse_cons, List.append_assoc,
      List.singleton_append]
    refine takeWhile_run (fun symbol member => ?_) fun symbol head => ?_
    · rw [List.mem_reverse] at member
      exact decide_eq_true fun equal => free (equal ▸ member)
    · cases head
      exact decide_eq_false (not_not_intro rfl)
  have backs : back.reverse = back'.reverse := by
    rw [← @read front back free, same, read free']
  rw [List.reverse_inj] at backs
  subst backs
  exact ⟨List.append_cancel_right same, rfl⟩

end Runs

/-! ## Patterns within a line -/

/-- What stands behind a newline does not decide whether a prefix is there. -/
theorem dropPrefix?_line
    {pattern : List Char} (free : '\n' ∉ pattern) (text rest : List Char) :
    (text ++ '\n' :: rest).dropPrefix? pattern =
      (text.dropPrefix? pattern).map (· ++ '\n' :: rest) := by
  induction pattern generalizing text with
  | nil => simp
  | cons first pattern induction =>
      rw [List.mem_cons, not_or] at free
      cases text with
      | nil => simp [List.dropPrefix?, free.1]
      | cons char text =>
          rw [List.cons_append, List.dropPrefix?, List.dropPrefix?]
          split
          · exact induction free.2 text
          · rfl

theorem dropPrefix?_ne
    {first char : Char} (other : char ≠ first) (pattern text : List Char) :
    (char :: text).dropPrefix? (first :: pattern) = none := by
  simp [List.dropPrefix?, other]

theorem isPrefixOf_line
    {pattern : List Char} (free : '\n' ∉ pattern) (text rest : List Char) :
    pattern.isPrefixOf (text ++ '\n' :: rest) = pattern.isPrefixOf text := by
  induction pattern generalizing text with
  | nil => simp
  | cons first pattern induction =>
      rw [List.mem_cons, not_or] at free
      cases text with
      | nil => simp [List.isPrefixOf, Ne.symm free.1]
      | cons char text =>
          rw [List.cons_append, List.isPrefixOf, List.isPrefixOf,
            induction free.2]

theorem takeWhile_line
    {inClass : Char → Bool} (outside : inClass '\n' = false)
    (text rest : List Char) :
    (text ++ '\n' :: rest).takeWhile inClass = text.takeWhile inClass := by
  induction text with
  | nil => simp [outside]
  | cons char text induction =>
      rw [List.cons_append, List.takeWhile, List.takeWhile, induction]

section Search

variable {α : Type} {matchHere : List Char → Option α}

/-- A match that does not look past a newline is found line by line. -/
theorem search_line
    (stops : ∀ text rest,
      matchHere (text ++ '\n' :: rest) = matchHere text)
    (line rest : List Char) :
    search matchHere (line ++ '\n' :: rest) =
      (search matchHere line).or (search matchHere rest) := by
  induction line with
  | nil =>
      rw [List.nil_append, search, search, ← List.nil_append ('\n' :: rest),
        stops]
      cases matchHere [] <;> rfl
  | cons char line induction =>
      have here := stops (char :: line) rest
      rw [List.cons_append] at here ⊢
      rw [search, search, here, induction]
      cases matchHere (char :: line) <;> rfl

/-- The first line with a match decides. -/
theorem search_lines
    (stops : ∀ text rest,
      matchHere (text ++ '\n' :: rest) = matchHere text)
    (nothing : matchHere [] = none) (lines : List (List Char)) :
    search matchHere (lines.flatMap (· ++ ['\n'])) =
      lines.findSome? (search matchHere) := by
  induction lines with
  | nil => exact nothing
  | cons line lines induction =>
      rw [List.flatMap_cons, List.append_assoc, List.singleton_append,
        search_line stops, induction, List.findSome?_cons]
      cases search matchHere line <;> rfl

theorem search_some
    {text : List Char} {found : α} (here : matchHere text = some found) :
    search matchHere text = some found := by
  cases text with
  | nil => exact here
  | cons char text => rw [search, here]

theorem search_skip
    {char : Char} {text : List Char} (none_ : matchHere (char :: text) = none) :
    search matchHere (char :: text) = search matchHere text := by
  rw [search, none_]

/-- A match has to begin with its first character. -/
theorem search_eq_none
    {first : Char} (starts : ∀ text, text.head? ≠ some first →
      matchHere text = none)
    {text : List Char} (absent : first ∉ text) :
    search matchHere text = none := by
  induction text with
  | nil => exact starts [] nofun
  | cons char text induction =>
      rw [List.mem_cons, not_or] at absent
      have here := starts (char :: text) fun head =>
        absent.1 (Option.some.inj head).symm
      rw [search, here]
      exact induction absent.2

end Search

/-! ## Lines -/

/-- The lines of a text; what follows the last newline counts if nonempty. -/
def lines : List Char → List (List Char)
  | [] => []
  | char :: text =>
      if char = '\n' then [] :: lines text
      else
        match lines text with
        | [] => [[char]]
        | first :: later => (char :: first) :: later

/-- A terminated line comes first. -/
theorem lines_append
    {line : List Char} (free : '\n' ∉ line) (text : List Char) :
    lines (line ++ '\n' :: text) = line :: lines text := by
  induction line with
  | nil => rw [List.nil_append, lines, if_pos rfl]
  | cons char line induction =>
      rw [List.mem_cons, not_or] at free
      rw [List.cons_append, lines, if_neg (Ne.symm free.1),
        induction free.2]

/-- Terminated lines are read back. -/
theorem lines_flatMap
    {parts : List (List Char)} (free : ∀ part ∈ parts, '\n' ∉ part) :
    lines (parts.flatMap (· ++ ['\n'])) = parts := by
  induction parts with
  | nil => rfl
  | cons part parts induction =>
      have rest := induction fun other member =>
        free other (List.mem_cons_of_mem _ member)
      rw [List.flatMap_cons, List.append_assoc, List.singleton_append,
        lines_append (free part List.mem_cons_self), rest]

/-- Joined lines are read back. -/
theorem lines_joined
    {parts : List (List Char)} (free : ∀ part ∈ parts, '\n' ∉ part)
    (nonempty : ∀ part ∈ parts, part ≠ []) :
    lines (joined '\n' parts) = parts := by
  have single {part : List Char} (free : '\n' ∉ part) (nonempty : part ≠ []) :
      lines part = [part] := by
    induction part with
    | nil => exact absurd rfl nonempty
    | cons char part induction =>
        rw [List.mem_cons, not_or] at free
        rw [lines, if_neg (Ne.symm free.1)]
        cases part with
        | nil => rfl
        | cons next part => rw [induction free.2 (List.cons_ne_nil _ _)]
  induction parts with
  | nil => simp [lines]
  | cons part parts induction =>
      rw [List.forall_mem_cons] at free nonempty
      cases parts with
      | nil => rw [joined_singleton, single free.1 nonempty.1]
      | cons next parts =>
          rw [joined_cons_cons, lines_append free.1,
            induction free.2 nonempty.2]

/-- What follows a newline is cut on its own. -/
theorem lines_split (front rest : List Char) :
    lines (front ++ '\n' :: rest) = lines (front ++ ['\n']) ++ lines rest := by
  induction front with
  | nil => rw [List.nil_append, List.nil_append, lines, if_pos rfl]; rfl
  | cons char front induction =>
      rw [List.cons_append, List.cons_append, lines, lines, induction]
      split
      · rfl
      · have nonempty : lines (front ++ ['\n']) ≠ [] := by
          cases front with
          | nil => simp [lines]
          | cons next front =>
              rw [List.cons_append, lines]
              split
              · exact List.cons_ne_nil _ _
              · split <;> exact List.cons_ne_nil _ _
        cases parts : lines (front ++ ['\n']) with
        | nil => exact absurd parts nonempty
        | cons first later => rfl

/-! ## Rows -/

section Rows

variable {α β : Type} [DecidableEq α]

/-- A text cut behind every newline. -/
def rows (newline : α) : List α → List (List α)
  | [] => []
  | symbol :: text =>
      if symbol = newline then [symbol] :: rows newline text
      else
        match rows newline text with
        | [] => [[symbol]]
        | first :: later => (symbol :: first) :: later

theorem rows_append
    {newline : α} {line : List α} (free : newline ∉ line) (rest : List α) :
    rows newline (line ++ newline :: rest) =
      (line ++ [newline]) :: rows newline rest := by
  induction line with
  | nil => rw [List.nil_append, rows, if_pos rfl]; rfl
  | cons symbol line induction =>
      rw [List.mem_cons, not_or] at free
      rw [List.cons_append, rows, if_neg (Ne.symm free.1),
        induction free.2]
      rfl

theorem rows_last
    {newline : α} {line : List α} (free : newline ∉ line)
    (nonempty : line ≠ []) : rows newline line = [line] := by
  induction line with
  | nil => exact absurd rfl nonempty
  | cons symbol line induction =>
      rw [List.mem_cons, not_or] at free
      rw [rows, if_neg (Ne.symm free.1)]
      cases line with
      | nil => rfl
      | cons next line => rw [induction free.2 (List.cons_ne_nil _ _)]

/-- What reads a text from newline to newline reads it row by row. -/
theorem flatMap_rows
    {newline : α} {read : List α → List β} (empty : read [] = [])
    (splits : ∀ line rest, read (line ++ newline :: rest) =
      read (line ++ [newline]) ++ read rest) (text : List α) :
    (rows newline text).flatMap read = read text := by
  induction length : text.length using Nat.strongRecOn generalizing text with
  | ind size induction =>
      by_cases cut : newline ∈ text
      · rcases List.eq_append_cons_of_mem cut with ⟨line, rest, rfl, free⟩
        have shorter : rest.length < size := by
          rw [← length, List.length_append, List.length_cons]
          omega
        rw [rows_append free, List.flatMap_cons,
          induction rest.length shorter rest rfl, splits line rest]
      · cases text with
        | nil => exact empty.symm
        | cons symbol text =>
            rw [rows_last cut (List.cons_ne_nil _ _), List.flatMap_cons,
              List.flatMap_nil, List.append_nil]

/-- What is found first in a text is found first in one of its rows. -/
theorem findSome?_rows
    {γ : Type} {newline : α} {read : List α → List β} (empty : read [] = [])
    (splits : ∀ line rest, read (line ++ newline :: rest) =
      read (line ++ [newline]) ++ read rest)
    (find : β → Option γ) (text : List α) :
    (rows newline text).findSome? (fun row => (read row).findSome? find) =
      (read text).findSome? find := by
  rw [← flatMap_rows empty splits text]
  induction rows newline text with
  | nil => rfl
  | cons row later induction =>
      rw [List.findSome?_cons, List.flatMap_cons, List.findSome?_append,
        ← induction]
      cases (read row).findSome? find <;> rfl

end Rows

/-! ## Two things shown by the items of a list -/

section Shown

variable {α β : Type} (left right : β → α → Prop)

/-- The first item that shows anything shows this. -/
def First (shows : β → α → Prop) (value : β) : List α → Prop
  | [] => False
  | item :: later =>
      shows value item ∨ (∀ other, ¬shows other item) ∧ First shows value later

/-- Nothing is shown before the first item that shows the same both ways. -/
def Undisturbed : List α → Prop
  | [] => True
  | item :: later =>
      (∃ value, left value item ∧ right value item) ∨
        (∀ value, ¬left value item ∧ ¬right value item) ∧ Undisturbed later

/--
The first item that shows anything shows it in one way alone, and what is
shown first in the other way, further down, is the same.
-/
def Coincident : List α → Prop
  | [] => False
  | item :: later =>
      (∃ value, left value item ∧ (∀ other, ¬right other item) ∧
        First right value later) ∨
      (∃ value, right value item ∧ (∀ other, ¬left other item) ∧
        First left value later) ∨
      (∀ value, ¬left value item ∧ ¬right value item) ∧ Coincident later

variable {left right}

theorem findSome?_eq_some_iff_first {shows : β → α → Prop}
    {find : α → Option β}
    (found : ∀ item value, find item = some value ↔ shows value item)
    (items : List α) (value : β) :
    items.findSome? find = some value ↔ First shows value items := by
  induction items with
  | nil => exact iff_of_false (Option.some_ne_none value).symm not_false
  | cons item later induction =>
      rw [List.findSome?_cons, First, ← induction]
      simp only [← found]
      cases find item <;> simp

/-- When two searches come to the same. -/
theorem findSome?_eq_iff {findLeft findRight : α → Option β}
    (isLeft : ∀ item value, findLeft item = some value ↔ left value item)
    (isRight : ∀ item value, findRight item = some value ↔ right value item)
    (items : List α) :
    items.findSome? findLeft = items.findSome? findRight ↔
      Undisturbed left right items ∨ Coincident left right items := by
  induction items with
  | nil => exact iff_of_true rfl (Or.inl trivial)
  | cons item later induction =>
      rw [List.findSome?_cons, List.findSome?_cons, Undisturbed, Coincident]
      simp only [← isLeft, ← isRight,
        ← findSome?_eq_some_iff_first isLeft,
        ← findSome?_eq_some_iff_first isRight]
      -- An item that shows something both ways decides; otherwise the rest.
      cases findLeft item <;> cases findRight item <;>
        simp [induction, forall_and, eq_comm]

end Shown

/-! ## Words -/

section Words

variable {white : Char → Bool}

/-- The words of a text, which white space separates. -/
def words (white : Char → Bool) (text : List Char) : List (List Char) :=
  (text.splitOnP white).filter (· ≠ [])

theorem words_append
    {space : Char} (isWhite : white space = true) (front rest : List Char) :
    words white (front ++ space :: rest) =
      words white front ++ words white rest := by
  rw [words, List.splitOnP_append_cons _ _ isWhite, List.filter_append]
  rfl

/-- A text without white space is one word. -/
theorem words_solid
    {word : List Char} (solid : ∀ char ∈ word, white char = false)
    (nonempty : word ≠ []) : words white word = [word] := by
  rw [words, List.splitOnP_eq_singleton solid]
  simp [nonempty]

/-- White space of another kind that the text does not have. -/
theorem words_congr
    {other : Char → Bool} {text : List Char}
    (same : ∀ char ∈ text, white char = other char) :
    words white text = words other text := by
  have parts : text.splitOnP white = text.splitOnP other := by
    induction text with
    | nil => rfl
    | cons char text induction =>
        rw [List.forall_mem_cons] at same
        rw [List.splitOnP_cons_eq_if_modifyHead,
          List.splitOnP_cons_eq_if_modifyHead, same.1, induction same.2]
  rw [words, words, parts]

theorem words_cons
    {space : Char} (isWhite : white space = true) (text : List Char) :
    words white (space :: text) = words white text :=
  words_append isWhite [] text

theorem words_dropWhile (text : List Char) :
    words white (text.dropWhile white) = words white text := by
  induction text with
  | nil => rfl
  | cons char text induction =>
      by_cases isWhite : white char = true
      · rw [List.dropWhile_cons_of_pos isWhite, induction,
          words_cons isWhite]
      · rw [List.dropWhile_cons_of_neg isWhite]

/-- A word ends at white space. -/
theorem words_word
    {word rest : List Char} (solid : ∀ char ∈ word, white char = false)
    (nonempty : word ≠ []) (ends : ∀ char ∈ rest.head?, white char = true) :
    words white (word ++ rest) = word :: words white rest := by
  cases rest with
  | nil => rw [List.append_nil, words_solid solid nonempty]; rfl
  | cons space rest =>
      have isWhite := ends space rfl
      rw [words_append isWhite, words_solid solid nonempty,
        words_cons isWhite]
      rfl

/-- Words that were joined are read back. -/
theorem words_joined
    {space : Char} (isWhite : white space = true) {parts : List (List Char)}
    (solid : ∀ part ∈ parts, part ≠ [] ∧ ∀ char ∈ part, white char = false) :
    words white (joined space parts) = parts := by
  induction parts with
  | nil => rw [joined_nil]; rfl
  | cons part parts induction =>
      rw [List.forall_mem_cons] at solid
      obtain ⟨⟨nonempty, own⟩, others⟩ := solid
      cases parts with
      | nil => rw [joined_singleton, words_solid own nonempty]
      | cons next parts =>
          rw [joined_cons_cons, words_append isWhite,
            words_solid own nonempty, induction others]
          rfl

/-- The first word is what stands between the first white spaces. -/
theorem words_eq (text : List Char) :
    words white text =
      let text := text.dropWhile white
      let word := text.takeWhile fun char => !white char
      if word = [] then []
      else word :: words white (text.drop word.length) := by
  dsimp only
  rw [← words_dropWhile text]
  cases dropped : text.dropWhile white with
  | nil => rfl
  | cons char later =>
      have starts := List.head?_dropWhile_not white text
      rw [dropped] at starts
      have solidHead : white char = false := by simpa using starts
      have solid : ∀ symbol ∈ (char :: later).takeWhile (!white ·),
          white symbol = false := by
        intro symbol member
        simpa using List.mem_takeWhile_imp member
      have nonempty : (char :: later).takeWhile (!white ·) ≠ [] := by
        rw [List.takeWhile_cons_of_pos (by rw [solidHead]; rfl)]
        exact List.cons_ne_nil _ _
      have whole := @List.takeWhile_append_dropWhile _ (!white ·)
        (char :: later)
      have ends : ∀ symbol ∈ ((char :: later).dropWhile (!white ·)).head?,
          white symbol = true := by
        intro symbol member
        have stops := List.head?_dropWhile_not (!white ·) (char :: later)
        rw [member] at stops
        simpa using stops
      rw [if_neg nonempty, drop_takeWhile,
        ← words_word solid nonempty ends, whole]

/-- A word is a stretch of its text without white space. -/
theorem of_mem_words {text word : List Char}
    (member : word ∈ words white text) :
    (∀ char ∈ word, white char = false) ∧ word.length ≤ text.length := by
  have parts : ∀ part ∈ text.splitOnP white,
      (∀ char ∈ part, white char = false) ∧ part.length ≤ text.length := by
    clear member
    induction text with
    | nil => simp
    | cons char text induction =>
        intro part inside
        rw [List.splitOnP_cons_eq_if_modifyHead] at inside
        split at inside
        · rcases List.mem_cons.mp inside with rfl | later
          · simp
          · have rest := induction part later
            exact ⟨rest.1, Nat.le_succ_of_le rest.2⟩
        · rename_i solid
          rcases List.exists_cons_of_ne_nil
            (List.splitOnP_ne_nil white text) with ⟨first, others, cut⟩
          rw [cut, List.forall_mem_cons] at induction
          rw [cut, List.modifyHead_cons] at inside
          rcases List.mem_cons.mp inside with rfl | later
          · refine ⟨?_, Nat.succ_le_succ induction.1.2⟩
            rw [List.forall_mem_cons]
            exact ⟨eq_false_of_ne_true solid, induction.1.1⟩
          · have rest := induction.2 part later
            exact ⟨rest.1, Nat.le_succ_of_le rest.2⟩
  exact parts word (List.mem_of_mem_filter member)

end Words

/-! ## Columns -/

section Columns

variable {α β γ δ : Type}

/-- What the rows of two columns of unequal length tell about the left one. -/
theorem filterMap_zipWithAll_left
    {row : Option α → Option β → γ} {read : γ → Option δ} {entry : α → δ}
    (shown : ∀ a b, read (row (some a) b) = some (entry a))
    (blank : ∀ b, read (row none b) = none)
    (left : List α) (right : List β) :
    (List.zipWithAll row left right).filterMap read = left.map entry := by
  induction left generalizing right with
  | nil =>
      rw [List.nil_zipWithAll, List.map_nil, List.filterMap_eq_nil_iff]
      intro cell member
      rcases List.mem_map.mp member with ⟨b, _, rfl⟩
      exact blank (some b)
  | cons a left induction =>
      cases right with
      | nil =>
          have rest := induction []
          rw [List.zipWithAll_nil] at rest ⊢
          rw [List.map_cons, List.filterMap_cons_some (shown a none), rest,
            List.map_cons]
      | cons b right =>
          rw [List.zipWithAll_cons_cons,
            List.filterMap_cons_some (shown a (some b)), induction,
            List.map_cons]

/-- What the rows of two columns of unequal length tell about the right one. -/
theorem filterMap_zipWithAll_right
    {row : Option α → Option β → γ} {read : γ → Option δ} {entry : β → δ}
    (shown : ∀ a b, read (row a (some b)) = some (entry b))
    (blank : ∀ a, read (row a none) = none)
    (left : List α) (right : List β) :
    (List.zipWithAll row left right).filterMap read = right.map entry := by
  have swapped :
      List.zipWithAll row left right =
        List.zipWithAll (fun b a => row a b) right left := by
    induction left generalizing right with
    | nil => cases right <;> simp
    | cons a left induction =>
        cases right with
        | nil => simp
        | cons b right =>
            rw [List.zipWithAll_cons_cons, List.zipWithAll_cons_cons,
              induction]
  rw [swapped]
  exact filterMap_zipWithAll_left (fun b a => shown a b) blank right left

end Columns

/-! ## Numbers -/

/-- The digits a text starts with. -/
def leadingDigits (text : List Char) : List Char :=
  text.takeWhile Char.isDigit

/-- The value of digits in 64 bits. -/
def digitsValue (digits : List Char) : UInt64 :=
  digits.foldl
    (fun value digit => value * 10 + UInt64.ofNat (digit.toNat - '0'.toNat)) 0

/-- A printed number ends where no digit follows. -/
theorem leadingDigits_decimal
    (value : Nat) {text : List Char}
    (ends : ∀ char ∈ text.head?, char.isDigit = false) :
    leadingDigits (decimal value ++ text) = decimal value := by
  exact takeWhile_run (fun _ member => isDigit_of_mem_decimal member) ends

/-- A printed number is read back, up to wrapping. -/
theorem digitsValue_decimal (value : Nat) :
    digitsValue (decimal value) = UInt64.ofNat value := by
  have wraps (digits : List Char) (start : Nat) :
      digits.foldl
          (fun value digit =>
            value * 10 + UInt64.ofNat (digit.toNat - '0'.toNat))
          (UInt64.ofNat start) =
        UInt64.ofNat (Nat.ofDigitChars 10 digits start) := by
    induction digits generalizing start with
    | nil => rfl
    | cons digit digits induction =>
        rw [List.foldl_cons, Nat.ofDigitChars_cons, ← induction]
        congr 1
        rw [UInt64.ofNat_add, UInt64.ofNat_mul, UInt64.mul_comm]
        rfl
  have read := wraps (decimal value) 0
  rw [decimal, Nat.ofDigitChars_ten_toDigits] at read
  exact read

end MatchingBench.Lib.TextScan
