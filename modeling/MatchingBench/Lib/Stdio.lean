import MatchingBench.Lib.TextScan
import Mathlib.Data.List.TakeWhile

/-!
# Reading text through the C library

`fgets` into a fixed buffer, a string up to its terminating zero, and the
conversions of `sscanf`.  A number out of range saturates, as in the `strtoll`
family; `%u` stores the low 32 bits of what the 64-bit conversion returned.
-/

set_option autoImplicit false

namespace MatchingBench.Lib.Stdio

open MatchingBench.Lib.DecimalText
open MatchingBench.Lib.TextScan

/-! ## Lines of a file -/

/--
What successive `fgets` calls store from a text into a buffer that holds
`capacity` characters, `room` of them still free for the current line.
-/
def chunks (capacity : Nat) : Nat → List Char → List (List Char)
  | _, [] => []
  | room, char :: text =>
      if char = '\n' ∨ room ≤ 1 then [char] :: chunks capacity capacity text
      else
        match chunks capacity (room - 1) text with
        | [] => [[char]]
        | first :: later => (char :: first) :: later

/-- `fgets(line, size, f)` until the end of the file. -/
def fgetsLines (size : Nat) (text : List Char) : List (List Char) :=
  chunks (size - 1) (size - 1) text

theorem chunks_ne_nil {capacity room : Nat} {char : Char} (text : List Char) :
    chunks capacity room (char :: text) ≠ [] := by
  rw [chunks]
  split
  · exact List.cons_ne_nil _ _
  · split <;> exact List.cons_ne_nil _ _

/-- After a newline `fgets` starts with an empty buffer. -/
theorem chunks_split
    {capacity room : Nat} (line rest : List Char) :
    chunks capacity room (line ++ '\n' :: rest) =
      chunks capacity room (line ++ ['\n']) ++
        chunks capacity capacity rest := by
  induction line generalizing room with
  | nil =>
      rw [List.nil_append, List.nil_append, chunks, chunks,
        if_pos (Or.inl rfl), if_pos (Or.inl rfl)]
      rfl
  | cons char line induction =>
      rw [List.cons_append, List.cons_append, chunks, chunks]
      split
      · rw [induction]
        rfl
      · rw [induction]
        have nonempty :
            chunks capacity (room - 1) (line ++ ['\n']) ≠ [] := by
          cases line <;> exact chunks_ne_nil _
        cases parts : chunks capacity (room - 1) (line ++ ['\n']) with
        | nil => exact absurd parts nonempty
        | cons first later => rfl

theorem fgetsLines_split (size : Nat) (line rest : List Char) :
    fgetsLines size (line ++ '\n' :: rest) =
      fgetsLines size (line ++ ['\n']) ++ fgetsLines size rest :=
  chunks_split line rest

/-- A terminated line that fits is stored whole. -/
theorem chunks_append
    {capacity room : Nat} {line : List Char}
    (free : '\n' ∉ line) (fits : line.length < room) (text : List Char) :
    chunks capacity room (line ++ '\n' :: text) =
      (line ++ ['\n']) :: chunks capacity capacity text := by
  induction line generalizing room with
  | nil => rw [List.nil_append, chunks, if_pos (Or.inl rfl)]; rfl
  | cons char line induction =>
      rw [List.mem_cons, not_or] at free
      rw [List.length_cons] at fits
      have stays : ¬ (char = '\n' ∨ room ≤ 1) := by
        rintro (newline | full)
        · exact free.1 newline.symm
        · omega
      rw [List.cons_append, chunks, if_neg stays,
        induction free.2 (by omega)]
      rfl

/-- A last line without a newline is stored whole when it fits. -/
theorem chunks_last
    {capacity room : Nat} {line : List Char}
    (free : '\n' ∉ line) (nonempty : line ≠ []) (fits : line.length ≤ room) :
    chunks capacity room line = [line] := by
  induction line generalizing room with
  | nil => exact absurd rfl nonempty
  | cons char line induction =>
      rw [List.mem_cons, not_or] at free
      rw [List.length_cons] at fits
      cases line with
      | nil =>
          rw [chunks]
          split <;> simp [chunks]
      | cons next line =>
          have stays : ¬ (char = '\n' ∨ room ≤ 1) := by
            rintro (newline | full)
            · exact free.1 newline.symm
            · rw [List.length_cons] at fits
              omega
          rw [chunks, if_neg stays,
            induction free.2 (List.cons_ne_nil _ _) (by omega)]

/-- Terminated lines that fit into the buffer are read one by one. -/
theorem fgetsLines_flatMap
    {size : Nat} {lines : List (List Char)}
    (free : ∀ line ∈ lines, '\n' ∉ line)
    (fits : ∀ line ∈ lines, line.length + 1 < size) :
    fgetsLines size (lines.flatMap (· ++ ['\n'])) =
      lines.map (· ++ ['\n']) := by
  induction lines with
  | nil => rfl
  | cons line lines induction =>
      have rest := induction
        (fun other member => free other (List.mem_cons_of_mem _ member))
        (fun other member => fits other (List.mem_cons_of_mem _ member))
      have room := fits line List.mem_cons_self
      rw [fgetsLines] at rest ⊢
      rw [List.flatMap_cons, List.append_assoc, List.singleton_append,
        chunks_append (free line List.mem_cons_self) (by omega), rest,
        List.map_cons]

/-- Joined lines that fit are read one by one, the last without newline. -/
theorem fgetsLines_joined
    {size : Nat} {lines : List (List Char)} {last : List Char}
    (free : ∀ line ∈ lines ++ [last], '\n' ∉ line)
    (fits : ∀ line ∈ lines ++ [last], line.length + 1 < size)
    (nonempty : last ≠ []) :
    fgetsLines size (joined '\n' (lines ++ [last])) =
      lines.map (· ++ ['\n']) ++ [last] := by
  induction lines with
  | nil =>
      have room := fits last (by simp)
      rw [List.nil_append, joined_singleton]
      exact chunks_last (free last (by simp)) nonempty (by omega)
  | cons line lines induction =>
      have rest := induction
        (fun other member => free other (List.mem_cons_of_mem _ member))
        (fun other member => fits other (List.mem_cons_of_mem _ member))
      have room := fits line (by simp)
      have first : joined '\n' (line :: lines ++ [last]) =
          line ++ '\n' :: joined '\n' (lines ++ [last]) := by
        cases lines <;> simp
      rw [fgetsLines] at rest ⊢
      rw [first, chunks_append (free line (by simp)) (by omega), rest]
      rfl

/-! ## Strings -/

/-- The string in a buffer: what stands before the terminating zero. -/
def cString (buffer : List Char) : List Char :=
  buffer.takeWhile (· ≠ Char.ofNat 0)

theorem cString_of_not_mem
    {buffer : List Char} (free : Char.ofNat 0 ∉ buffer) :
    cString buffer = buffer := by
  apply List.takeWhile_eq_self_iff.mpr
  intro char member
  have other : char ≠ Char.ofNat 0 := fun zero => free (zero ▸ member)
  simpa using other

/-- `isspace` in the C locale. -/
def isSpace (char : Char) : Bool :=
  char = ' ' || (9 ≤ char.toNat && char.toNat ≤ 13)

theorem isSpace_of_isDigit {char : Char} (digit : char.isDigit = true) :
    isSpace char = false := by
  have above := above_space_of_isDigit digit
  have space : ' '.toNat = 32 := rfl
  have other : char ≠ ' ' := by
    rintro rfl
    exact absurd above (Nat.lt_irrefl _)
  simp only [isSpace, other, decide_false, Bool.false_or,
    Bool.and_eq_false_iff, decide_eq_false_iff_not]
  right
  omega

/-! ## Conversions of `sscanf` -/

/-- `%Ns`: skip spaces, then at most `width` characters up to a space. -/
def scanWord (width : Nat) (text : List Char) :
    Option (List Char × List Char) :=
  let text := text.dropWhile isSpace
  let word := (text.takeWhile fun char => !isSpace char).take width
  if word = [] then none else some (word, text.drop word.length)

/-- What `%Ns` reads is the beginning of the first word. -/
theorem scanWord_words {width : Nat} (some_ : 0 < width) (text : List Char) :
    (scanWord width text).map Prod.fst =
      (words isSpace text).head?.map (List.take width) := by
  rw [words_eq, scanWord]
  dsimp only
  by_cases empty : ((text.dropWhile isSpace).takeWhile (!isSpace ·)) = []
  · rw [if_pos empty]
    simp [empty]
  · have cut : ((text.dropWhile isSpace).takeWhile (!isSpace ·)).take width
        ≠ [] := by
      intro none_
      rcases List.take_eq_nil_iff.mp none_ with zero | nothing
      · omega
      · exact empty nothing
    rw [if_neg empty, if_neg cut]
    rfl

/-- `%Ns` fails where there is no word. -/
theorem words_of_scanWord_none {width : Nat} (some_ : 0 < width)
    {text : List Char} (failed : scanWord width text = none) :
    words isSpace text = [] := by
  have first := scanWord_words some_ text
  rw [failed, Option.map_none, eq_comm, Option.map_eq_none_iff] at first
  exact List.head?_eq_none_iff.mp first

theorem words_of_scanWord {width : Nat} (some_ : 0 < width)
    {text word rest : List Char}
    (read : scanWord width text = some (word, rest)) :
    ∃ first others, words isSpace text = first :: others ∧
      word = first.take width := by
  have first := scanWord_words some_ text
  rw [read, Option.map_some, eq_comm, Option.map_eq_some_iff] at first
  rcases first with ⟨whole, head, cut⟩
  rcases List.head?_eq_some_iff.mp head with ⟨others, shown⟩
  exact ⟨whole, others, shown, cut.symm⟩

/-- A first word that fits is read whole, and the others stand behind it. -/
theorem scanWord_first {width : Nat} {text word rest : List Char}
    (read : scanWord width text = some (word, rest))
    (short : word.length < width) :
    words isSpace text = word :: words isSpace rest := by
  rw [scanWord] at read
  split at read
  · cases read
  · rename_i cut
    rcases Prod.mk.inj (Option.some.inj read) with ⟨first, behind⟩
    rw [← first, List.length_take] at short
    have whole : ((text.dropWhile isSpace).takeWhile (!isSpace ·)).take width
        = (text.dropWhile isSpace).takeWhile (!isSpace ·) :=
      List.take_of_length_le (by omega)
    rw [whole] at first behind cut
    rw [words_eq]
    dsimp only
    rw [if_neg cut, first, ← behind, first]

/-- An optional sign and the digits of an integer, with what follows. -/
def scanDigits (text : List Char) : Option (Bool × Nat × List Char) :=
  let text := text.dropWhile isSpace
  let negative := text.head? = some '-'
  let text :=
    if text.head? = some '-' ∨ text.head? = some '+' then text.tail else text
  let digits := leadingDigits text
  if digits = [] then none
  else some (negative, Nat.ofDigitChars 10 digits 0, text.drop digits.length)

/-- What `strtoull` makes of a sign and a magnitude. -/
def unsignedValue (negative : Bool) (magnitude : Nat) : UInt64 :=
  if 2 ^ 64 ≤ magnitude then UInt64.ofNat (2 ^ 64 - 1)
  else if negative then 0 - UInt64.ofNat magnitude
  else UInt64.ofNat magnitude

/-- What `strtoll` makes of a sign and a magnitude. -/
def signedValue (negative : Bool) (magnitude : Nat) : Int64 :=
  if negative then
    if 2 ^ 63 ≤ magnitude then Int64.minValue else -Int64.ofNat magnitude
  else if 2 ^ 63 ≤ magnitude then Int64.maxValue
  else Int64.ofNat magnitude

/-- `%llu`. -/
def scanUInt64 (text : List Char) : Option (UInt64 × List Char) :=
  (scanDigits text).map fun (negative, magnitude, rest) =>
    (unsignedValue negative magnitude, rest)

/-- `%u`. -/
def scanUInt32 (text : List Char) : Option (UInt32 × List Char) :=
  (scanUInt64 text).map fun (value, rest) => (value.toUInt32, rest)

/-- `%lld`. -/
def scanInt64 (text : List Char) : Option (Int64 × List Char) :=
  (scanDigits text).map fun (negative, magnitude, rest) =>
    (signedValue negative magnitude, rest)

/-- A character of the format that must be matched. -/
def scanChar (wanted : Char) : List Char → Option (List Char)
  | [] => none
  | char :: rest => if char = wanted then some rest else none

@[simp]
theorem scanChar_cons (wanted : Char) (rest : List Char) :
    scanChar wanted (wanted :: rest) = some rest :=
  if_pos rfl

/-! ## Printed values are read back -/

/-- No digit stands at the front of the text. -/
def EndsNumber (text : List Char) : Prop :=
  ∀ char ∈ text.head?, char.isDigit = false

@[simp]
theorem endsNumber_nil : EndsNumber [] := by
  intro char head
  exact absurd head (by simp)

@[simp]
theorem endsNumber_comma (rest : List Char) : EndsNumber (',' :: rest) := by
  intro char head
  obtain rfl : ',' = char := by simpa using head
  rfl

/-- A printed number is a digit and more. -/
theorem decimal_eq_cons (value : Nat) :
    ∃ digit digits, decimal value = digit :: digits ∧
      digit.isDigit = true := by
  cases printed : decimal value with
  | nil => exact absurd printed (decimal_ne_nil value)
  | cons digit digits =>
      exact ⟨digit, digits, rfl,
        isDigit_of_mem_decimal (printed ▸ List.mem_cons_self)⟩

theorem ne_minus_of_isDigit {char : Char} (digit : char.isDigit = true) :
    char ≠ '-' ∧ char ≠ '+' := by
  constructor
  · rintro rfl
    exact absurd digit (by decide)
  · rintro rfl
    exact absurd digit (by decide)

theorem scanDigits_decimal
    (value : Nat) {rest : List Char} (ends : EndsNumber rest) :
    scanDigits (decimal value ++ rest) = some (false, value, rest) := by
  have digits : leadingDigits (decimal value ++ rest) = decimal value :=
    leadingDigits_decimal value ends
  have read : Nat.ofDigitChars 10 (decimal value) 0 = value :=
    Nat.ofDigitChars_ten_toDigits
  obtain ⟨digit, later, printed, isDigit⟩ := decimal_eq_cons value
  have skipped :
      (decimal value ++ rest).dropWhile isSpace = decimal value ++ rest := by
    rw [printed, List.cons_append, List.dropWhile_cons_of_neg]
    rw [isSpace_of_isDigit isDigit]
    exact Bool.false_ne_true
  have head : (decimal value ++ rest).head? = some digit := by
    rw [printed]
    rfl
  obtain ⟨notMinus, notPlus⟩ := ne_minus_of_isDigit isDigit
  simp only [scanDigits, skipped, head, Option.some.injEq, notMinus, notPlus,
    or_self, if_false, decide_false, digits, decimal_ne_nil, read,
    List.drop_left]

theorem scanDigits_minus
    (value : Nat) {rest : List Char} (ends : EndsNumber rest) :
    scanDigits ('-' :: decimal value ++ rest) = some (true, value, rest) := by
  have digits : leadingDigits (decimal value ++ rest) = decimal value :=
    leadingDigits_decimal value ends
  have read : Nat.ofDigitChars 10 (decimal value) 0 = value :=
    Nat.ofDigitChars_ten_toDigits
  have skipped :
      ('-' :: (decimal value ++ rest)).dropWhile isSpace =
        '-' :: (decimal value ++ rest) :=
    List.dropWhile_cons_of_neg (by decide)
  simp only [scanDigits, List.cons_append, skipped, List.head?_cons,
    true_or, if_true, decide_true, List.tail_cons, digits, decimal_ne_nil,
    if_false, read, List.drop_left]

theorem scanUInt64_decimal
    (value : UInt64) {rest : List Char} (ends : EndsNumber rest) :
    scanUInt64 (decimal value.toNat ++ rest) = some (value, rest) := by
  have small : ¬ 2 ^ 64 ≤ value.toNat := Nat.not_le.mpr value.toNat_lt
  rw [scanUInt64, scanDigits_decimal _ ends, Option.map_some]
  simp only [unsignedValue, small, if_false, Bool.false_eq_true,
    UInt64.ofNat_toNat]

theorem scanUInt32_decimal
    (value : UInt32) {rest : List Char} (ends : EndsNumber rest) :
    scanUInt32 (decimal value.toNat ++ rest) = some (value, rest) := by
  have wide : value.toNat = value.toUInt64.toNat :=
    (UInt32.toNat_toUInt64 value).symm
  rw [scanUInt32, wide, scanUInt64_decimal _ ends, Option.map_some]
  simp only [UInt32.toUInt32_toUInt64]

theorem scanInt64_signedDecimal
    (value : Int64) {rest : List Char} (ends : EndsNumber rest) :
    scanInt64 (signedDecimal value.toInt ++ rest) = some (value, rest) := by
  have low := Int64.le_toInt value
  have high := Int64.toInt_lt value
  cases signed : value.toInt with
  | ofNat magnitude =>
      rw [signed] at high
      have small : ¬ 2 ^ 63 ≤ magnitude := by
        apply Nat.not_le.mpr
        exact Int.ofNat_lt.mp high
      rw [signedDecimal, scanInt64, scanDigits_decimal _ ends,
        Option.map_some]
      simp only [signedValue, Bool.false_eq_true, small, if_false]
      rw [← Int64.ofInt_toInt value, signed]
      rfl
  | negSucc magnitude =>
      rw [signed] at low
      rw [signedDecimal, scanInt64, scanDigits_minus _ ends, Option.map_some]
      have bound : magnitude + 1 ≤ 2 ^ 63 := by
        simp only [Int.negSucc_eq] at low
        omega
      have value_eq : value = -Int64.ofNat (magnitude + 1) := by
        rw [← Int64.ofInt_toInt value, signed, Int.negSucc_eq,
          Int64.ofInt_neg]
        rfl
      rcases Nat.lt_or_eq_of_le bound with small | least
      · simp only [signedValue, if_true, Nat.not_le.mpr small, if_false,
          value_eq]
      · rw [value_eq, least]
        rfl

end MatchingBench.Lib.Stdio
