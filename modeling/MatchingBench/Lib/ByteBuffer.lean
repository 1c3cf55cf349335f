import MatchingBench.Lib.LittleEndian

/-!
# Byte buffers

A buffer of fixed size with absolute, bounds-checked writes.  A write outside
the buffer fails; one inside changes exactly the bytes it covers.
-/

set_option autoImplicit false

namespace MatchingBench.Lib.ByteBuffer

open MatchingBench.Lib.LittleEndian

/-! ## One write -/

/-- The buffer with bytes put over those at an offset. -/
def overwrite
    (buffer : List UInt8) (offset : Nat) (bytes : List UInt8) :
    List UInt8 :=
  buffer.take offset ++ bytes ++ buffer.drop (offset + bytes.length)

/-- An absolute `put`; out of bounds it fails. -/
def put
    (buffer : List UInt8) (offset : Nat) (bytes : List UInt8) :
    Option (List UInt8) :=
  if offset + bytes.length ≤ buffer.length then
    some (overwrite buffer offset bytes)
  else none

/-- An absolute `get`; out of bounds it fails. -/
def get (buffer : List UInt8) (offset width : Nat) : Option Nat :=
  if offset + width ≤ buffer.length then some (field buffer offset width)
  else none

section Overwrite

variable {buffer bytes : List UInt8} {offset : Nat}
  (fits : offset + bytes.length ≤ buffer.length)
include fits

theorem length_overwrite :
    (overwrite buffer offset bytes).length = buffer.length := by
  simp only [overwrite, List.length_append, List.length_take,
    List.length_drop]
  omega

/-- The buffer up to the end of the write. -/
theorem take_overwrite :
    (overwrite buffer offset bytes).take (offset + bytes.length) =
      buffer.take offset ++ bytes := by
  apply List.take_left'
  rw [List.length_append, List.length_take]
  omega

/-- What was put is read back. -/
theorem field_overwrite :
    field (overwrite buffer offset bytes) offset bytes.length =
      decode bytes := by
  have front : (buffer.take offset).length = offset := by
    rw [List.length_take]
    omega
  rw [field, overwrite, List.append_assoc, List.drop_left' front,
    List.take_left' rfl]

/-- Bytes in front of the write stay. -/
theorem field_overwrite_before
    {other width : Nat} (before : other + width ≤ offset) :
    field (overwrite buffer offset bytes) other width =
      field buffer other width := by
  have front : (buffer.take offset).length = offset := by
    rw [List.length_take]
    omega
  rw [field, field, overwrite, List.append_assoc,
    List.drop_append_of_le_length (by omega),
    List.take_append_of_le_length (by rw [List.length_drop]; omega),
    List.drop_take, List.take_take, Nat.min_eq_left (by omega)]

/-- Bytes behind the write stay. -/
theorem field_overwrite_behind
    {other width : Nat} (behind : offset + bytes.length ≤ other) :
    field (overwrite buffer offset bytes) other width =
      field buffer other width := by
  have front : (buffer.take offset ++ bytes).length =
      offset + bytes.length := by
    rw [List.length_append, List.length_take]
    omega
  rw [overwrite, field_skip (by omega), front, field, field, List.drop_drop]
  congr 3
  omega

end Overwrite

/-! ## Several writes -/

/-- Writes in order: each an offset and its bytes. -/
def putAll (buffer : List UInt8) : List (Nat × List UInt8) →
    Option (List UInt8)
  | [] => some buffer
  | write :: writes =>
      (put buffer write.1 write.2).bind fun next => putAll next writes

/-- A write stays clear of a range. -/
def Clear (write : Nat × List UInt8) (offset width : Nat) : Prop :=
  offset + width ≤ write.1 ∨ write.1 + write.2.length ≤ offset

/-- A write that stays clear of a range leaves it. -/
theorem field_overwrite_clear
    {buffer : List UInt8} {write : Nat × List UInt8}
    (fits : write.1 + write.2.length ≤ buffer.length)
    {offset width : Nat} (clear : Clear write offset width) :
    field (overwrite buffer write.1 write.2) offset width =
      field buffer offset width := by
  rcases clear with before | behind
  · exact field_overwrite_before fits before
  · exact field_overwrite_behind fits behind

/-- Writes of disjoint ranges inside the buffer are all read back. -/
theorem putAll_of_fits
    {buffer : List UInt8} {writes : List (Nat × List UInt8)}
    (fits : ∀ write ∈ writes, write.1 + write.2.length ≤ buffer.length)
    (disjoint :
      writes.Pairwise fun a b => Clear b a.1 a.2.length) :
    ∃ after, putAll buffer writes = some after ∧
      after.length = buffer.length ∧
      (∀ write ∈ writes,
        field after write.1 write.2.length = decode write.2) ∧
      ∀ offset width, (∀ write ∈ writes, Clear write offset width) →
        field after offset width = field buffer offset width := by
  induction writes generalizing buffer with
  | nil =>
      refine ⟨buffer, rfl, rfl, ?_, fun _ _ _ => rfl⟩
      intro write member
      exact absurd member List.not_mem_nil
  | cons write writes induction =>
      rw [List.forall_mem_cons] at fits
      rw [List.pairwise_cons] at disjoint
      have size := length_overwrite fits.1
      obtain ⟨after, wrote, afterSize, read, kept⟩ :=
        @induction (overwrite buffer write.1 write.2)
          (fun other member => size.symm ▸ fits.2 other member) disjoint.2
      refine ⟨after, ?_, afterSize.trans size, ?_, ?_⟩
      · rw [putAll, put, if_pos fits.1, Option.bind_some, wrote]
      · intro other member
        rcases List.mem_cons.mp member with rfl | later
        · rw [kept _ _ disjoint.1, field_overwrite fits.1]
        · exact read other later
      · intro offset width clear
        rw [List.forall_mem_cons] at clear
        rw [kept offset width clear.2,
          field_overwrite_clear fits.1 clear.1]

/-- A write past the end fails. -/
theorem putAll_of_overrun
    {buffer : List UInt8} {writes : List (Nat × List UInt8)}
    {write : Nat × List UInt8} (member : write ∈ writes)
    (overrun : buffer.length < write.1 + write.2.length) :
    putAll buffer writes = none := by
  induction writes generalizing buffer with
  | nil => exact absurd member List.not_mem_nil
  | cons first writes induction =>
      rw [putAll, put]
      split
      · rename_i fits
        rw [Option.bind_some]
        rcases List.mem_cons.mp member with rfl | later
        · omega
        · apply induction later
          rw [length_overwrite fits]
          exact overrun
      · rfl

/-! ## Byte by byte -/

/-- `buffer[i++] = byte`, on a buffer with its position. -/
def putNext (place : List UInt8 × Nat) (byte : UInt8) :
    Option (List UInt8 × Nat) :=
  (put place.1 place.2 [byte]).map fun next => (next, place.2 + 1)

/-- Bytes put one after another make one write. -/
theorem foldlM_putNext
    {buffer bytes : List UInt8} {offset : Nat}
    (fits : offset + bytes.length ≤ buffer.length) :
    bytes.foldlM putNext (buffer, offset) =
      some (overwrite buffer offset bytes, offset + bytes.length) := by
  induction bytes generalizing buffer offset with
  | nil =>
      simp only [List.foldlM_nil, overwrite, List.length_nil, Nat.add_zero,
        List.append_nil, List.take_append_drop]
      rfl
  | cons byte bytes induction =>
      rw [List.length_cons] at fits
      have one : offset + [byte].length ≤ buffer.length := by
        rw [List.length_singleton]
        omega
      have size := length_overwrite one
      have rest := @induction (overwrite buffer offset [byte]) (offset + 1)
        (by rw [size]; omega)
      have joined :
          overwrite (overwrite buffer offset [byte]) (offset + 1) bytes =
            overwrite buffer offset (byte :: bytes) := by
        have front : (buffer.take offset).length = offset := by
          rw [List.length_take]
          omega
        have head :
            (buffer.take offset ++ [byte]).length = offset + 1 := by
          rw [List.length_append, front, List.length_singleton]
        have behind :
            (buffer.take offset ++ [byte]).drop (offset + 1 + bytes.length) =
              [] :=
          List.drop_eq_nil_of_le (by rw [head]; omega)
        simp only [overwrite]
        rw [List.take_left' head, List.drop_append, behind, head,
          List.nil_append, List.drop_drop]
        simp only [List.append_assoc, List.cons_append, List.nil_append,
          List.length_nil, List.length_cons]
        congr 4
        omega
      rw [List.foldlM_cons, putNext, put, if_pos one]
      change bytes.foldlM putNext (overwrite buffer offset [byte],
        offset + 1) = _
      rw [rest, joined, List.length_cons]
      congr 2
      omega

/-- What bytes put one after another leave, up to the position behind them. -/
theorem exists_foldlM_putNext
    {buffer bytes : List UInt8} {offset : Nat}
    (fits : offset + bytes.length ≤ buffer.length) :
    ∃ next,
      bytes.foldlM putNext (buffer, offset) =
          some (next, offset + bytes.length) ∧
        next.length = buffer.length ∧
        next.take (offset + bytes.length) = buffer.take offset ++ bytes :=
  ⟨_, foldlM_putNext fits, length_overwrite fits, take_overwrite fits⟩

end MatchingBench.Lib.ByteBuffer
