import Mathlib.Data.Nat.Digits.Defs

/-!
# Little-endian bytes

Numbers as bytes of a fixed width, least significant first; fields at an
offset of a run of bytes, and a reader that takes bytes off the front.
-/

set_option autoImplicit false

namespace MatchingBench.Lib.LittleEndian

/-! ## Numbers -/

/-- The bytes of a number, cut off at a width. -/
def encode : Nat → Nat → List UInt8
  | 0, _ => []
  | width + 1, value => UInt8.ofNat value :: encode width (value / 256)

/-- The number that bytes stand for. -/
def decode (bytes : List UInt8) : Nat :=
  Nat.ofDigits 256 (bytes.map UInt8.toNat)

@[simp]
theorem length_encode (width value : Nat) :
    (encode width value).length = width := by
  induction width generalizing value with
  | zero => rfl
  | succ width induction =>
      rw [encode, List.length_cons, induction]

theorem decode_encode (width value : Nat) :
    decode (encode width value) = value % 256 ^ width := by
  induction width generalizing value with
  | zero => simp [encode, decode, Nat.mod_one]
  | succ width induction =>
      have rest := induction (value / 256)
      rw [decode] at rest
      rw [encode, decode, List.map_cons, Nat.ofDigits_cons, rest,
        Nat.pow_succ', Nat.mod_mul, UInt8.toNat_ofNat']

/-- A number below the width is read back. -/
theorem decode_encode_of_lt
    {width value : Nat} (fits : value < 256 ^ width) :
    decode (encode width value) = value := by
  rw [decode_encode, Nat.mod_eq_of_lt fits]

theorem decode_uint8 (value : UInt8) :
    UInt8.ofNat (decode [value]) = value := by
  simp [decode]

theorem decode_uint32 (value : UInt32) :
    UInt32.ofNat (decode (encode 4 value.toNat)) = value := by
  rw [decode_encode_of_lt value.toNat_lt]
  exact UInt32.ofNat_toNat

theorem decode_uint64 (value : UInt64) :
    UInt64.ofNat (decode (encode 8 value.toNat)) = value := by
  rw [decode_encode_of_lt value.toNat_lt]
  exact UInt64.ofNat_toNat

/-! ## Fields -/

/-- The number in the bytes at an offset. -/
def field (bytes : List UInt8) (offset width : Nat) : Nat :=
  decode ((bytes.drop offset).take width)

/-- The first field. -/
theorem field_head
    {bytes : List UInt8} {width : Nat} (size : bytes.length = width)
    (back : List UInt8) :
    field (bytes ++ back) 0 width = decode bytes := by
  rw [field, List.drop_zero, List.take_left' size]

/-- A field behind other bytes. -/
theorem field_skip
    {front : List UInt8} {offset : Nat} (behind : front.length ≤ offset)
    (bytes : List UInt8) (width : Nat) :
    field (front ++ bytes) offset width =
      field bytes (offset - front.length) width := by
  rw [field, field, List.drop_append, List.drop_eq_nil_of_le behind,
    List.nil_append]

/-! ## Reading -/

/-- `fread` of one item, which comes whole or not at all. -/
def fread (width : Nat) (bytes : List UInt8) :
    Option (List UInt8 × List UInt8) :=
  if width ≤ bytes.length then some (bytes.take width, bytes.drop width)
  else none

theorem fread_append
    {item : List UInt8} {width : Nat} (size : item.length = width)
    (rest : List UInt8) :
    fread width (item ++ rest) = some (item, rest) := by
  rw [fread, if_pos (by simp [size]), List.take_left' size,
    List.drop_left' size]

theorem fread_of_short
    {width : Nat} {bytes : List UInt8} (short : bytes.length < width) :
    fread width bytes = none :=
  if_neg (Nat.not_le.mpr short)

end MatchingBench.Lib.LittleEndian
