import MatchingBench.Harness.Marshalling
import MatchingBench.Lib.LittleEndian
import MatchingBench.Workload.Generator

/-!
# Workload files

Three programs read or write the format of 16 bytes of header and 40 bytes a
record: `write_binary` of the generator and `write_bin` of the conformance
suite write it, `load_workload` of the harness reads it, and `tape_ok` of
`scripts/validate_seeds.py` checks its length.
-/

set_option autoImplicit false

namespace MatchingBench.Workload.File

open MatchingBench.Harness.Marshalling
open MatchingBench.Lib.LittleEndian

/-- `WORKLOAD_MAGIC`. -/
def workloadMagic : Nat := 0x4D4542575F303031

/-- `WORKLOAD_VERSION`. -/
def workloadVersion : Nat := 1

/-! ## `write_binary` -/

/-- The 16 bytes of the header. -/
def headerBytes (count : Nat) : List UInt8 :=
  encode 8 workloadMagic ++ encode 4 workloadVersion ++ encode 4 count

/-- The 40 bytes of a record. -/
def recordBytes (seq : Nat) (m : Generator.Msg) : List UInt8 :=
  [m.type, m.side, m.ioc, 0] ++ encode 4 m.qty.toNat ++ encode 8 seq ++
    encode 8 m.orderId.toNat ++ encode 8 m.priceTicks.toUInt64.toNat ++
    encode 8 0

/-- The bytes that `write_binary` hands over. -/
def workloadBytes (tl : List Generator.Msg) : List UInt8 :=
  headerBytes tl.length ++ (tl.mapIdx recordBytes).flatten

/-- What the C library answers: how many bytes it takes, and `fclose`. -/
structure FileOutcome where
  opened : Bool
  accepted : Nat
  closed : Bool

/-- `write_binary`: the returned flag and the bytes in the file. -/
def writeBinary (tl : List Generator.Msg) (file : FileOutcome) :
    Bool × Option (List UInt8) :=
  if file.opened then
    (decide ((workloadBytes tl).length ≤ file.accepted) && file.closed,
      some ((workloadBytes tl).take file.accepted))
  else
    (false, none)

/-! ## `write_bin` -/

/-- A message of a case: `(type, side, ioc, qty, order_id, price_ticks)`. -/
structure CaseMsg where
  type : Int
  side : Int
  ioc : Int
  qty : Int
  orderId : Int
  priceTicks : Int
deriving DecidableEq, Repr

/-- `struct.pack` of an unsigned field; out of range is an error. -/
def packUnsigned (width : Nat) (value : Int) : Option (List UInt8) :=
  if 0 ≤ value ∧ value < 256 ^ width then some (encode width value.toNat)
  else none

/-- `struct.pack` of a signed field. -/
def packSigned (width : Nat) (value : Int) : Option (List UInt8) :=
  if -(256 ^ width / 2) ≤ value ∧ value < 256 ^ width / 2 then
    some (encode width (value % 256 ^ width).toNat)
  else
    none

/-- `struct.pack("<BBBBIQQqq", …)`. -/
def packRecord (seq : Nat) (m : CaseMsg) : Option (List UInt8) := do
  let type ← packUnsigned 1 m.type
  let side ← packUnsigned 1 m.side
  let ioc ← packUnsigned 1 m.ioc
  let pad ← packUnsigned 1 0
  let qty ← packUnsigned 4 m.qty
  let seq ← packUnsigned 8 seq
  let orderId ← packUnsigned 8 m.orderId
  let price ← packSigned 8 m.priceTicks
  let reserved ← packSigned 8 0
  return type ++ side ++ ioc ++ pad ++ qty ++ seq ++ orderId ++ price ++
    reserved

/-- The loop of `write_bin`, from a sequence number. -/
def packRecords : Nat → List CaseMsg → Option (List UInt8)
  | _, [] => some []
  | seq, m :: msgs => do
      let record ← packRecord seq m
      let rest ← packRecords (seq + 1) msgs
      return record ++ rest

/-- `write_bin`. -/
def writeBin (msgs : List CaseMsg) : Option (List UInt8) := do
  let magic ← packUnsigned 8 workloadMagic
  let version ← packUnsigned 4 1
  let count ← packUnsigned 4 msgs.length
  let records ← packRecords 0 msgs
  return magic ++ version ++ count ++ records

/-! ## `load_workload` -/

/-- `RawRecord`: the 40-byte on-disk record. -/
structure RawRecord where
  type : UInt8
  side : UInt8
  ioc : UInt8
  pad : UInt8
  qty : UInt32
  seq : UInt64
  orderId : UInt64
  priceTicks : Int64
  reserved : Int64
deriving DecidableEq, Repr

/-- The fields of a record at their offsets. -/
def rawRecord (bytes : List UInt8) : RawRecord where
  type := UInt8.ofNat (field bytes 0 1)
  side := UInt8.ofNat (field bytes 1 1)
  ioc := UInt8.ofNat (field bytes 2 1)
  pad := UInt8.ofNat (field bytes 3 1)
  qty := UInt32.ofNat (field bytes 4 4)
  seq := UInt64.ofNat (field bytes 8 8)
  orderId := UInt64.ofNat (field bytes 16 8)
  priceTicks := (UInt64.ofNat (field bytes 24 8)).toInt64
  reserved := (UInt64.ofNat (field bytes 32 8)).toInt64

/-- The array of records. -/
def rawRecords : Nat → List UInt8 → List RawRecord
  | 0, _ => []
  | count + 1, bytes => rawRecord bytes :: rawRecords count (bytes.drop 40)

/-- The decoding loop, from an index. -/
def decodeRecords (path : String) :
    Nat → List RawRecord → Except String (List WorkloadMsg)
  | _, [] => .ok []
  | i, r :: raw =>
      if r.type > 2 then
        .error ("ERROR: " ++ path ++ " record " ++ toString i ++
          " has invalid type " ++ toString r.type ++
          " (expected 0=NEW, 1=CANCEL, 2=MODIFY). File is corrupt.\n")
      else
        (decodeRecords path (i + 1) raw).map fun out =>
          { type := r.type
            side := r.side
            ioc := r.ioc
            qty := r.qty
            seq := r.seq
            orderId := r.orderId
            priceTicks := r.priceTicks } :: out

/-- Magic, version, count and what follows. -/
def readHeader (file : List UInt8) : Option (Nat × Nat × Nat × List UInt8) := do
  let (magic, file) ← fread 8 file
  let (version, file) ← fread 4 file
  let (count, file) ← fread 4 file
  return (decode magic, decode version, decode count, file)

/-- `load_workload` of a file, if it can be opened. -/
def loadWorkload (path : String) :
    Option (List UInt8) → Except String (List WorkloadMsg)
  | none => .error ("fopen " ++ path)
  | some file =>
      let invalid := "ERROR: " ++ path ++ " is not a valid workload file\n"
      match readHeader file with
      | none => .error invalid
      | some (magic, version, count, file) =>
          if magic ≠ workloadMagic then
            .error invalid
          else if version ≠ workloadVersion then
            .error ("ERROR: " ++ path ++ " has workload version " ++
              toString version ++ "; this harness expects version " ++
              toString workloadVersion ++ ". Re-generate the workload with " ++
              "the matching ./generator.\n")
          else if count = 0 ∨ workloadMax < count then
            .error ("ERROR: " ++ path ++ " declares " ++ toString count ++
              " records; valid range is [1, " ++ toString workloadMax ++
              "]. File is corrupt or was produced by an incompatible " ++
              "generator.\n")
          else
            match fread (40 * count) file with
            | none => .error ("ERROR: short read from " ++ path ++ "\n")
            | some (raw, _) => decodeRecords path 0 (rawRecords count raw)

/-! ## `tape_ok` -/

/-- `tape_ok` of a file, if it can be opened. -/
def tapeOk : Option (List UInt8) → Bool
  | none => false
  | some file =>
      let hdr := file.take 16
      let n := if hdr.length = 16 then decode (hdr.drop 12) else 0
      decide (0 < n ∧ file.length = 16 + 40 * n)

/-! ## Records -/

@[simp]
theorem length_recordBytes (seq : Nat) (m : Generator.Msg) :
    (recordBytes seq m).length = 40 := by
  simp [recordBytes]

/-- What the harness makes of the record of a message. -/
def decoded (seq : Nat) (m : Generator.Msg) : WorkloadMsg where
  type := m.type
  side := m.side
  ioc := m.ioc
  qty := m.qty
  seq := UInt64.ofNat seq
  orderId := m.orderId
  priceTicks := m.priceTicks

/-- A record is read back, whatever follows it. -/
theorem rawRecord_recordBytes
    (seq : Nat) (m : Generator.Msg) (rest : List UInt8) :
    rawRecord (recordBytes seq m ++ rest) =
      { type := m.type
        side := m.side
        ioc := m.ioc
        pad := 0
        qty := m.qty
        seq := UInt64.ofNat seq
        orderId := m.orderId
        priceTicks := m.priceTicks
        reserved := 0 } := by
  have bytes :
      recordBytes seq m ++ rest =
        [m.type] ++ ([m.side] ++ ([m.ioc] ++ ([0] ++
          (encode 4 m.qty.toNat ++ (encode 8 seq ++
            (encode 8 m.orderId.toNat ++
              (encode 8 m.priceTicks.toUInt64.toNat ++
                (encode 8 0 ++ rest)))))))) := by
    simp [recordBytes]
  have wrapped :
      UInt64.ofNat (decode (encode 8 seq)) = UInt64.ofNat seq := by
    rw [decode_encode]
    exact UInt64.ofNat_mod_size
  unfold rawRecord
  rw [bytes]
  simp (disch := simp) only [field_head, field_skip, length_encode,
    List.length_singleton, Nat.sub_self, Nat.reduceSub, decode_uint8,
    decode_uint32, decode_uint64, wrapped]
  simp [decode_encode]

theorem length_records (records : Nat → Generator.Msg → List UInt8)
    (size : ∀ i m, (records i m).length = 40) (tl : List Generator.Msg) :
    (tl.mapIdx records).flatten.length = 40 * tl.length := by
  induction tl generalizing records with
  | nil => rfl
  | cons m tl induction =>
      rw [List.mapIdx_cons, List.flatten_cons, List.length_append, size,
        induction _ fun i => size (i + 1), List.length_cons, Nat.mul_succ,
        Nat.add_comm]

theorem length_workloadBytes (tl : List Generator.Msg) :
    (workloadBytes tl).length = 16 + 40 * tl.length := by
  rw [workloadBytes, List.length_append,
    length_records recordBytes length_recordBytes]
  simp [headerBytes]

/-! ## The two writers -/

/-- A message as the conformance suite writes it down. -/
def caseMsg (m : Generator.Msg) : CaseMsg where
  type := m.type.toNat
  side := m.side.toNat
  ioc := m.ioc.toNat
  qty := m.qty.toNat
  orderId := m.orderId.toNat
  priceTicks := m.priceTicks.toInt

/-- Fields within their wire widths. -/
structure CaseMsg.InWidths (m : CaseMsg) : Prop where
  type : 0 ≤ m.type ∧ m.type < 2 ^ 8
  side : 0 ≤ m.side ∧ m.side < 2 ^ 8
  ioc : 0 ≤ m.ioc ∧ m.ioc < 2 ^ 8
  qty : 0 ≤ m.qty ∧ m.qty < 2 ^ 32
  orderId : 0 ≤ m.orderId ∧ m.orderId < 2 ^ 64
  priceTicks : -2 ^ 63 ≤ m.priceTicks ∧ m.priceTicks < 2 ^ 63

/-- Such a message is one of the generator's. -/
theorem CaseMsg.InWidths.exists_msg
    {m : CaseMsg} (inWidths : m.InWidths) :
    ∃ msg : Generator.Msg, caseMsg msg = m := by
  have ⟨type, side, ioc, qty, orderId, price⟩ := inWidths
  refine
    ⟨{ ts := 0
       type := UInt8.ofNat m.type.toNat
       side := UInt8.ofNat m.side.toNat
       ioc := UInt8.ofNat m.ioc.toNat
       qty := UInt32.ofNat m.qty.toNat
       orderId := UInt64.ofNat m.orderId.toNat
       priceTicks := Int64.ofInt m.priceTicks }, ?_⟩
  have byte {value : Int} (fits : 0 ≤ value ∧ value < 2 ^ 8) :
      ((UInt8.ofNat value.toNat).toNat : Int) = value := by
    rw [UInt8.toNat_ofNat_of_lt' (show value.toNat < 2 ^ 8 by omega),
      Int.toNat_of_nonneg fits.1]
  have word : ((UInt32.ofNat m.qty.toNat).toNat : Int) = m.qty := by
    rw [UInt32.toNat_ofNat_of_lt' (show m.qty.toNat < 2 ^ 32 by omega),
      Int.toNat_of_nonneg qty.1]
  have long : ((UInt64.ofNat m.orderId.toNat).toNat : Int) = m.orderId := by
    rw [UInt64.toNat_ofNat_of_lt' (show m.orderId.toNat < 2 ^ 64 by omega),
      Int.toNat_of_nonneg orderId.1]
  have signed : (Int64.ofInt m.priceTicks).toInt = m.priceTicks :=
    Int64.toInt_ofInt_of_le price.1 price.2
  unfold caseMsg
  dsimp only
  rw [byte type, byte side, byte ioc, word, long, signed]

theorem packUnsigned_eq
    (width : Nat) {value : Nat} (fits : value < 256 ^ width) :
    packUnsigned width value = some (encode width value) := by
  rw [packUnsigned, if_pos ⟨Int.natCast_nonneg _, by exact_mod_cast fits⟩]
  rfl

theorem packSigned_eq (price : Int64) :
    packSigned 8 price.toInt =
      some (encode 8 price.toUInt64.toNat) := by
  have low := price.le_toInt
  have high := price.toInt_lt
  have word : (price.toInt % 256 ^ 8).toNat = price.toUInt64.toNat :=
    (BitVec.toNat_ofInt price.toInt).symm.trans
      (congrArg BitVec.toNat (@BitVec.ofInt_toInt 64 price.toBitVec))
  rw [packSigned, if_pos (by omega), word]

theorem packRecord_eq
    {seq : Nat} (fits : seq < 2 ^ 64) (m : Generator.Msg) :
    packRecord seq (caseMsg m) = some (recordBytes seq m) := by
  have zero : packSigned 8 0 = some (encode 8 0) := packSigned_eq 0
  have pad : packUnsigned 1 0 = some (encode 1 0) :=
    packUnsigned_eq 1 (by decide)
  have byte (value : UInt8) : encode 1 value.toNat = [value] := by
    rw [encode, UInt8.ofNat_toNat, encode]
  unfold packRecord caseMsg
  simp only [packUnsigned_eq 1 m.type.toNat_lt,
    packUnsigned_eq 1 m.side.toNat_lt, packUnsigned_eq 1 m.ioc.toNat_lt,
    packUnsigned_eq 4 m.qty.toNat_lt, packUnsigned_eq 8 m.orderId.toNat_lt,
    packUnsigned_eq 8 fits, packSigned_eq, zero, pad, Option.bind_eq_bind,
    Option.bind_some, byte]
  rfl

theorem packRecords_eq
    {seq : Nat} {tl : List Generator.Msg} (fits : seq + tl.length ≤ 2 ^ 64) :
    packRecords seq (tl.map caseMsg) =
      some (tl.mapIdx fun i => recordBytes (seq + i)).flatten := by
  induction tl generalizing seq with
  | nil => rfl
  | cons m tl induction =>
      rw [List.length_cons] at fits
      have later := @induction (seq + 1) (by omega)
      simp only [Nat.add_assoc, Nat.add_comm 1] at later
      rw [List.map_cons, packRecords, packRecord_eq (by omega), later,
        List.mapIdx_cons, List.flatten_cons]
      rfl

/-- Both writers produce the same bytes. -/
theorem writeBin_eq
    {tl : List Generator.Msg} (fits : tl.length < 2 ^ 32) :
    writeBin (tl.map caseMsg) = some (workloadBytes tl) := by
  have records := @packRecords_eq 0 tl (by omega)
  simp only [Nat.zero_add] at records
  unfold writeBin
  rw [List.length_map, records, packUnsigned_eq 4 fits,
    packUnsigned_eq 8 (by decide)]
  rfl

/-- The flag says that the file opened, took every byte and closed. -/
theorem writeBinary_ok_iff
    {tl : List Generator.Msg} {file : FileOutcome} :
    (writeBinary tl file).1 = true ↔
      file.opened = true ∧ (workloadBytes tl).length ≤ file.accepted ∧
        file.closed = true := by
  unfold writeBinary
  by_cases opened : file.opened = true
  · simp [opened]
  · simp [opened]

/-- Such a file holds exactly the bytes of the workload. -/
theorem writeBinary_whole
    {tl : List Generator.Msg} {file : FileOutcome}
    (opened : file.opened = true)
    (fits : (workloadBytes tl).length ≤ file.accepted)
    (closed : file.closed = true) :
    writeBinary tl file = (true, some (workloadBytes tl)) := by
  simp [writeBinary, opened, closed, fits, List.take_of_length_le fits]

theorem writeBinary_of_ok
    {tl : List Generator.Msg} {file : FileOutcome}
    (ok : (writeBinary tl file).1 = true) :
    (writeBinary tl file).2 = some (workloadBytes tl) := by
  obtain ⟨opened, fits, closed⟩ := writeBinary_ok_iff.mp ok
  rw [writeBinary_whole opened fits closed]

/-! ## Reading back -/

/-- The count is cut off to its four bytes. -/
theorem readHeader_headerBytes_mod (count : Nat) (records : List UInt8) :
    readHeader (headerBytes count ++ records) =
      some (workloadMagic, workloadVersion, count % 2 ^ 32, records) := by
  unfold readHeader headerBytes
  rw [List.append_assoc, List.append_assoc, fread_append (length_encode _ _)]
  simp only [Option.bind_eq_bind, Option.bind_some]
  rw [fread_append (length_encode _ _)]
  simp only [Option.bind_some]
  rw [fread_append (length_encode _ _)]
  simp only [Option.bind_some]
  rw [decode_encode_of_lt (by decide), decode_encode_of_lt (by decide),
    decode_encode]
  rfl

theorem readHeader_headerBytes
    {count : Nat} (fits : count < 2 ^ 32) (records : List UInt8) :
    readHeader (headerBytes count ++ records) =
      some (workloadMagic, workloadVersion, count, records) := by
  rw [readHeader_headerBytes_mod, Nat.mod_eq_of_lt fits]

theorem readHeader_of_short
    {file : List UInt8} (short : file.length < 16) :
    readHeader file = none := by
  unfold readHeader
  by_cases magic : 8 ≤ file.length
  · by_cases version : 12 ≤ file.length
    · rw [fread, if_pos magic]
      simp only [Option.bind_eq_bind, Option.bind_some]
      rw [fread, if_pos (by rw [List.length_drop]; omega)]
      simp only [Option.bind_some]
      rw [fread_of_short (by rw [List.length_drop, List.length_drop]; omega)]
      rfl
    · rw [fread, if_pos magic]
      simp only [Option.bind_eq_bind, Option.bind_some]
      rw [fread_of_short (by rw [List.length_drop]; omega)]
      rfl
  · rw [fread_of_short (by omega)]
    rfl

/-- The array of records holds the messages. -/
theorem decodeRecords_eq
    (path : String) (i seq : Nat) {tl : List Generator.Msg}
    (typed : ∀ m ∈ tl, m.type ≤ 2) (rest : List UInt8) :
    decodeRecords path i
        (rawRecords tl.length
          ((tl.mapIdx fun k => recordBytes (seq + k)).flatten ++ rest)) =
      .ok (tl.mapIdx fun k => decoded (seq + k)) := by
  induction tl generalizing i seq with
  | nil => rfl
  | cons m tl induction =>
      have known : ¬m.type > 2 :=
        UInt8.not_lt.mpr (typed m List.mem_cons_self)
      have later := induction (i + 1) (seq + 1) fun other member =>
        typed other (List.mem_cons_of_mem _ member)
      simp only [Nat.add_assoc, Nat.add_comm 1] at later
      rw [List.mapIdx_cons, List.flatten_cons, List.append_assoc,
        List.length_cons, rawRecords, rawRecord_recordBytes,
        List.drop_left' (length_recordBytes _ _), decodeRecords]
      dsimp only
      rw [if_neg known, later, List.mapIdx_cons]
      rfl

/-- The records of a message list, after its header. -/
theorem workloadBytes_eq (tl : List Generator.Msg) :
    workloadBytes tl =
      headerBytes tl.length ++
        (tl.mapIdx fun k => recordBytes (0 + k)).flatten := by
  simp only [Nat.zero_add]
  rfl

/-- A file that is cut off somewhere keeps its header or is shorter than one. -/
theorem prefix_cases
    {tl : List Generator.Msg} {part : List UInt8}
    (cut : part <+: workloadBytes tl) (strict : part ≠ workloadBytes tl) :
    part.length < 16 ∨
      ∃ records, part = headerBytes tl.length ++ records ∧
        records.length < 40 * tl.length := by
  have whole := length_workloadBytes tl
  have shorter : part.length < (workloadBytes tl).length := by
    refine Nat.lt_of_le_of_ne cut.length_le fun same => strict ?_
    exact cut.eq_of_length same
  rcases Nat.lt_or_ge part.length 16 with short | long
  · exact Or.inl short
  · have header : (headerBytes tl.length).length = 16 := by
      simp [headerBytes]
    rcases List.prefix_of_prefix_length_le (List.prefix_append _ _) cut
      (by rw [header]; exact long) with ⟨records, rfl⟩
    refine Or.inr ⟨records, rfl, ?_⟩
    rw [List.length_append, header] at shorter
    omega

section Reading

variable {tl : List Generator.Msg} (nonempty : 1 ≤ tl.length)
  (capped : tl.length ≤ workloadMax)
include nonempty capped

/-- The checks of the header pass. -/
theorem loadWorkload_header (path : String) (records : List UInt8) :
    loadWorkload path (some (headerBytes tl.length ++ records)) =
      match fread (40 * tl.length) records with
      | none => .error ("ERROR: short read from " ++ path ++ "\n")
      | some (raw, _) => decodeRecords path 0 (rawRecords tl.length raw) := by
  have fits : tl.length < 2 ^ 32 :=
    Nat.lt_of_le_of_lt capped (by decide)
  have counted : ¬(tl.length = 0 ∨ workloadMax < tl.length) := by omega
  unfold loadWorkload
  dsimp only
  rw [readHeader_headerBytes fits]
  dsimp only
  rw [if_neg (not_not_intro rfl), if_neg (not_not_intro rfl),
    if_neg counted]

/-- The harness reads the messages back. -/
theorem loadWorkload_workloadBytes
    (typed : ∀ m ∈ tl, m.type ≤ 2) (path : String) :
    loadWorkload path (some (workloadBytes tl)) =
      .ok (tl.mapIdx decoded) := by
  have size := length_records (fun k => recordBytes (0 + k))
    (fun _ _ => length_recordBytes _ _) tl
  have read := decodeRecords_eq path 0 0 typed []
  have whole := fread_append size []
  rw [List.append_nil] at read whole
  rw [workloadBytes_eq, loadWorkload_header nonempty capped, whole]
  dsimp only
  rw [read]
  simp only [Nat.zero_add]

/-- The harness rejects a file that was cut off. -/
theorem loadWorkload_of_cut
    {part : List UInt8} (cut : part <+: workloadBytes tl)
    (strict : part ≠ workloadBytes tl) (path : String) :
    ∃ message, loadWorkload path (some part) = .error message := by
  rcases prefix_cases cut strict with short | ⟨records, rfl, short⟩
  · refine ⟨"ERROR: " ++ path ++ " is not a valid workload file\n", ?_⟩
    unfold loadWorkload
    dsimp only
    rw [readHeader_of_short short]
  · refine ⟨"ERROR: short read from " ++ path ++ "\n", ?_⟩
    rw [loadWorkload_header nonempty capped, fread_of_short short]

end Reading

/-- What is there of the records begins with the first few. -/
theorem take_records
    {tl : List Generator.Msg} {records : List UInt8}
    (cut : records <+: (tl.mapIdx recordBytes).flatten) {count : Nat}
    (few : count ≤ tl.length) (enough : 40 * count ≤ records.length) :
    records.take (40 * count) =
      ((tl.take count).mapIdx fun k => recordBytes (0 + k)).flatten := by
  have counted : (tl.take count).length = count :=
    List.length_take_of_le few
  have split : (tl.mapIdx recordBytes).flatten =
      ((tl.take count).mapIdx fun k => recordBytes (0 + k)).flatten ++
        ((tl.drop count).mapIdx fun k => recordBytes (k + count)).flatten := by
    simp only [Nat.zero_add]
    conv_lhs => rw [← List.take_append_drop count tl]
    rw [List.mapIdx_append, List.flatten_append, counted]
  have size := length_records (fun k => recordBytes (0 + k))
    (fun _ _ => length_recordBytes _ _) (tl.take count)
  rw [counted] at size
  obtain ⟨missing, whole⟩ := cut
  rw [← List.take_append_of_le_length enough, whole, split]
  exact List.take_left' size

/-- Whatever is loaded from a file that may have been cut off. -/
theorem loadWorkload_of_prefix
    {tl : List Generator.Msg} (typed : ∀ m ∈ tl, m.type ≤ 2)
    {part : List UInt8} (cut : part <+: workloadBytes tl) {path : String}
    {msgs : List WorkloadMsg}
    (loaded : loadWorkload path (some part) = .ok msgs) :
    msgs = (tl.take (tl.length % 2 ^ 32)).mapIdx decoded := by
  unfold loadWorkload at loaded
  dsimp only at loaded
  rcases Nat.lt_or_ge part.length 16 with short | long
  · rw [readHeader_of_short short] at loaded
    cases loaded
  · have header : (headerBytes tl.length).length = 16 := by
      simp [headerBytes]
    obtain ⟨records, rfl⟩ := List.prefix_of_prefix_length_le
      (List.prefix_append _ _) cut (by rw [header]; exact long)
    rw [workloadBytes, List.prefix_append_right_inj] at cut
    rw [readHeader_headerBytes_mod] at loaded
    dsimp only at loaded
    rw [if_neg (not_not_intro rfl), if_neg (not_not_intro rfl)] at loaded
    split at loaded
    · cases loaded
    · have few : tl.length % 2 ^ 32 ≤ tl.length := Nat.mod_le _ _
      generalize tl.length % 2 ^ 32 = count at loaded few ⊢
      by_cases enough : 40 * count ≤ records.length
      · have read := @decodeRecords_eq path 0 0 (tl.take count)
          (fun m member => typed m (List.mem_of_mem_take member)) []
        rw [List.append_nil, List.length_take_of_le few,
          ← take_records cut few enough] at read
        rw [fread, if_pos enough] at loaded
        dsimp only at loaded
        rw [read] at loaded
        cases loaded
        simp only [Nat.zero_add]
      · rw [fread, if_neg enough] at loaded
        cases loaded

/-- So does the validator. -/
theorem tapeOk_of_cut
    {tl : List Generator.Msg} (capped : tl.length ≤ workloadMax)
    {part : List UInt8} (cut : part <+: workloadBytes tl)
    (strict : part ≠ workloadBytes tl) : tapeOk (some part) = false := by
  have fits : tl.length < 2 ^ 32 :=
    Nat.lt_of_le_of_lt capped (by decide)
  unfold tapeOk
  dsimp only
  rcases prefix_cases cut strict with short | ⟨records, rfl, short⟩
  · rw [if_neg (by rw [List.length_take]; omega)]
    simp
  · have header : (headerBytes tl.length).length = 16 := by
      simp [headerBytes]
    have count : decode ((headerBytes tl.length).drop 12) = tl.length := by
      rw [headerBytes, List.drop_left' (by simp),
        decode_encode_of_lt fits]
    rw [List.take_left' header, if_pos header, count, List.length_append,
      header, decide_eq_false]
    omega

/--
Workload files round-trip and every truncation is detected: both writers
produce the same bytes (the generator's into every file that opens, takes them
and closes, and it reports no other write as done), the harness reads the
messages back with their indices as sequence numbers, and rejects every strict
prefix, as does the validator.  The messages stand for all those of the
conformance suite whose fields are within their wire widths.
-/
theorem workload_file_round_trip
    (tl : List Generator.Msg) (nonempty : 1 ≤ tl.length)
    (capped : tl.length ≤ workloadMax) (typed : ∀ m ∈ tl, m.type ≤ 2)
    (path : String) :
    writeBin (tl.map caseMsg) = some (workloadBytes tl) ∧
      (∀ file, (writeBinary tl file).1 = true →
        (writeBinary tl file).2 = some (workloadBytes tl)) ∧
      (∀ file : FileOutcome, file.opened = true →
        (workloadBytes tl).length ≤ file.accepted → file.closed = true →
        writeBinary tl file = (true, some (workloadBytes tl))) ∧
      loadWorkload path (some (workloadBytes tl)) = .ok (tl.mapIdx decoded) ∧
      (∀ part, part <+: workloadBytes tl → part ≠ workloadBytes tl →
        (∃ message, loadWorkload path (some part) = .error message) ∧
          tapeOk (some part) = false) ∧
      ∀ m : CaseMsg, m.InWidths → ∃ msg, caseMsg msg = m :=
  ⟨writeBin_eq (Nat.lt_of_le_of_lt capped (by decide)),
    fun _ => writeBinary_of_ok,
    fun _ opened fits closed => writeBinary_whole opened fits closed,
    loadWorkload_workloadBytes nonempty capped typed path,
    fun _ cut strict =>
      ⟨loadWorkload_of_cut nonempty capped cut strict path,
        tapeOk_of_cut capped cut strict⟩,
    fun _ => CaseMsg.InWidths.exists_msg⟩

/-- A sell order at a negative price, and its cancel. -/
def twoMessages : List Generator.Msg :=
  [{ ts := 0, type := 0, side := 1, ioc := 0, qty := 4294967295
     orderId := 18446744073709551615, priceTicks := -1 },
   { ts := 9, type := 1, side := 1, ioc := 0, qty := 0
     orderId := 18446744073709551615, priceTicks := 0 }]

theorem workload_file_round_trip_twoMessages :
    writeBinary twoMessages ⟨true, 96, true⟩ =
        (true, writeBin (twoMessages.map caseMsg)) ∧
      (writeBinary twoMessages ⟨true, 96, true⟩).2.map
          (fun bytes => loadWorkload "orders.bin" (some bytes)) =
        some (.ok (twoMessages.mapIdx decoded)) ∧
      tapeOk (some ((workloadBytes twoMessages).take 95)) = false := by
  obtain ⟨packed, _, whole, read, cut, _⟩ :=
    workload_file_round_trip twoMessages (by decide) (by decide) (by decide)
      "orders.bin"
  have written := whole ⟨true, 96, true⟩ rfl (by decide) rfl
  refine ⟨?_, ?_, (cut _ (List.take_prefix _ _) (by decide)).2⟩
  · rw [written, packed]
  · rw [written, Option.map_some, read]

end MatchingBench.Workload.File
