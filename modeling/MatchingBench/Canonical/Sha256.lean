import MatchingBench.Harness.ReferenceHash
import MatchingBench.Lib.BlockDigest
import MatchingBench.Lib.ByteBuffer

/-!
# The vendored SHA-256

`third_party/sha256.c`.  A context holds the chaining state, the number of
bits compressed so far, and a buffer of which the first `buflen` bytes are in
use; what stands behind them is whatever was there before.  A step yields
`none` where the code would write past the end of the buffer.
-/

set_option autoImplicit false

namespace MatchingBench.Canonical.Sha256

open MatchingBench.Lib.BlockDigest
open MatchingBench.Lib.ByteBuffer
open MatchingBench.Harness.ReferenceHash

/-! ## Words -/

/-- `ROTR`. -/
def rotr (x n : UInt32) : UInt32 :=
  (x >>> n) ||| (x <<< (32 - n))

/-- `CH`. -/
def ch (x y z : UInt32) : UInt32 :=
  (x &&& y) ^^^ (~~~x &&& z)

/-- `MAJ`. -/
def maj (x y z : UInt32) : UInt32 :=
  (x &&& y) ^^^ (x &&& z) ^^^ (y &&& z)

/-- `EP0`. -/
def ep0 (x : UInt32) : UInt32 :=
  rotr x 2 ^^^ rotr x 13 ^^^ rotr x 22

/-- `EP1`. -/
def ep1 (x : UInt32) : UInt32 :=
  rotr x 6 ^^^ rotr x 11 ^^^ rotr x 25

/-- `SIG0`. -/
def sig0 (x : UInt32) : UInt32 :=
  rotr x 7 ^^^ rotr x 18 ^^^ (x >>> 3)

/-- `SIG1`. -/
def sig1 (x : UInt32) : UInt32 :=
  rotr x 17 ^^^ rotr x 19 ^^^ (x >>> 10)

/-- `K`. -/
def k : List UInt32 :=
  [0x428a2f98, 0x71374491, 0xb5c0fbcf, 0xe9b5dba5, 0x3956c25b, 0x59f111f1,
   0x923f82a4, 0xab1c5ed5, 0xd807aa98, 0x12835b01, 0x243185be, 0x550c7dc3,
   0x72be5d74, 0x80deb1fe, 0x9bdc06a7, 0xc19bf174, 0xe49b69c1, 0xefbe4786,
   0x0fc19dc6, 0x240ca1cc, 0x2de92c6f, 0x4a7484aa, 0x5cb0a9dc, 0x76f988da,
   0x983e5152, 0xa831c66d, 0xb00327c8, 0xbf597fc7, 0xc6e00bf3, 0xd5a79147,
   0x06ca6351, 0x14292967, 0x27b70a85, 0x2e1b2138, 0x4d2c6dfc, 0x53380d13,
   0x650a7354, 0x766a0abb, 0x81c2c92e, 0x92722c85, 0xa2bfe8a1, 0xa81a664b,
   0xc24b8b70, 0xc76c51a3, 0xd192e819, 0xd6990624, 0xf40e3585, 0x106aa070,
   0x19a4c116, 0x1e376c08, 0x2748774c, 0x34b0bcb5, 0x391c0cb3, 0x4ed8aa4a,
   0x5b9cca4f, 0x682e6ff3, 0x748f82ee, 0x78a5636f, 0x84c87814, 0x8cc70208,
   0x90befffa, 0xa4506ceb, 0xbef9a3f7, 0xc67178f2]

/-! ## `sha256_transform` -/

/-- The eight words of `state`. -/
structure Words where
  a : UInt32
  b : UInt32
  c : UInt32
  d : UInt32
  e : UInt32
  f : UInt32
  g : UInt32
  h : UInt32
deriving DecidableEq, Repr

/-- `w[i]` for one of the first sixteen words. -/
def loadWord (p : List UInt8) (i : Nat) : UInt32 :=
  ((p.getD (i * 4) 0).toUInt32 <<< 24) |||
    ((p.getD (i * 4 + 1) 0).toUInt32 <<< 16) |||
    ((p.getD (i * 4 + 2) 0).toUInt32 <<< 8) |||
    (p.getD (i * 4 + 3) 0).toUInt32

/-- One iteration of the loop that extends `w`. -/
def extendWord (w : List UInt32) (i : Nat) : List UInt32 :=
  w ++ [sig1 (w.getD (i - 2) 0) + w.getD (i - 7) 0 +
    sig0 (w.getD (i - 15) 0) + w.getD (i - 16) 0]

/-- `w`. -/
def schedule (p : List UInt8) : List UInt32 :=
  (List.range' 16 48).foldl extendWord ((List.range 16).map (loadWord p))

/-- One iteration of the compression loop, with `K[i]` and `w[i]`. -/
def round (s : Words) (kw : UInt32 × UInt32) : Words :=
  let t1 := s.h + ep1 s.e + ch s.e s.f s.g + kw.1 + kw.2
  let t2 := ep0 s.a + maj s.a s.b s.c
  { a := t1 + t2
    b := s.a
    c := s.b
    d := s.c
    e := s.d + t1
    f := s.e
    g := s.f
    h := s.g }

/-- `sha256_transform`: the state behind a block. -/
def transform (state : Words) (p : List UInt8) : Words :=
  let s := (k.zip (schedule p)).foldl round state
  { a := state.a + s.a
    b := state.b + s.b
    c := state.c + s.c
    d := state.d + s.d
    e := state.e + s.e
    f := state.f + s.f
    g := state.g + s.g
    h := state.h + s.h }

/-! ## The context -/

/-- `sha256_ctx`. -/
structure Ctx where
  state : Words
  bitlen : UInt64
  buf : List UInt8
  buflen : Nat
deriving DecidableEq, Repr

/-- The memory of `buf`, whatever it holds. -/
abbrev Memory : Type :=
  { buf : List UInt8 // buf.length = 64 }

/-- The state that `sha256_init` sets. -/
def initialState : Words where
  a := 0x6a09e667
  b := 0xbb67ae85
  c := 0x3c6ef372
  d := 0xa54ff53a
  e := 0x510e527f
  f := 0x9b05688c
  g := 0x1f83d9ab
  h := 0x5be0cd19

/-- `sha256_init`, which leaves `buf` as it is. -/
def sha256Init (memory : Memory) : Ctx where
  state := initialState
  bitlen := 0
  buf := memory.val
  buflen := 0

/-- The loop of `sha256_update`, for at most so many iterations. -/
def updateLoop : Nat → Ctx → List UInt8 → Option Ctx
  | _, c, [] => some c
  | 0, _, _ :: _ => none
  | fuel + 1, c, p =>
      let take := min (64 - c.buflen) p.length
      (put c.buf c.buflen (p.take take)).bind fun buf =>
        let c := { c with buf := buf, buflen := c.buflen + take }
        let c :=
          if c.buflen = 64 then
            { c with
              state := transform c.state c.buf
              bitlen := c.bitlen + 512
              buflen := 0 }
          else c
        updateLoop fuel c (p.drop take)

/-- `sha256_update`: every iteration takes a byte at least. -/
def sha256Update (c : Ctx) (data : List UInt8) : Option Ctx :=
  updateLoop data.length c data

/-- The eight bytes of `bits`, most significant first. -/
def lengthBytes (bits : UInt64) : List UInt8 :=
  [7, 6, 5, 4, 3, 2, 1, 0].map fun s : UInt64 => (bits >>> (s * 8)).toUInt8

/-- The bytes of one word, most significant first. -/
def wordBytes (word : UInt32) : List UInt8 :=
  [(word >>> 24).toUInt8, (word >>> 16).toUInt8, (word >>> 8).toUInt8,
    word.toUInt8]

/-- `out`. -/
def outBytes (s : Words) : List UInt8 :=
  [s.a, s.b, s.c, s.d, s.e, s.f, s.g, s.h].flatMap wordBytes

/-- `sha256_final`. -/
def sha256Final (c : Ctx) : Option (List UInt8) := do
  let bits := c.bitlen + UInt64.ofNat c.buflen * 8
  let (buf, i) ← putNext (c.buf, c.buflen) 0x80
  let (state, buf, i) ←
    if i > 56 then do
      let (buf, _) ← (List.replicate (64 - i) 0).foldlM putNext (buf, i)
      pure (transform c.state buf, buf, 0)
    else
      pure (c.state, buf, i)
  let (buf, i) ← (List.replicate (56 - i) 0).foldlM putNext (buf, i)
  let (buf, _) ← (lengthBytes bits).foldlM putNext (buf, i)
  return outBytes (transform state buf)

/-- The digits of one byte: `H[digest[i] >> 4]` and `H[digest[i] & 0xf]`. -/
def hexByte (byte : UInt8) : List Char :=
  let digits := "0123456789abcdef".toList
  [digits.getD (byte >>> 4).toNat '0', digits.getD (byte &&& 0xf).toNat '0']

/-- `sha256_hex`, without the terminator, over the memory of its context. -/
def sha256Hex (memory : Memory) (data : List UInt8) : Option (List Char) :=
  (sha256Update (sha256Init memory) data).bind fun c =>
    (sha256Final c).map fun digest => digest.flatMap hexByte

/-! ## What is hashed -/

/-- A message closed by a set bit, zeros and its length in bits. -/
def padded (message : List UInt8) : List UInt8 :=
  closed 64 0x80 0 (lengthBytes (UInt64.ofNat (8 * message.length))) message

/-- SHA-256 of a whole message: its padded blocks of 64 bytes, compressed. -/
def sha256 (message : List UInt8) : List UInt8 :=
  outBytes (absorb transform 64 initialState (padded message))

/-- Feed a message in pieces. -/
def updateAll (c : Ctx) (pieces : List (List UInt8)) : Option Ctx :=
  pieces.foldlM sha256Update c

/-- The context has taken in exactly these bytes. -/
structure Fed (done : List UInt8) (c : Ctx) : Prop where
  state : c.state = absorb transform 64 initialState done
  bitlen : c.bitlen = UInt64.ofNat (512 * (done.length / 64))
  size : c.buf.length = 64
  buflen : c.buflen = (leftover 64 done).length
  pending : c.buf.take c.buflen = leftover 64 done

theorem fed_init (memory : Memory) : Fed [] (sha256Init memory) where
  state := rfl
  bitlen := rfl
  size := memory.property
  buflen := rfl
  pending := rfl

theorem Fed.buflen_lt
    {done : List UInt8} {c : Ctx} (fed : Fed done c) : c.buflen < 64 := by
  rw [fed.buflen]
  exact length_leftover_lt (by decide) done

/-- One iteration of the loop takes in the bytes it copies. -/
theorem Fed.copied
    {done piece : List UInt8} {c : Ctx} (fed : Fed done c)
    (fits : c.buflen + piece.length ≤ 64) :
    let buf := overwrite c.buf c.buflen piece
    let buflen := c.buflen + piece.length
    Fed (done ++ piece)
      (if buflen = 64 then
        { state := transform c.state buf
          bitlen := c.bitlen + 512
          buf := buf
          buflen := 0 }
      else
        { c with buf := buf, buflen := buflen }) := by
  intro buf buflen
  have size : buf.length = 64 := by
    rw [length_overwrite (by rw [fed.size]; exact fits), fed.size]
  have taken : buf.take buflen = leftover 64 done ++ piece := by
    rw [take_overwrite (by rw [fed.size]; exact fits), fed.pending]
  have length : (leftover 64 done ++ piece).length = buflen := by
    rw [List.length_append, ← fed.buflen]
  have counted := length_leftover 64 done
  rw [← fed.buflen] at counted
  have positive : 0 < 64 := by decide
  split
  · rename_i full
    rw [full] at length taken
    rw [List.take_of_length_le size.le] at taken
    constructor
    · rw [absorb_completed positive transform initialState length, fed.state,
        taken]
    · have blocks : (done ++ piece).length / 64 = done.length / 64 + 1 := by
        rw [List.length_append]
        omega
      rw [blocks, fed.bitlen, Nat.mul_succ, UInt64.ofNat_add]
      rfl
    · exact size
    · have none_ := leftover_block positive length ([] : List UInt8)
      rw [List.append_nil] at none_
      rw [leftover_append positive, none_]
      rfl
    · have none_ := leftover_block positive length ([] : List UInt8)
      rw [List.append_nil] at none_
      rw [leftover_append positive, none_]
      rfl
  · rename_i open_
    have short : (leftover 64 done ++ piece).length < 64 := by
      omega
    constructor
    · rw [absorb_append positive, absorb_of_short transform _ short,
        fed.state]
    · have blocks : (done ++ piece).length / 64 = done.length / 64 := by
        rw [List.length_append]
        omega
      rw [blocks, fed.bitlen]
    · exact size
    · rw [leftover_append positive, leftover_of_short short, length]
    · rw [leftover_append positive, leftover_of_short short, taken]

theorem updateLoop_fed
    {fuel : Nat} {done data : List UInt8} {c : Ctx}
    (enough : data.length ≤ fuel) (fed : Fed done c) :
    ∃ next, updateLoop fuel c data = some next ∧ Fed (done ++ data) next := by
  induction fuel generalizing done data c with
  | zero =>
      have none_ := List.eq_nil_of_length_eq_zero (Nat.le_zero.mp enough)
      subst none_
      exact ⟨c, rfl, by rwa [List.append_nil]⟩
  | succ fuel induction =>
      cases data with
      | nil => exact ⟨c, rfl, by rwa [List.append_nil]⟩
      | cons byte data =>
          have room := fed.buflen_lt
          generalize whole : byte :: data = p at *
          have some_ : 0 < p.length := by
            rw [← whole]
            exact Nat.succ_pos _
          have length :
              (p.take (min (64 - c.buflen) p.length)).length =
                min (64 - c.buflen) p.length := by
            rw [List.length_take, Nat.min_assoc, Nat.min_self]
          have fits :
              c.buflen +
                (p.take (min (64 - c.buflen) p.length)).length ≤ 64 := by
            omega
          have copied := fed.copied fits
          obtain ⟨next, ran, ends⟩ :=
            @induction _ (p.drop (min (64 - c.buflen) p.length)) _
              (by rw [List.length_drop]; omega) copied
          rw [List.append_assoc, List.take_append_drop] at ends
          refine ⟨next, ?_, ends⟩
          rw [← ran, ← whole, updateLoop, whole, put,
            if_pos (by rw [fed.size]; exact fits), length]
          · rfl
          · exact List.cons_ne_nil byte data

theorem updateAll_fed
    {done : List UInt8} {c : Ctx} (fed : Fed done c)
    (pieces : List (List UInt8)) :
    ∃ next, updateAll c pieces = some next ∧
      Fed (done ++ pieces.flatten) next := by
  induction pieces generalizing done c with
  | nil => exact ⟨c, rfl, by rwa [List.flatten_nil, List.append_nil]⟩
  | cons piece pieces induction =>
      obtain ⟨next, ran, taken⟩ := updateLoop_fed (Nat.le_refl _) fed
      obtain ⟨last, rest, ends⟩ := induction taken
      refine ⟨last, ?_, by rwa [List.flatten_cons, ← List.append_assoc]⟩
      rw [updateAll, List.foldlM_cons, sha256Update, ran]
      exact rest

/-! ## Closing the message -/

@[simp]
theorem length_lengthBytes (bits : UInt64) : (lengthBytes bits).length = 8 :=
  rfl

/-- The last loops fill the block: its front, zeros and the length. -/
theorem exists_lastBlock
    {buf : List UInt8} (size : buf.length = 64) {i : Nat} (room : i ≤ 56)
    (bits : UInt64) :
    ∃ zeroed last,
      (List.replicate (56 - i) 0).foldlM putNext (buf, i) =
          some (zeroed, 56) ∧
        (lengthBytes bits).foldlM putNext (zeroed, 56) = some (last, 64) ∧
        last =
          buf.take i ++ (List.replicate (56 - i) 0 ++ lengthBytes bits) := by
  have reached : i + (List.replicate (56 - i) (0 : UInt8)).length = 56 := by
    rw [List.length_replicate]
    omega
  obtain ⟨zeroed, put, zeroedSize, zeroedTake⟩ :=
    @exists_foldlM_putNext buf (List.replicate (56 - i) 0) i
      (by rw [reached, size]; decide)
  rw [reached] at put zeroedTake
  obtain ⟨last, putLast, lastSize, lastTake⟩ :=
    @exists_foldlM_putNext zeroed (lengthBytes bits) 56
      (by rw [zeroedSize, size]; exact Nat.le_refl 64)
  refine ⟨zeroed, last, put, putLast, ?_⟩
  rw [length_lengthBytes, List.take_of_length_le
    (by rw [lastSize, zeroedSize, size])] at lastTake
  rw [lastTake, zeroedTake, List.append_assoc]

/-- `sha256_final` digests what the context has taken in. -/
theorem Fed.final
    {done : List UInt8} {c : Ctx} (fed : Fed done c) :
    sha256Final c = some (sha256 done) := by
  have room := fed.buflen_lt
  have bits :
      c.bitlen + UInt64.ofNat c.buflen * 8 =
        UInt64.ofNat (8 * done.length) := by
    have split := Nat.div_add_mod done.length 64
    rw [fed.bitlen, fed.buflen, length_leftover,
      show (8 : UInt64) = UInt64.ofNat 8 from rfl, ← UInt64.ofNat_mul,
      ← UInt64.ofNat_add]
    congr 1
    omega
  obtain ⟨marked, putMark, markedSize, markedTake⟩ :=
    @exists_foldlM_putNext c.buf [0x80] c.buflen
      (by rw [fed.size]; exact room)
  rw [fed.pending, List.length_singleton] at markedTake
  rw [fed.size] at markedSize
  rw [List.foldlM_cons, bind_congr fun _ => List.foldlM_nil, bind_pure,
    List.length_singleton] at putMark
  by_cases full : c.buflen + 1 > 56
  · obtain ⟨filled, putZeros, filledSize, filledTake⟩ :=
      @exists_foldlM_putNext marked
        (List.replicate (64 - (c.buflen + 1)) 0) (c.buflen + 1)
        (by rw [markedSize, List.length_replicate]; omega)
    have whole :
        c.buflen + 1 +
          (List.replicate (64 - (c.buflen + 1)) (0 : UInt8)).length = 64 := by
      rw [List.length_replicate]
      omega
    rw [markedSize] at filledSize
    rw [whole, List.take_of_length_le filledSize.le, markedTake,
      List.append_assoc, List.singleton_append] at filledTake
    obtain ⟨zeroed, last, putFront, putLength, lastBlock⟩ :=
      @exists_lastBlock filled filledSize 0 (Nat.zero_le 56)
        (UInt64.ofNat (8 * done.length))
    have closing := digest_of_full (show 8 < 64 by decide) transform 0x80 0
      initialState (length_lengthBytes (UInt64.ofNat (8 * done.length))) done
      (by rw [← fed.buflen]; omega)
    rw [← fed.buflen, ← fed.state, ← filledTake] at closing
    simp only [sha256Final, putMark, bits, Option.bind_eq_bind,
      Option.bind_some, if_pos full, putZeros, Option.pure_def, putFront,
      putLength]
    rw [digest] at closing
    rw [sha256, padded, closing, lastBlock]
    rfl
  · obtain ⟨zeroed, last, putFront, putLength, lastBlock⟩ :=
      @exists_lastBlock marked markedSize (c.buflen + 1) (by omega)
        (UInt64.ofNat (8 * done.length))
    have closing := digest_of_room (show 8 < 64 by decide) transform 0x80 0
      initialState (length_lengthBytes (UInt64.ofNat (8 * done.length))) done
      (by rw [← fed.buflen]; omega)
    rw [← fed.buflen, ← fed.state] at closing
    rw [markedTake, List.append_assoc, List.singleton_append] at lastBlock
    simp only [sha256Final, putMark, bits, Option.bind_eq_bind,
      Option.bind_some, if_neg full, Option.pure_def, putFront, putLength]
    rw [digest] at closing
    rw [sha256, padded, closing, lastBlock]

/--
Fed in pieces of any sizes, over whatever its memory held, the context writes
inside its buffer and digests exactly the joined message, padded to whole
blocks.
-/
theorem streaming_exact (memory : Memory) (pieces : List (List UInt8)) :
    (∃ c, updateAll (sha256Init memory) pieces = some c ∧
      sha256Final c = some (sha256 pieces.flatten)) ∧
      (padded pieces.flatten).length % 64 = 0 := by
  obtain ⟨c, ran, fed⟩ := updateAll_fed (fed_init memory) pieces
  refine ⟨⟨c, ran, fed.final⟩, ?_⟩
  exact length_closed_mod_size (show 8 < 64 by decide) 0x80 0
    (length_lengthBytes _) _

/-! ## The hexadecimal digest -/

/-- The memory of a context whose bytes were never written. -/
def untouched : Memory :=
  ⟨List.replicate 64 0xaa, List.length_replicate⟩

example :
    sha256Hex untouched ("abc".toList.map fun c => UInt8.ofNat c.toNat) =
      some
        ("ba7816bf8f01cfea414140de5dae2223" ++
          "b00361a396177a9cb410ff61f20015ad").toList := by
  decide +kernel

theorem length_outBytes (s : Words) : (outBytes s).length = 32 :=
  rfl

theorem hexByte_digits (byte : UInt8) :
    (hexByte byte).length = 2 ∧ (hexByte byte).all hexChar = true := by
  have digit (n : Nat) :
      hexChar ("0123456789abcdef".toList.getD n '0') = true := by
    rw [List.getD_eq_getElem?_getD]
    cases found : "0123456789abcdef".toList[n]? with
    | none => rfl
    | some c =>
        rw [Option.getD_some, hexChar, List.contains_iff_mem]
        exact List.mem_of_getElem? found
  refine ⟨rfl, ?_⟩
  simp only [hexByte, List.all_cons, List.all_nil, digit, Bool.and_true]

/-- The value of a digit. -/
def digitValue (digit : Char) : Nat :=
  "0123456789abcdef".toList.idxOf digit

theorem value_hexByte (n : Fin 256) :
    ((hexByte (UInt8.ofFin n)).map digitValue).foldl (16 * · + ·) 0 =
      n.val := by
  revert n
  decide +kernel

theorem hexByte_injective : Function.Injective hexByte := by
  intro a b same
  have left := value_hexByte a.toFin
  have right := value_hexByte b.toFin
  rw [UInt8.ofFin_toFin] at left right
  rw [same, right] at left
  exact UInt8.toFin_inj.mp (Fin.ext left.symm)

/-- The digits tell the digest. -/
theorem flatMap_hexByte_injective :
    Function.Injective fun bytes : List UInt8 => bytes.flatMap hexByte := by
  intro a
  induction a with
  | nil =>
      intro b same
      cases b with
      | nil => rfl
      | cons byte b => cases same
  | cons first a induction =>
      intro b same
      cases b with
      | nil => cases same
      | cons byte b =>
          have split :=
            (List.append_inj same (by
              rw [(hexByte_digits first).1, (hexByte_digits byte).1]))
          rw [hexByte_injective split.1, induction split.2]

/-- The digits of a digest are a hash as `read_hash_file` accepts one. -/
theorem isHash_hexDigest (message : List UInt8) :
    isHash ((sha256 message).flatMap hexByte) = true := by
  have each : ∀ bytes : List UInt8,
      (bytes.flatMap hexByte).length = 2 * bytes.length ∧
        (bytes.flatMap hexByte).all hexChar = true := by
    intro bytes
    induction bytes with
    | nil => exact ⟨rfl, rfl⟩
    | cons byte bytes induction =>
        have digits := hexByte_digits byte
        rw [List.flatMap_cons, List.length_append, List.all_append,
          digits.1, digits.2, induction.1, induction.2, List.length_cons]
        exact ⟨by omega, rfl⟩
  have whole := each (sha256 message)
  rw [sha256, length_outBytes] at whole
  rw [isHash, sha256, whole.1, whole.2]
  rfl

/-- The digest of a message, as it is published. -/
def hexDigest (message : List UInt8) : Digest where
  hex := (sha256 message).flatMap hexByte
  isHash := isHash_hexDigest message

end MatchingBench.Canonical.Sha256
