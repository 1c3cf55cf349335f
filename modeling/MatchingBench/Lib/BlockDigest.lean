import Mathlib.Algebra.Order.Group.Nat
import Mathlib.Data.Nat.ModEq
import Mathlib.Tactic.Ring

/-!
# Iterated block digests

A compression function folded over the blocks of a message, for any block
size: which part of a message it has absorbed, which part is still too short
for a block, and how the two behave when the message comes in pieces.  A
message is closed by a marker, zeros up to the last bytes of a block, and
those last bytes.
-/

set_option autoImplicit false

namespace MatchingBench.Lib.BlockDigest

variable {α σ : Type}

/-! ## Absorbing whole blocks -/

/-- Compress so many blocks off the front of a message. -/
def absorbBlocks
    (compress : σ → List α → σ) (size : Nat) : Nat → σ → List α → σ
  | 0, state, _ => state
  | count + 1, state, message =>
      absorbBlocks compress size count
        (compress state (message.take size)) (message.drop size)

/-- Compress every whole block of a message. -/
def absorb
    (compress : σ → List α → σ) (size : Nat) (state : σ)
    (message : List α) : σ :=
  absorbBlocks compress size (message.length / size) state message

/-- What is left behind the last whole block. -/
def leftover (size : Nat) (message : List α) : List α :=
  message.drop (size * (message.length / size))

theorem absorb_of_short
    (compress : σ → List α → σ) {size : Nat} (state : σ) {message : List α}
    (short : message.length < size) :
    absorb compress size state message = state := by
  rw [absorb, Nat.div_eq_of_lt short, absorbBlocks]

theorem leftover_of_short
    {size : Nat} {message : List α} (short : message.length < size) :
    leftover size message = message := by
  rw [leftover, Nat.div_eq_of_lt short, Nat.mul_zero, List.drop_zero]

theorem length_leftover (size : Nat) (message : List α) :
    (leftover size message).length = message.length % size := by
  rw [leftover, List.length_drop]
  have split := Nat.div_add_mod message.length size
  omega

section Positive

variable {size : Nat} (positive : 0 < size)
include positive

theorem length_leftover_lt (message : List α) :
    (leftover size message).length < size := by
  rw [length_leftover]
  exact Nat.mod_lt _ positive

/-- A block in front of a message is compressed first. -/
theorem absorb_block
    (compress : σ → List α → σ) (state : σ) {block : List α}
    (whole : block.length = size) (message : List α) :
    absorb compress size state (block ++ message) =
      absorb compress size (compress state block) message := by
  have count : (block ++ message).length / size =
      message.length / size + 1 := by
    rw [List.length_append, whole, Nat.add_comm, Nat.add_div_right _ positive]
  rw [absorb, count, absorbBlocks, List.take_left' whole,
    List.drop_left' whole, absorb]

/-- A block in front of a message leaves nothing of its own. -/
theorem leftover_block
    {block : List α} (whole : block.length = size) (message : List α) :
    leftover size (block ++ message) = leftover size message := by
  have count : (block ++ message).length / size =
      message.length / size + 1 := by
    rw [List.length_append, whole, Nat.add_comm, Nat.add_div_right _ positive]
  rw [leftover, count, Nat.mul_succ, Nat.add_comm, ← List.drop_drop,
    List.drop_left' whole, leftover]

/-- A message that goes on is absorbed from the leftover on. -/
theorem absorb_append
    (compress : σ → List α → σ) (state : σ) (front back : List α) :
    absorb compress size state (front ++ back) =
      absorb compress size (absorb compress size state front)
        (leftover size front ++ back) := by
  induction blocks : front.length / size generalizing state front with
  | zero =>
      have short : front.length < size :=
        (Nat.div_eq_zero_iff_lt positive).mp blocks
      rw [absorb_of_short compress state short, leftover_of_short short]
  | succ count induction =>
      have enough : size ≤ front.length := by
        by_contra short
        rw [Nat.div_eq_of_lt (Nat.not_le.mp short)] at blocks
        exact absurd blocks.symm (Nat.succ_ne_zero count)
      have whole : (front.take size).length = size := by
        rw [List.length_take, Nat.min_eq_left enough]
      have fewer : (front.drop size).length / size = count := by
        rw [Nat.div_eq_sub_div positive enough] at blocks
        rw [List.length_drop]
        exact Nat.succ.inj blocks
      have rest := induction (compress state (front.take size))
        (front.drop size) fewer
      have split := List.take_append_drop size front
      calc
        absorb compress size state (front ++ back) =
            absorb compress size state
              (front.take size ++ (front.drop size ++ back)) := by
          rw [← List.append_assoc, split]
        _ = absorb compress size (compress state (front.take size))
              (front.drop size ++ back) :=
          absorb_block positive compress state whole _
        _ = _ := rest
        _ = _ := by
          conv_rhs => rw [← split]
          rw [absorb_block positive compress state whole,
            leftover_block positive whole]

/-- A message that completes its leftover to a block has that block left. -/
theorem absorb_completed
    (compress : σ → List α → σ) (state : σ) {front back : List α}
    (whole : (leftover size front ++ back).length = size) :
    absorb compress size state (front ++ back) =
      compress (absorb compress size state front)
        (leftover size front ++ back) := by
  have block := absorb_block positive compress
    (absorb compress size state front) whole []
  rw [List.append_nil] at block
  rw [absorb_append positive, block,
    absorb_of_short compress _ (by simpa using positive)]

/-- Going on, a message leaves what goes on behind its own leftover. -/
theorem leftover_append (front back : List α) :
    leftover size (front ++ back) =
      leftover size (leftover size front ++ back) := by
  have inside : size * (front.length / size) ≤ front.length :=
    Nat.mul_div_le _ _
  have aligned :
      (front ++ back).length / size =
        front.length / size +
          (leftover size front ++ back).length / size := by
    rw [List.length_append, List.length_append, length_leftover,
      ← Nat.mul_add_div positive, ← Nat.add_assoc, Nat.div_add_mod]
  rw [leftover, aligned, Nat.mul_add, ← List.drop_drop,
    List.drop_append_of_le_length inside]
  rfl

end Positive

/-! ## Closing a message -/

/-- The zeros that bring a marked message up to its last bytes. -/
def zeroCount (size tailSize length : Nat) : Nat :=
  (2 * size - tailSize - (length + 1) % size) % size

/-- A message behind which a marker, zeros and the last bytes are put. -/
def closed
    (size : Nat) (marker zero : α) (tail message : List α) : List α :=
  message ++ marker ::
    (List.replicate (zeroCount size tail.length message.length) zero ++ tail)

/-- The digest of a message: every block of the closed message compressed. -/
def digest
    (compress : σ → List α → σ) (size : Nat) (marker zero : α)
    (start : σ) (tail message : List α) : σ :=
  absorb compress size start (closed size marker zero tail message)

section Closed

variable {size tailSize : Nat} (fits : tailSize < size)
include fits

/-- The marker stands in the block of the leftover. -/
theorem marked_mod_size (length : Nat) :
    (length + 1) % size =
      if length % size + 1 = size then 0 else length % size + 1 := by
  have below := Nat.mod_lt length (Nat.zero_lt_of_lt fits)
  have moved : (length + 1) % size = (length % size + 1) % size := by
    rw [Nat.mod_add_mod]
  rw [moved]
  split
  · rename_i full
    rw [full, Nat.mod_self]
  · exact Nat.mod_eq_of_lt (by omega)

/-- There is room behind the marker: the zeros end this block. -/
theorem zeroCount_of_room
    {length : Nat} (room : length % size + 1 + tailSize ≤ size) :
    zeroCount size tailSize length =
      size - tailSize - (length % size + 1) := by
  rw [zeroCount, marked_mod_size fits]
  split
  · rw [show tailSize = 0 by omega, Nat.sub_zero, Nat.sub_zero,
      Nat.mul_mod_left]
    omega
  · have around :
        2 * size - tailSize - (length % size + 1) =
          size - tailSize - (length % size + 1) + size := by
      omega
    rw [around, Nat.add_mod_right, Nat.mod_eq_of_lt (by omega)]

/-- There is none: the zeros go on into the next block. -/
theorem zeroCount_of_full
    {length : Nat} (full : size < length % size + 1 + tailSize) :
    zeroCount size tailSize length =
      size - (length % size + 1) + (size - tailSize) := by
  have below := Nat.mod_lt length (Nat.zero_lt_of_lt fits)
  rw [zeroCount, marked_mod_size fits]
  split
  · rw [Nat.sub_zero,
      show 2 * size - tailSize = size - tailSize + size by omega,
      Nat.add_mod_right, Nat.mod_eq_of_lt (by omega)]
    omega
  · rw [Nat.mod_eq_of_lt (by omega)]
    omega

/-- A closed message is a whole number of blocks. -/
theorem length_closed_mod_size
    (marker zero : α) {tail : List α} (tailLength : tail.length = tailSize)
    (message : List α) :
    (closed size marker zero tail message).length % size = 0 := by
  have below := Nat.mod_lt message.length (Nat.zero_lt_of_lt fits)
  have split := Nat.div_add_mod message.length size
  have length :
      (closed size marker zero tail message).length =
        message.length + 1 + zeroCount size tailSize message.length +
          tailSize := by
    simp only [closed, List.length_append, List.length_cons,
      List.length_replicate, tailLength]
    omega
  rw [length]
  by_cases room : message.length % size + 1 + tailSize ≤ size
  · rw [zeroCount_of_room fits room]
    have blocks :
        message.length + 1 +
            (size - tailSize - (message.length % size + 1)) + tailSize =
          size * (message.length / size) + size := by
      omega
    rw [blocks, Nat.add_mod_right, Nat.mul_mod_right]
  · rw [zeroCount_of_full fits (Nat.not_le.mp room)]
    have blocks :
        message.length + 1 +
            (size - (message.length % size + 1) + (size - tailSize)) +
            tailSize =
          size * (message.length / size) + size + size := by
      omega
    rw [blocks, Nat.add_mod_right, Nat.add_mod_right, Nat.mul_mod_right]

variable (compress : σ → List α → σ) (marker zero : α) (start : σ)
  {tail : List α} (tailLength : tail.length = tailSize) (message : List α)
include tailLength

/-- With room behind the marker one more block is compressed. -/
theorem digest_of_room
    (room : (leftover size message).length + 1 + tailSize ≤ size) :
    digest compress size marker zero start tail message =
      compress (absorb compress size start message)
        (leftover size message ++ marker ::
          (List.replicate
            (size - tailSize - ((leftover size message).length + 1)) zero ++
              tail)) := by
  have positive := Nat.zero_lt_of_lt fits
  have zeros := room
  rw [length_leftover] at zeros
  have block :
      (leftover size message ++ marker ::
        (List.replicate
          (size - tailSize - ((leftover size message).length + 1)) zero ++
            tail)).length = size := by
    simp only [List.length_append, List.length_cons, List.length_replicate,
      tailLength]
    omega
  rw [digest, closed, tailLength, zeroCount_of_room fits zeros,
    absorb_append positive, ← length_leftover]
  conv_lhs => rw [← List.append_nil (_ ++ _ :: _)]
  rw [absorb_block positive compress _ block,
    absorb_of_short compress _ positive]

/-- Without it the marker's block is filled and another one follows. -/
theorem digest_of_full
    (full : size < (leftover size message).length + 1 + tailSize) :
    digest compress size marker zero start tail message =
      compress
        (compress (absorb compress size start message)
          (leftover size message ++ marker ::
            List.replicate (size - ((leftover size message).length + 1))
              zero))
        (List.replicate (size - tailSize) zero ++ tail) := by
  have positive := Nat.zero_lt_of_lt fits
  have below := length_leftover_lt positive message
  have zeros := full
  rw [length_leftover] at zeros
  have first :
      (leftover size message ++ marker ::
        List.replicate (size - ((leftover size message).length + 1))
          zero).length = size := by
    simp only [List.length_append, List.length_cons, List.length_replicate]
    omega
  have last :
      (List.replicate (size - tailSize) zero ++ tail).length = size := by
    rw [List.length_append, List.length_replicate, tailLength]
    omega
  rw [digest, closed, tailLength, zeroCount_of_full fits zeros,
    absorb_append positive, ← length_leftover,
    ← List.replicate_append_replicate, List.append_assoc, ← List.cons_append, ← List.append_assoc,
    absorb_block positive compress _ first]
  conv_lhs => rw [← List.append_nil (_ ++ tail)]
  rw [absorb_block positive compress _ last,
    absorb_of_short compress _ positive]

end Closed

end MatchingBench.Lib.BlockDigest
