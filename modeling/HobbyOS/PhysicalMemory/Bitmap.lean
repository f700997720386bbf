import Mathlib.Algebra.Group.Nat.Defs
import Mathlib.Data.Nat.Basic
import Mathlib.Logic.Function.Basic
import HobbyOS.Stddef

namespace HobbyOS

/-!
# The block bitmap

One bit for each physical block, most significant bit first inside every
byte.  A set bit reserves its block.  All facts about the byte-wise updates
are stated on the bits, which determine the bytes.
-/

/-- The bytes from `pmm_memory_blocks` upwards. -/
abbrev Bitmap := Nat → Byte

/-- `0x80 >> (address % PMM_BLOCKS_PER_BYTE)`. -/
def blockMask (address : Nat) : Byte :=
  0x80#8 >>> (address % 8)

/-- `pmm_set_block`. -/
def pmmSetBlock
    (memoryBlocks : Bitmap)
    (address : Nat) :
    Bitmap :=
  Function.update memoryBlocks (address / 8)
    (memoryBlocks (address / 8) ||| blockMask address)

/-- `pmm_unset_block`. -/
def pmmUnsetBlock
    (memoryBlocks : Bitmap)
    (address : Nat) :
    Bitmap :=
  Function.update memoryBlocks (address / 8)
    (memoryBlocks (address / 8) &&& ~~~blockMask address)

/-- `pmm_test_block`. -/
def pmmTestBlock
    (memoryBlocks : Bitmap)
    (address : Nat) :
    Bool :=
  memoryBlocks (address / 8) &&& blockMask address != 0

/--
`pmm_set_block` for `count` blocks from `first` upwards.  The macro casts its
argument to 64 bits, so that the sum of a block number and a counter of 32
bits does not wrap.
-/
def setBlocks
    (memoryBlocks : Bitmap)
    (first : Nat) :
    Nat → Bitmap
  | 0 => memoryBlocks
  | count + 1 =>
      pmmSetBlock (setBlocks memoryBlocks first count) (first + count)

/-- `pmm_unset_block` for `count` blocks from `first` upwards. -/
def unsetBlocks
    (memoryBlocks : Bitmap)
    (first : Nat) :
    Nat → Bitmap
  | 0 => memoryBlocks
  | count + 1 =>
      pmmUnsetBlock (unsetBlocks memoryBlocks first count) (first + count)

/-- The mask of a block is a single bit. -/
theorem blockMask_eq_twoPow (address : Nat) :
    blockMask address = BitVec.twoPow 8 (7 - address % 8) := by
  have shifted :
      ∀ bit : Fin 8,
        0x80#8 >>> bit.val = BitVec.twoPow 8 (7 - bit.val) := by
    decide
  exact shifted ⟨address % 8, Nat.mod_lt _ (by omega)⟩

/-- Testing a block reads its bit, counted from the most significant one. -/
theorem pmmTestBlock_eq_getLsbD
    (memoryBlocks : Bitmap)
    (address : Nat) :
    pmmTestBlock memoryBlocks address =
      (memoryBlocks (address / 8)).getLsbD (7 - address % 8) := by
  have bit : 7 - address % 8 < 8 := by omega
  have nonzero : BitVec.twoPow 8 (7 - address % 8) ≠ 0#8 := by
    intro zero
    have tested :=
      congrArg (fun byte => byte.getLsbD (7 - address % 8)) zero
    simp [BitVec.getLsbD_twoPow] at tested
    omega
  rw [pmmTestBlock, blockMask_eq_twoPow, BitVec.and_twoPow]
  cases (memoryBlocks (address / 8)).getLsbD (7 - address % 8)
  · simp
  · simp [nonzero]

/-- Setting a block sets its bit and no other. -/
@[simp] theorem pmmTestBlock_pmmSetBlock
    (memoryBlocks : Bitmap)
    (address block : Nat) :
    pmmTestBlock (pmmSetBlock memoryBlocks address) block =
      (decide (block = address) || pmmTestBlock memoryBlocks block) := by
  simp only [pmmTestBlock_eq_getLsbD, pmmSetBlock]
  by_cases sameByte : block / 8 = address / 8
  · rw [sameByte, Function.update_self, BitVec.getLsbD_or,
      blockMask_eq_twoPow, BitVec.getLsbD_twoPow, Bool.or_comm]
    congr 1
    rw [Bool.eq_iff_iff]
    simp only [Bool.and_eq_true, decide_eq_true_eq]
    omega
  · have different : block ≠ address := by
      rintro rfl
      exact sameByte rfl
    rw [Function.update_of_ne sameByte]
    simp [different]

/-- Clearing a block clears its bit and no other. -/
@[simp] theorem pmmTestBlock_pmmUnsetBlock
    (memoryBlocks : Bitmap)
    (address block : Nat) :
    pmmTestBlock (pmmUnsetBlock memoryBlocks address) block =
      (decide (block ≠ address) && pmmTestBlock memoryBlocks block) := by
  simp only [pmmTestBlock_eq_getLsbD, pmmUnsetBlock]
  by_cases sameByte : block / 8 = address / 8
  · rw [sameByte, Function.update_self, BitVec.getLsbD_and,
      BitVec.getLsbD_not, blockMask_eq_twoPow, BitVec.getLsbD_twoPow,
      Bool.and_comm]
    congr 1
    rw [Bool.eq_iff_iff]
    simp only [Bool.and_eq_true, Bool.not_eq_true', decide_eq_true_eq,
      Bool.and_eq_false_iff, decide_eq_false_iff_not]
    omega
  · have different : block ≠ address := by
      rintro rfl
      exact sameByte rfl
    rw [Function.update_of_ne sameByte]
    simp [different]

/-- Setting a range sets exactly its bits. -/
@[simp] theorem pmmTestBlock_setBlocks
    (memoryBlocks : Bitmap)
    (first count block : Nat) :
    pmmTestBlock (setBlocks memoryBlocks first count) block =
      (decide (first ≤ block ∧ block < first + count) ||
        pmmTestBlock memoryBlocks block) := by
  induction count with
  | zero =>
      have empty : ¬(first ≤ block ∧ block < first + 0) := by omega
      rw [decide_eq_false empty, Bool.false_or, setBlocks]
  | succ count inductionHypothesis =>
      rw [setBlocks, pmmTestBlock_pmmSetBlock, inductionHypothesis,
        ← Bool.or_assoc]
      congr 1
      rw [← Bool.decide_or, decide_eq_decide]
      omega

/-- Clearing a range clears exactly its bits. -/
@[simp] theorem pmmTestBlock_unsetBlocks
    (memoryBlocks : Bitmap)
    (first count block : Nat) :
    pmmTestBlock (unsetBlocks memoryBlocks first count) block =
      (decide (¬(first ≤ block ∧ block < first + count)) &&
        pmmTestBlock memoryBlocks block) := by
  induction count with
  | zero =>
      have empty : ¬(first ≤ block ∧ block < first + 0) := by omega
      rw [decide_eq_true empty, Bool.true_and, unsetBlocks]
  | succ count inductionHypothesis =>
      rw [unsetBlocks, pmmTestBlock_pmmUnsetBlock, inductionHypothesis,
        ← Bool.and_assoc]
      congr 1
      rw [← Bool.decide_and, decide_eq_decide]
      omega

end HobbyOS
