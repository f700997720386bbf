import HobbyOS.PhysicalMemory.Manager

namespace HobbyOS

/-!
# The bits that an operation writes

The loops of the manager use `pmm_set_block` and `pmm_unset_block` on one
block after the other.  The list of these uses says which bits are written,
also where a bit had its new value before, and replaying it gives the bitmap
that the operation leaves.
-/

/-- One use of `pmm_set_block` or `pmm_unset_block`, with the bit it leaves. -/
structure BitWrite where
  block : Nat
  bit : Bool
  deriving DecidableEq

/-- Perform one write. -/
def BitWrite.apply (memoryBlocks : Bitmap) (write : BitWrite) : Bitmap :=
  if write.bit then pmmSetBlock memoryBlocks write.block
  else pmmUnsetBlock memoryBlocks write.block

/-- Perform writes in order. -/
def applyBitWrites (memoryBlocks : Bitmap) (writes : List BitWrite) :
    Bitmap :=
  writes.foldl BitWrite.apply memoryBlocks

/-- Writes after writes. -/
theorem applyBitWrites_append
    (memoryBlocks : Bitmap)
    (first second : List BitWrite) :
    applyBitWrites memoryBlocks (first ++ second) =
      applyBitWrites (applyBitWrites memoryBlocks first) second :=
  List.foldl_append

/-- The blocks that a list of writes is about. -/
def BitWritten (writes : List BitWrite) (block : Nat) : Prop :=
  ∃ write ∈ writes, write.block = block

/-- A loop that writes the bits of `count` numbered blocks. -/
def loopWrites (number : Nat → Nat) (bit : Bool) (count : Nat) :
    List BitWrite :=
  (List.range count).map fun i => ⟨number i, bit⟩

/-- A loop writes the bits of the blocks it numbers. -/
theorem bitWritten_loopWrites
    {number : Nat → Nat}
    {bit : Bool}
    {count block : Nat} :
    BitWritten (loopWrites number bit count) block ↔
      ∃ i < count, number i = block := by
  simp [BitWritten, loopWrites]

/-- The blocks of writes after writes. -/
theorem bitWritten_append
    {first second : List BitWrite}
    {block : Nat} :
    BitWritten (first ++ second) block ↔
      BitWritten first block ∨ BitWritten second block := by
  simp only [BitWritten, List.mem_append, or_and_right, exists_or]

/-- One more iteration writes one more bit. -/
theorem loopWrites_succ
    (number : Nat → Nat)
    (bit : Bool)
    (count : Nat) :
    loopWrites number bit (count + 1) =
      loopWrites number bit count ++ [⟨number count, bit⟩] := by
  simp [loopWrites, List.range_succ]

/-- The writes of the loops that set a range of blocks. -/
theorem setBlocks_eq_applyBitWrites
    (memoryBlocks : Bitmap)
    (first count : Nat) :
    setBlocks memoryBlocks first count =
      applyBitWrites memoryBlocks
        (loopWrites (fun i => first + i) true count) := by
  induction count with
  | zero =>
      rfl
  | succ count inductionHypothesis =>
      rw [loopWrites_succ, applyBitWrites_append, setBlocks,
        inductionHypothesis]
      rfl

/-- The writes of the loops that clear a range of blocks. -/
theorem unsetBlocks_eq_applyBitWrites
    (memoryBlocks : Bitmap)
    (first count : Nat) :
    unsetBlocks memoryBlocks first count =
      applyBitWrites memoryBlocks
        (loopWrites (fun i => first + i) false count) := by
  induction count with
  | zero =>
      rfl
  | succ count inductionHypothesis =>
      rw [loopWrites_succ, applyBitWrites_append, unsetBlocks,
        inductionHypothesis]
      rfl

/-! ## Writes of the operations -/

/-- Bits written by `pmm_intialize_memory_region`. -/
def pmmIntializeMemoryRegionWrites (startAddress size : BitVec 64) :
    List BitWrite :=
  loopWrites (fun i => regionFirst startAddress + i) false
      (regionCount startAddress size) ++
    [⟨0, true⟩]

/-- Bits written by `pmm_deintialize_memory_region`. -/
def pmmDeintializeMemoryRegionWrites (startAddress size : BitVec 64) :
    List BitWrite :=
  loopWrites (fun i => regionFirst startAddress + i) true
    (regionCount startAddress size)

/-- Bits written by `pmm_allocate_blocks`. -/
def pmmAllocateBlocksWrites (pmm : Pmm) (size : SizeT) : List BitWrite :=
  if BitVec.ofNat 64 pmm.maxMemoryBlocks - pmm.usedMemoryBlocks <
      size.setWidth 64 then
    []
  else
    let start := pmmFindFirstFreeRun pmm size
    if start = 0 then
      []
    else
      loopWrites (fun i => start.toNat + i) true size.toNat

/-- Bits written by `pmm_free_blocks`. -/
def pmmFreeBlocksWrites (address : PtrT) (size : SizeT) :
    List BitWrite :=
  loopWrites (fun i => address.toNat / 4096 + i) false size.toNat

/-- `pmm_intialize_memory_region` performs its writes. -/
theorem pmmIntializeMemoryRegion_memoryBlocks
    (pmm : Pmm)
    (startAddress size : BitVec 64) :
    (pmmIntializeMemoryRegion pmm startAddress size).memoryBlocks =
      applyBitWrites pmm.memoryBlocks
        (pmmIntializeMemoryRegionWrites startAddress size) := by
  rw [pmmIntializeMemoryRegionWrites, applyBitWrites_append,
    ← unsetBlocks_eq_applyBitWrites]
  rfl

/-- `pmm_deintialize_memory_region` performs its writes. -/
theorem pmmDeintializeMemoryRegion_memoryBlocks
    (pmm : Pmm)
    (startAddress size : BitVec 64) :
    (pmmDeintializeMemoryRegion pmm startAddress size).memoryBlocks =
      applyBitWrites pmm.memoryBlocks
        (pmmDeintializeMemoryRegionWrites startAddress size) :=
  setBlocks_eq_applyBitWrites _ _ _

/-- `pmm_allocate_blocks` performs its writes. -/
theorem pmmAllocateBlocks_memoryBlocks
    (pmm : Pmm)
    (size : SizeT) :
    (pmmAllocateBlocks pmm size).2.memoryBlocks =
      applyBitWrites pmm.memoryBlocks
        (pmmAllocateBlocksWrites pmm size) := by
  unfold pmmAllocateBlocks pmmAllocateBlocksWrites
  split
  · rfl
  · dsimp only
    split
    · rfl
    · exact setBlocks_eq_applyBitWrites _ _ _

/-- `pmm_free_blocks` performs its writes. -/
theorem pmmFreeBlocks_memoryBlocks
    (pmm : Pmm)
    (address : PtrT)
    (size : SizeT) :
    (pmmFreeBlocks pmm address size).memoryBlocks =
      applyBitWrites pmm.memoryBlocks
        (pmmFreeBlocksWrites address size) :=
  unsetBlocks_eq_applyBitWrites _ _ _

/-! ## Regions -/

/-- The end of the rounded region, when the sum does not wrap. -/
theorem regionEnd_eq
    {startAddress size : BitVec 64}
    (noOverflow : startAddress.toNat + size.toNat < 2 ^ 64) :
    regionEnd startAddress size =
      (startAddress.toNat + size.toNat + 4095) / 4096 := by
  have sum :
      (startAddress + size).toNat = startAddress.toNat + size.toNat := by
    rw [BitVec.toNat_add, Nat.mod_eq_of_lt noOverflow]
  unfold regionEnd
  rw [sum]
  split <;> omega

/-- Both region loops write the bits up to the end, which is inclusive. -/
theorem bitWritten_regionLoop
    {startAddress size : BitVec 64}
    {bit : Bool}
    {block : Nat} :
    BitWritten
        (loopWrites (fun i => regionFirst startAddress + i) bit
          (regionCount startAddress size))
        block ↔
      regionFirst startAddress ≤ block ∧
        block ≤ regionEnd startAddress size := by
  rw [bitWritten_loopWrites]
  unfold regionCount
  constructor
  · rintro ⟨i, below, rfl⟩
    omega
  · rintro ⟨lower, upper⟩
    exact ⟨block - regionFirst startAddress, by omega, by omega⟩

/--
All bits that the writes are about belong to managed blocks, and lie in the
bytes of the bitmap.
-/
def WritesInside (maxMemoryBlocks : Nat) (writes : List BitWrite) : Prop :=
  ∀ block,
    BitWritten writes block →
    block < maxMemoryBlocks ∧ block / 8 < (maxMemoryBlocks + 7) / 8

/-- A managed block has its bit in the bitmap. -/
theorem writesInside_iff
    {maxMemoryBlocks : Nat}
    {writes : List BitWrite} :
    WritesInside maxMemoryBlocks writes ↔
      ∀ block, BitWritten writes block → block < maxMemoryBlocks := by
  constructor
  · exact fun inside block written => (inside block written).1
  · intro inside block written
    have managed := inside block written
    exact ⟨managed, by omega⟩

/--
For a region inside the managed memory, the writes of both region functions
stay in the bitmap exactly when the region leaves out the last block.
-/
theorem regionWrites_inside_iff
    (totalMemory : BitVec 64)
    {startAddress size : BitVec 64}
    (nonempty : 1 ≤ size.toNat)
    (contained :
      startAddress.toNat + size.toNat ≤
        totalMemory.toNat / 4096 * 4096) :
    (WritesInside (totalMemory.toNat / 4096)
          (pmmIntializeMemoryRegionWrites startAddress size) ∧
        WritesInside (totalMemory.toNat / 4096)
          (pmmDeintializeMemoryRegionWrites startAddress size)) ↔
      startAddress.toNat + size.toNat ≤
        (totalMemory.toNat / 4096 - 1) * 4096 := by
  have bounded := totalMemory.isLt
  have ends :=
    regionEnd_eq (show startAddress.toNat + size.toNat < 2 ^ 64 by omega)
  have ordered : regionFirst startAddress ≤ regionEnd startAddress size := by
    rw [ends]
    unfold regionFirst
    omega
  have single (block : Nat) :
      BitWritten [⟨0, true⟩] block ↔ block = 0 := by
    simp [BitWritten, eq_comm]
  simp only [writesInside_iff, pmmIntializeMemoryRegionWrites,
    pmmDeintializeMemoryRegionWrites, bitWritten_append,
    bitWritten_regionLoop, single]
  constructor
  · rintro ⟨_, inside⟩
    have last := inside _ ⟨ordered, Nat.le_refl _⟩
    rw [ends, Nat.div_lt_iff_lt_mul (by decide)] at last
    rw [Nat.sub_mul]
    omega
  · intro left
    refine ⟨?_, ?_⟩
    · rintro block (⟨_, upper⟩ | rfl) <;> omega
    · rintro block ⟨_, upper⟩
      omega

/-- A region of two bytes around a block border, below the last block. -/
theorem regionWrites_inside_iff_unaligned :
    WritesInside 8 (pmmIntializeMemoryRegionWrites 0x4FFF 2) ∧
      WritesInside 8 (pmmDeintializeMemoryRegionWrites 0x4FFF 2) :=
  (regionWrites_inside_iff 0x8000 (by decide) (by decide)).mpr (by decide)

/-- The last page of 32 KiB as a region reaches the bit behind the bitmap. -/
theorem regionWrites_inside_fails :
    ¬∀ totalMemory startAddress size : BitVec 64,
        1 ≤ size.toNat →
        startAddress.toNat + size.toNat ≤
          totalMemory.toNat / 4096 * 4096 →
        WritesInside (totalMemory.toNat / 4096)
            (pmmIntializeMemoryRegionWrites startAddress size) ∧
          WritesInside (totalMemory.toNat / 4096)
            (pmmDeintializeMemoryRegionWrites startAddress size) := by
  intro inside
  have both := inside 0x8000 0x7000 0x1000 (by decide) (by decide)
  have written :
      BitWritten (pmmDeintializeMemoryRegionWrites 0x7000 0x1000) 8 :=
    bitWritten_regionLoop.mpr (by decide)
  have managed := (both.2 8 written).1
  exact absurd managed (by decide)

end HobbyOS
