import HobbyOS.PhysicalMemory.BitWrites
import HobbyOS.PhysicalMemory.Completeness

namespace HobbyOS

/-!
# Pointers to runs of blocks

`pmm_allocate_blocks` returns `start * PMM_BLOCK_SIZE` in 32 bits, while
`pmm_free_blocks` divides the pointer again.  Both count on from their first
block in 64 bits, so the pointer stands for the blocks that were marked as
long as the product does not wrap.
-/

/-- The run that an allocation marks: the lowest one that the scan counts. -/
structure Pmm.TakesRun (pmm : Pmm) (size : SizeT) (first : Nat) : Prop where
  available : size.toNat ≤ pmm.available
  lowest : LowestCounted pmm.memoryBlocks size first
  scanned : first + size.toNat ≤ pmm.scannedBlocks
  named : first % 2 ^ 32 ≠ 0

/-- Freeing through the pointer writes the bits that the allocation wrote. -/
def PointerIdentifies (pmm : Pmm) (size : SizeT) : Prop :=
  pmmAllocateBlocksWrites pmm size ≠ [] →
    ∀ block,
      BitWritten (pmmAllocateBlocksWrites pmm size) block ↔
        BitWritten
          (pmmFreeBlocksWrites (pmmAllocateBlocks pmm size).1 size) block

/-- The counter refuses exactly the sizes beyond the available blocks. -/
theorem Pmm.lt_size_iff
    (pmm : Pmm)
    (size : SizeT) :
    BitVec.ofNat 64 pmm.maxMemoryBlocks - pmm.usedMemoryBlocks <
        size.setWidth 64 ↔
      pmm.available < size.toNat := by
  have bounded := size.isLt
  have width : (size.setWidth 64).toNat = size.toNat := by
    rw [BitVec.toNat_setWidth]
    omega
  rw [BitVec.lt_def, width]
  rfl

namespace Pmm.TakesRun

variable
  {pmm : Pmm}
  {size : SizeT}
  {first : Nat}

/-- The search finds the run. -/
theorem found
    (takes : pmm.TakesRun size first)
    (positive : 1 ≤ size.toNat) :
    pmm.lastOfRun size = some (first + size.toNat - 1) :=
  (Pmm.lastOfRun_eq_some_iff positive first).mpr
    ⟨takes.lowest, takes.scanned⟩

/-- What the allocation returns and marks. -/
theorem allocate
    (takes : pmm.TakesRun size first)
    (positive : 1 ≤ size.toNat) :
    pmmAllocateBlocks pmm size =
      (blockAddress first, pmm.reserve (first % 2 ^ 32) size) := by
  have enough := Nat.not_lt.mpr takes.available
  exact pmmAllocateBlocks_of_found positive
    ((not_congr (pmm.lt_size_iff size)).mpr enough)
    (takes.found positive) takes.named

/-- The bits that are written for the run. -/
theorem writes
    (takes : pmm.TakesRun size first)
    (positive : 1 ≤ size.toNat) :
    pmmAllocateBlocksWrites pmm size =
      loopWrites (fun i => first % 2 ^ 32 + i) true size.toNat := by
  have enough := Nat.not_lt.mpr takes.available
  rw [pmmAllocateBlocksWrites,
    if_neg ((not_congr (pmm.lt_size_iff size)).mpr enough),
    pmmFindFirstFreeRun_of_found positive (takes.found positive)]
  simp only [ofNat_ne_zero takes.named, ↓reduceIte, BitVec.toNat_ofNat]

/-- The marked blocks, whose first number is kept in 32 bits. -/
theorem marked_iff
    (takes : pmm.TakesRun size first)
    (positive : 1 ≤ size.toNat)
    (block : Nat) :
    BitWritten (pmmAllocateBlocksWrites pmm size) block ↔
      ∃ i < size.toNat, first % 2 ^ 32 + i = block := by
  rw [takes.writes positive, bitWritten_loopWrites]

/-- The blocks that freeing through the pointer clears. -/
theorem cleared_iff
    (takes : pmm.TakesRun size first)
    (positive : 1 ≤ size.toNat)
    (block : Nat) :
    BitWritten
        (pmmFreeBlocksWrites (pmmAllocateBlocks pmm size).1 size) block ↔
      ∃ i < size.toNat, first % 2 ^ 20 + i = block := by
  have position : (blockAddress first).toNat / 4096 = first % 2 ^ 20 := by
    rw [blockAddress, BitVec.toNat_ofNat]
    omega
  rw [takes.allocate positive, pmmFreeBlocksWrites, bitWritten_loopWrites,
    position]

end Pmm.TakesRun

/-- An allocation takes a run, or changes nothing. -/
theorem Pmm.takesRun_or_refused
    (pmm : Pmm)
    {size : SizeT}
    (positive : 1 ≤ size.toNat) :
    (∃ first, pmm.TakesRun size first) ∨
      (pmmAllocateBlocks pmm size = (0, pmm) ∧
        pmmAllocateBlocksWrites pmm size = []) := by
  by_cases refused : pmm.available < size.toNat
  · have short := (pmm.lt_size_iff size).mpr refused
    rw [pmmAllocateBlocks, pmmAllocateBlocksWrites, if_pos short,
      if_pos short]
    exact Or.inr ⟨rfl, rfl⟩
  · have enough := (not_congr (pmm.lt_size_iff size)).mpr refused
    rw [pmmAllocateBlocks, pmmAllocateBlocksWrites, if_neg enough,
      if_neg enough]
    cases search : pmm.lastOfRun size with
    | none =>
        simp [pmmFindFirstFreeRun, search]
    | some last =>
        have inside := (Pmm.lastOfRun_spec positive search).1.inside
        obtain ⟨first, rfl⟩ :
            ∃ first, last = first + size.toNat - 1 :=
          ⟨last + 1 - size.toNat, by omega⟩
        by_cases zero : first % 2 ^ 32 = 0
        · have start : BitVec.ofNat 32 first = 0 := by
            apply BitVec.eq_of_toNat_eq
            rw [BitVec.toNat_ofNat]
            exact zero
          rw [pmmFindFirstFreeRun_of_found positive search, start]
          exact Or.inr ⟨rfl, rfl⟩
        · obtain ⟨lowest, scanned⟩ :=
            (Pmm.lastOfRun_eq_some_iff positive first).mp search
          exact Or.inl ⟨first, by omega, lowest, scanned, zero⟩

/-- Two ranges of the same positive length are equal from equal starts only. -/
theorem sameRange_iff
    {start other size : Nat}
    (positive : 1 ≤ size) :
    (∀ block,
        (∃ i < size, start + i = block) ↔
          ∃ i < size, other + i = block) ↔
      start = other := by
  constructor
  · intro same
    obtain ⟨i, _, upwards⟩ := (same start).mp ⟨0, by omega, rfl⟩
    obtain ⟨j, _, downwards⟩ := (same other).mpr ⟨0, by omega, rfl⟩
    omega
  · rintro rfl block
    rfl

/--
The returned pointer identifies the marked blocks exactly when the run that is
marked starts below 4 GiB.
-/
theorem pmmAllocateBlocks_pointerIdentifies_iff
    {pmm : Pmm}
    {size : SizeT}
    (positive : 1 ≤ size.toNat) :
    PointerIdentifies pmm size ↔
      ∀ first,
        pmm.TakesRun size first →
        first % 2 ^ 32 < 2 ^ 20 := by
  have identifies_iff
      {first : Nat}
      (takes : pmm.TakesRun size first) :
      (∀ block,
          BitWritten (pmmAllocateBlocksWrites pmm size) block ↔
            BitWritten
              (pmmFreeBlocksWrites (pmmAllocateBlocks pmm size).1 size)
              block) ↔
        first % 2 ^ 32 < 2 ^ 20 := by
    simp only [takes.marked_iff positive, takes.cleared_iff positive,
      sameRange_iff positive]
    omega
  constructor
  · intro identifies first takes
    refine (identifies_iff takes).mp (identifies ?_)
    rw [takes.writes positive]
    intro empty
    have length := congrArg List.length empty
    simp only [loopWrites, List.length_map, List.length_range,
      List.length_nil] at length
    omega
  · intro inside writes
    rcases pmm.takesRun_or_refused positive with
      ⟨first, takes⟩ | ⟨_, none⟩
    · exact (identifies_iff takes).mpr (inside first takes)
    · exact (writes none).elim

/-- Three blocks from a manager of sixteen blocks. -/
theorem pmmAllocateBlocks_pointerIdentifies_iff_sixteenBlocks :
    PointerIdentifies sixteenBlocks 3 := by
  refine
    (pmmAllocateBlocks_pointerIdentifies_iff (by decide)).mpr ?_
  intro first takes
  have scanned := takes.scanned
  have blocks : sixteenBlocks.scannedBlocks = 16 := rfl
  have size : (3 : SizeT).toNat = 3 := rfl
  omega

/-- A manager whose only free blocks lie behind the first one of 4 GiB. -/
def above4GiB : Pmm where
  memoryBlocks := fun index =>
    if index < 2 ^ 17 then 0xFF else if index = 2 ^ 17 then 0x80 else 0
  maxMemoryBlocks := 2 ^ 20 + 8
  usedMemoryBlocks := 0x100001
  fits := by decide

/-- The lowest free block is the second one above 4 GiB. -/
theorem above4GiB_lowestFree : above4GiB.LowestFree (2 ^ 20 + 1) where
  scanned := by decide
  free := by decide
  lowest := by
    intro lower below
    by_cases inLow : lower / 8 < 2 ^ 17
    · apply pmmTestBlock_of_byte_full
      exact if_pos inLow
    · have same : lower = 2 ^ 20 := by omega
      rw [same]
      decide

/-- A block above 4 GiB is marked, and block 1 is cleared for it. -/
theorem pmmAllocateBlocks_pointerIdentifies_fails :
    ¬∀ (pmm : Pmm) (size : SizeT),
        1 ≤ size.toNat →
        PointerIdentifies pmm size := by
  intro identifies
  have found := above4GiB_lowestFree.found
  have start : pmmFindFirstFreeRun above4GiB 1 = 0x100001 :=
    @pmmFindFirstFreeRun_of_found above4GiB 1 (by decide) (2 ^ 20 + 1)
      found
  have writes :
      pmmAllocateBlocksWrites above4GiB 1 = [⟨0x100001, true⟩] := by
    rw [pmmAllocateBlocksWrites, start]
    decide
  have pointer : (pmmAllocateBlocks above4GiB 1).1 = 0x1000 := by
    rw [pmmAllocateBlocks, start]
    decide
  have same := identifies above4GiB 1 (by decide)
  rw [PointerIdentifies, writes, pointer] at same
  have cleared := (same (by simp) 0x100001).mp (by simp [BitWritten])
  obtain ⟨i, below, number⟩ := bitWritten_loopWrites.mp cleared
  have one : (1 : SizeT).toNat = 1 := rfl
  have page : (0x1000 : PtrT).toNat / 4096 = 1 := rfl
  omega

end HobbyOS
