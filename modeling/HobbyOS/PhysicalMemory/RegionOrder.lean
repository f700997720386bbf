import HobbyOS.PhysicalMemory.UsableMemory

namespace HobbyOS

/-!
# Releasing and withdrawing regions

Releasing a region clears its blocks and sets block 0 again, and takes the
number of its loop iterations off a wrapping counter.  Two releases therefore
commute, also where their blocks share bytes, so the order of the memory map
does not matter.  Withdrawing runs through the same blocks and undoes a
release of reserved blocks.
-/

/-- A bitmap is determined by its bits. -/
theorem bitmap_ext
    {first second : Bitmap}
    (same :
      ∀ block, pmmTestBlock first block = pmmTestBlock second block) :
    first = second := by
  funext index
  refine BitVec.eq_of_getLsbD_eq fun bit inside => ?_
  have tested := same (index * 8 + (7 - bit))
  have byteIndex : (index * 8 + (7 - bit)) / 8 = index := by omega
  have bitIndex : 7 - (index * 8 + (7 - bit)) % 8 = bit := by omega
  rw [pmmTestBlock_eq_getLsbD, pmmTestBlock_eq_getLsbD, byteIndex,
    bitIndex] at tested
  exact tested

/-- A manager is determined by its reserved blocks and its counters. -/
theorem Pmm.ext_reserved
    {first second : Pmm}
    (managed : first.maxMemoryBlocks = second.maxMemoryBlocks)
    (used : first.usedMemoryBlocks = second.usedMemoryBlocks)
    (reserved :
      ∀ block, first.Reserved block ↔ second.Reserved block) :
    first = second := by
  have bits : first.memoryBlocks = second.memoryBlocks :=
    bitmap_ext fun block => Bool.eq_iff_iff.mpr (reserved block)
  cases first
  cases second
  simp_all

/-- Releasing leaves block 0 and what was reserved outside of the region. -/
theorem reserved_release_release
    (pmm : Pmm)
    (first second : Region)
    (block : Nat) :
    (releaseRegions pmm [first, second]).Reserved block ↔
      block = 0 ∨
        (¬first.Visits block ∧ ¬second.Visits block ∧
          pmm.Reserved block) := by
  rw [releaseRegions, List.foldl_cons, List.foldl_cons, List.foldl_nil,
    reserved_pmmIntializeMemoryRegion, reserved_pmmIntializeMemoryRegion]
  tauto

/-- Two releases commute. -/
theorem pmmIntializeMemoryRegion_comm
    (pmm : Pmm)
    (first second : Region) :
    releaseRegions pmm [first, second] =
      releaseRegions pmm [second, first] := by
  refine Pmm.ext_reserved ?_ ?_ fun block => ?_
  · rw [releaseRegions_maxMemoryBlocks, releaseRegions_maxMemoryBlocks]
  · simp only [releaseRegions, List.foldl_cons, List.foldl_nil,
      pmmIntializeMemoryRegion]
    rw [BitVec.sub_sub, BitVec.sub_sub, BitVec.add_comm]
  · rw [reserved_release_release, reserved_release_release]
    tauto

/-- The order of the regions does not matter. -/
theorem releaseRegions_perm
    {regions others : List Region}
    (permuted : regions.Perm others)
    (pmm : Pmm) :
    releaseRegions pmm regions = releaseRegions pmm others :=
  permuted.foldl_eq'
    (fun first _ second _ middle =>
      pmmIntializeMemoryRegion_comm middle first second)
    pmm

/-- Two overlapping regions that share block 0, in both orders. -/
theorem releaseRegions_perm_overlapping :
    releaseRegions sixteenBlocks [⟨0, 0x9000⟩, ⟨0x7FFF, 2⟩] =
      releaseRegions sixteenBlocks [⟨0x7FFF, 2⟩, ⟨0, 0x9000⟩] :=
  releaseRegions_perm (List.Perm.swap _ _ []) sixteenBlocks

/-- Withdrawing a region sets its blocks. -/
theorem reserved_pmmDeintializeMemoryRegion
    (pmm : Pmm)
    (region : Region)
    (block : Nat) :
    (pmmDeintializeMemoryRegion pmm region.startAddress
        region.size).Reserved block ↔
      region.Visits block ∨ pmm.Reserved block := by
  simp only [Pmm.Reserved, pmmDeintializeMemoryRegion,
    pmmTestBlock_setBlocks, Bool.or_eq_true, decide_eq_true_eq,
    Region.Visits, regionBlocks, mem_blockRange]

/-- Withdrawing undoes the release of reserved blocks. -/
theorem pmmDeintializeMemoryRegion_pmmIntializeMemoryRegion
    {pmm : Pmm}
    {region : Region}
    (reservedZero : pmm.Reserved 0)
    (reserved : ∀ block, region.Visits block → pmm.Reserved block) :
    pmmDeintializeMemoryRegion
        (pmmIntializeMemoryRegion pmm region.startAddress region.size)
        region.startAddress region.size =
      pmm := by
  refine Pmm.ext_reserved rfl ?_ fun block => ?_
  · exact BitVec.sub_add_cancel _ _
  · rw [reserved_pmmDeintializeMemoryRegion,
      reserved_pmmIntializeMemoryRegion]
    constructor
    · rintro (visited | rfl | ⟨_, before⟩)
      · exact reserved block visited
      · exact reservedZero
      · exact before
    · intro before
      by_cases visited : region.Visits block
      · exact Or.inl visited
      · exact Or.inr (Or.inr ⟨visited, before⟩)

/-- The first seven pages, block 0 included, are released and withdrawn. -/
theorem pmmDeintializeMemoryRegion_pmmIntializeMemoryRegion_low :
    pmmDeintializeMemoryRegion
        (pmmIntializeMemoryRegion sixteenBlocks 0 0x6FFF) 0 0x6FFF =
      sixteenBlocks := by
  have low : ∀ block < 8, sixteenBlocks.Reserved block := by decide
  refine
    @pmmDeintializeMemoryRegion_pmmIntializeMemoryRegion sixteenBlocks
      ⟨0, 0x6FFF⟩ (by decide) fun block visited => low block ?_
  rw [Region.Visits, regionBlocks, mem_blockRange] at visited
  exact visited.2

end HobbyOS
