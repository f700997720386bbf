import Mathlib.Algebra.BigOperators.Ring.List
import Mathlib.Algebra.Order.BigOperators.Group.List
import Mathlib.Algebra.Order.Ring.Nat
import Mathlib.Data.List.Nodup
import Mathlib.Data.Finset.Dedup
import HobbyOS.PhysicalMemory.Accounting
import HobbyOS.PhysicalMemory.SingleBlock

namespace HobbyOS

open Library

/-!
# Which memory is handed out

After initialization everything is reserved, and each usable region of the
memory map releases blocks.  The region loop rounds the start down, the end
up, and includes the end, so a region can release blocks that it does not
cover.  Allocations hand out exactly released blocks, and therefore only
usable bytes exactly when every released block is covered.
-/

/-- One usable region of the memory map. -/
structure Region where
  startAddress : BitVec 64
  size : BitVec 64

/-- The bytes of a region. -/
def Region.Covers (region : Region) (address : Nat) : Prop :=
  region.startAddress.toNat ≤ address ∧
    address < region.startAddress.toNat + region.size.toNat

/-- The blocks that releasing a region visits. -/
def Region.Visits (region : Region) (block : Nat) : Prop :=
  block ∈ regionBlocks region.startAddress region.size

/-- `pmm_intialize_memory_region` on each region in turn. -/
def releaseRegions (pmm : Pmm) (regions : List Region) : Pmm :=
  regions.foldl
    (fun pmm region =>
      pmmIntializeMemoryRegion pmm region.startAddress region.size)
    pmm

/-- `pmm_allocate_blocks` for each size in turn. -/
def PmmClient.allocateAll
    (client : PmmClient)
    (sizes : List SizeT) :
    PmmClient :=
  sizes.foldl PmmClient.allocate client

/-- Every byte of every block any allocation sequence returns is usable. -/
def HandsOutOnlyUsable (pmm : Pmm) (regions : List Region) : Prop :=
  ∀ sizes,
    ∀ allocation ∈ ((PmmClient.mk pmm []).allocateAll sizes).live,
      ∀ offset < allocation.size.toNat * 4096,
        ∃ region ∈ regions,
          region.Covers
            (allocation.pointer + BitVec.ofNat 32 offset).toNat

/-- Every block but block 0 that a region visits is covered by regions. -/
def ReleasesOnlyUsable (scanned : Nat) (regions : List Region) : Prop :=
  ∀ block,
    block ≠ 0 →
    block < scanned →
    (∃ region ∈ regions, region.Visits block) →
    ∀ offset < 4096,
      ∃ region ∈ regions,
        region.Covers ((block * 4096 + offset) % 2 ^ 32)

/-- A released region clears its blocks, except that block 0 stays set. -/
theorem reserved_pmmIntializeMemoryRegion
    (pmm : Pmm)
    (region : Region)
    (block : Nat) :
    (pmmIntializeMemoryRegion pmm region.startAddress
        region.size).Reserved block ↔
      block = 0 ∨ (¬region.Visits block ∧ pmm.Reserved block) := by
  simp only [Pmm.Reserved, pmmIntializeMemoryRegion,
    pmmTestBlock_pmmSetBlock, pmmTestBlock_unsetBlocks, Bool.or_eq_true,
    Bool.and_eq_true, decide_eq_true_eq, Region.Visits, regionBlocks,
    mem_blockRange]

/-- A non-zero block stays reserved when no region visits it. -/
theorem reserved_releaseRegions
    {pmm : Pmm}
    {regions : List Region}
    {block : Nat}
    (notZero : block ≠ 0) :
    (releaseRegions pmm regions).Reserved block ↔
      (∀ region ∈ regions, ¬region.Visits block) ∧
        pmm.Reserved block := by
  induction regions generalizing pmm with
  | nil =>
      simp [releaseRegions]
  | cons region rest inductionHypothesis =>
      have tail :=
        @inductionHypothesis
          (pmmIntializeMemoryRegion pmm region.startAddress region.size)
      rw [reserved_pmmIntializeMemoryRegion] at tail
      simp only [notZero, false_or] at tail
      simp only [releaseRegions, List.foldl_cons, List.forall_mem_cons]
        at tail ⊢
      rw [tail]
      tauto

/-- Block 0 stays reserved. -/
theorem reserved_zero_releaseRegions
    {pmm : Pmm}
    (regions : List Region)
    (reserved : pmm.Reserved 0) :
    (releaseRegions pmm regions).Reserved 0 := by
  induction regions generalizing pmm with
  | nil =>
      exact reserved
  | cons region rest inductionHypothesis =>
      refine @inductionHypothesis
        (pmmIntializeMemoryRegion pmm region.startAddress region.size) ?_
      rw [reserved_pmmIntializeMemoryRegion]
      exact Or.inl rfl

/-- Releasing regions leaves the number of managed blocks alone. -/
@[simp] theorem releaseRegions_maxMemoryBlocks
    (pmm : Pmm)
    (regions : List Region) :
    (releaseRegions pmm regions).maxMemoryBlocks =
      pmm.maxMemoryBlocks := by
  induction regions generalizing pmm with
  | nil =>
      rfl
  | cons region rest inductionHypothesis =>
      exact inductionHypothesis
        (pmmIntializeMemoryRegion pmm region.startAddress region.size)

/-! ## Only released blocks are handed out -/

/-- What allocations keep, seen from the state they start in. -/
structure HandsOutFree
    (start : Pmm)
    (regions : List Region)
    (client : PmmClient) :
    Prop where
  managed : client.pmm.maxMemoryBlocks = start.maxMemoryBlocks
  shrinking :
    ∀ block, start.Reserved block → client.pmm.Reserved block
  usable :
    ∀ allocation ∈ client.live,
      ∀ offset < allocation.size.toNat * 4096,
        ∃ region ∈ regions,
          region.Covers
            (allocation.pointer + BitVec.ofNat 32 offset).toNat

/-- An allocation hands out blocks that were free at the start. -/
theorem HandsOutFree.allocate
    {start : Pmm}
    {regions : List Region}
    {client : PmmClient}
    (handsOut : HandsOutFree start regions client)
    (covered :
      ∀ block,
        block < start.scannedBlocks →
        ¬start.Reserved block →
        ∀ offset < 4096,
          ∃ region ∈ regions,
            region.Covers ((block * 4096 + offset) % 2 ^ 32))
    (size : SizeT) :
    HandsOutFree start regions (client.allocate size) := by
  have managed := handsOut.managed
  rcases Nat.eq_zero_or_pos size.toNat with zero | positive
  · obtain rfl : size = 0 := BitVec.eq_of_toNat_eq zero
    refine ⟨?_, ?_, ?_⟩
    · simpa [PmmClient.allocate] using managed
    · intro block reserved
      rw [PmmClient.allocate, pmmAllocateBlocks_zero]
      exact handsOut.shrinking block reserved
    · intro allocation member offset inside
      simp only [PmmClient.allocate] at member
      split at member
      · exact handsOut.usable allocation member offset inside
      · rcases List.mem_cons.mp member with rfl | held
        · exact absurd inside (by simp)
        · exact handsOut.usable allocation held offset inside
  · have allocates := pmmAllocateBlocks_allocates client.pmm positive
    unfold PmmClient.allocate
    revert allocates
    generalize pmmAllocateBlocks client.pmm size = result
    intro allocates
    cases allocates with
    | refused =>
        exact handsOut
    | @granted first notZero scanned free _ =>
        refine ⟨managed, ?_, ?_⟩
        · intro block reserved
          rw [Pmm.reserved_reserve]
          exact Or.inr (handsOut.shrinking block reserved)
        · intro allocation member offset inside
          simp only [] at member
          split at member
          · exact handsOut.usable allocation member offset inside
          · rcases List.mem_cons.mp member with rfl | held
            · have within : offset < size.toNat * 4096 := inside
              have block := free (first + offset / 4096)
                (by omega) (by omega)
              have inScan :
                  first + offset / 4096 < start.scannedBlocks := by
                unfold Pmm.scannedBlocks at scanned ⊢
                rw [managed] at scanned
                omega
              have byte :=
                covered (first + offset / 4096) inScan
                  (fun reserved => block (handsOut.shrinking _ reserved))
                  (offset % 4096) (Nat.mod_lt _ (by omega))
              have position :
                  (first + offset / 4096) * 4096 + offset % 4096 =
                    first * 4096 + offset := by
                omega
              rw [position, ← BitVec.toNat_ofNat, BitVec.ofNat_add] at byte
              exact byte
            · exact handsOut.usable allocation held offset inside

/-- Covered free blocks make every allocation sequence usable. -/
theorem handsOutOnlyUsable_of_covered
    {pmm : Pmm}
    {regions : List Region}
    (covered :
      ∀ block,
        block < pmm.scannedBlocks →
        ¬pmm.Reserved block →
        ∀ offset < 4096,
          ∃ region ∈ regions,
            region.Covers ((block * 4096 + offset) % 2 ^ 32)) :
    HandsOutOnlyUsable pmm regions := by
  intro sizes
  suffices handsOut :
      ∀ client,
        HandsOutFree pmm regions client →
        HandsOutFree pmm regions (client.allocateAll sizes) from
    (handsOut ⟨pmm, []⟩
      ⟨rfl, fun _ reserved => reserved, by simp⟩).usable
  induction sizes with
  | nil =>
      intro client handsOut
      exact handsOut
  | cons size rest inductionHypothesis =>
      intro client handsOut
      exact inductionHypothesis _ (handsOut.allocate covered size)

/-! ## Every released block is handed out -/

/-- A client that asks for one block is given the lowest free one. -/
theorem PmmClient.allocate_one
    {client : PmmClient}
    {block : Nat}
    (lowest : client.pmm.LowestFree block)
    (notZero : block ≠ 0)
    (small : block < 2 ^ 20)
    (available : 0 < client.pmm.available) :
    client.allocate 1 =
      ⟨client.pmm.reserve block 1,
        ⟨blockAddress block, 1⟩ :: client.live⟩ := by
  rw [PmmClient.allocate,
    pmmAllocateBlocks_one lowest notZero (by omega) available]
  dsimp only
  rw [if_neg (blockAddress_ne_zero notZero small)]

/-- Taking single blocks reaches every free block the counter allows. -/
theorem exists_allocateAll_of_free
    {client : PmmClient}
    {block : Nat}
    (scanned : block < client.pmm.scannedBlocks)
    (free : ¬client.pmm.Reserved block)
    (zeroReserved : client.pmm.Reserved 0)
    (small : client.pmm.maxMemoryBlocks ≤ 2 ^ 20)
    (available :
      (client.pmm.freeUpTo block).card ≤ client.pmm.available) :
    ∃ sizes,
      ⟨blockAddress block, 1⟩ ∈
        (client.allocateAll sizes).live := by
  -- Induction on the number of free blocks up to the one that is wanted.
  induction count : (client.pmm.freeUpTo block).card
      using Nat.strong_induction_on generalizing client with
  | _ count inductionHypothesis =>
      have scannedSmall : client.pmm.scannedBlocks ≤ 2 ^ 20 :=
        client.pmm.scannedBlocks_le.trans small
      cases search : client.pmm.lastOfRun 1 with
      | none =>
          exact (free
            (Pmm.reserved_of_lastOfRun_one_none search scanned)).elim
      | some lowest =>
          have found := Pmm.lastOfRun_one_of_some search
          have notAbove : lowest ≤ block := by
            by_contra above
            exact free (found.lowest block (by omega))
          have notZero : lowest ≠ 0 := by
            rintro rfl
            exact found.free zeroReserved
          have member : lowest ∈ client.pmm.freeUpTo block := by
            rw [Pmm.freeUpTo, Finset.mem_filter, Finset.mem_range]
            exact ⟨by omega, found.free⟩
          have positive : 0 < (client.pmm.freeUpTo block).card :=
            Finset.card_pos.mpr ⟨lowest, member⟩
          have taken :=
            PmmClient.allocate_one found notZero (by omega) (by omega)
          by_cases wanted : lowest = block
          · refine ⟨[1], ?_⟩
            rw [PmmClient.allocateAll, List.foldl_cons, List.foldl_nil,
              taken, wanted]
            exact List.mem_cons_self
          · have counter :=
              client.pmm.available_reserve lowest (by omega)
            have fewer :=
              congrArg Finset.card
                (client.pmm.freeUpTo_reserve lowest block)
            rw [Finset.card_erase_of_mem member] at fewer
            have stillFree :
                ¬(client.pmm.reserve lowest 1).Reserved block := by
              rw [Pmm.reserved_reserve, not_or]
              have one : (1 : SizeT).toNat = 1 := rfl
              exact ⟨by omega, free⟩
            have rest :=
              @inductionHypothesis
                ((client.pmm.reserve lowest 1).freeUpTo block).card
                (by omega) (client.allocate 1)
            rw [taken] at rest
            obtain ⟨sizes, held⟩ :=
              rest scanned stillFree
                ((Pmm.reserved_reserve _ _ _ _).mpr
                  (Or.inr zeroReserved))
                small (by dsimp only; omega) rfl
            rw [← taken] at held
            exact ⟨1 :: sizes, held⟩

/-! ## The exact condition -/

/-- Iterations of the region loops over a list of regions. -/
def totalCount (regions : List Region) : Nat :=
  (regions.map fun region =>
    regionCount region.startAddress region.size).sum

/-- Releasing regions makes the iterations of their loops available. -/
theorem available_releaseRegions
    (pmm : Pmm)
    (regions : List Region) :
    (releaseRegions pmm regions).available =
      (pmm.available + totalCount regions) % 2 ^ 64 := by
  induction regions generalizing pmm with
  | nil =>
      have bounded :=
        (BitVec.ofNat 64 pmm.maxMemoryBlocks -
          pmm.usedMemoryBlocks).isLt
      exact (Nat.mod_eq_of_lt bounded).symm
  | cons region rest inductionHypothesis =>
      have first :
          (pmmIntializeMemoryRegion pmm region.startAddress
              region.size).available =
            (pmm.available +
              regionCount region.startAddress region.size) % 2 ^ 64 := by
        simp only [Pmm.available, pmmIntializeMemoryRegion,
          BitVec.toNat_sub, BitVec.toNat_ofNat]
        have bounded := pmm.usedMemoryBlocks.isLt
        omega
      have tail :=
        inductionHypothesis
          (pmmIntializeMemoryRegion pmm region.startAddress region.size)
      rw [first] at tail
      simp only [releaseRegions, List.foldl_cons, totalCount,
        List.map_cons, List.sum_cons] at tail ⊢
      rw [tail, Nat.mod_add_mod, Nat.add_assoc]

/-- Releasing regions frees at most one block for each iteration. -/
theorem card_freeUpTo_releaseRegions_le
    (pmm : Pmm)
    (regions : List Region)
    (block : Nat) :
    ((releaseRegions pmm regions).freeUpTo block).card ≤
      (pmm.freeUpTo block).card + totalCount regions := by
  induction regions generalizing pmm with
  | nil =>
      exact Nat.le_refl _
  | cons region rest inductionHypothesis =>
      have freed :
          (pmmIntializeMemoryRegion pmm region.startAddress
              region.size).freeUpTo block ⊆
            pmm.freeUpTo block ∪
              regionBlocks region.startAddress region.size := by
        intro other member
        simp only [Pmm.freeUpTo, Finset.mem_filter, Finset.mem_union,
          reserved_pmmIntializeMemoryRegion, Region.Visits] at member ⊢
        tauto
      have length :=
        card_regionBlocks region.startAddress region.size
      have first :=
        (Finset.card_le_card freed).trans (Finset.card_union_le _ _)
      have tail :=
        inductionHypothesis
          (pmmIntializeMemoryRegion pmm region.startAddress region.size)
      simp only [releaseRegions, List.foldl_cons, totalCount,
        List.map_cons, List.sum_cons] at tail ⊢
      omega

/-- Disjoint regions below a bound have at most that many bytes. -/
theorem sum_size_le
    {regions : List Region}
    {bound : Nat}
    (disjoint :
      regions.Pairwise fun first second =>
        ∀ address, first.Covers address → ¬second.Covers address)
    (inside :
      ∀ region ∈ regions,
        region.startAddress.toNat + region.size.toNat ≤ bound) :
    (regions.map fun region => region.size.toNat).sum ≤ bound := by
  let bytes (region : Region) : List Nat :=
    List.range' region.startAddress.toNat region.size.toNat
  have covers
      (region : Region)
      (address : Nat) :
      address ∈ bytes region ↔ region.Covers address :=
    List.mem_range'_1
  have nodup : (regions.flatMap bytes).Nodup := by
    refine List.nodup_flatMap.mpr ⟨fun region _ => List.nodup_range', ?_⟩
    refine disjoint.imp ?_
    intro first second apart address inFirst inSecond
    exact apart address ((covers first address).mp inFirst)
      ((covers second address).mp inSecond)
  have below : (regions.flatMap bytes).toFinset ⊆ Finset.range bound := by
    intro address member
    rw [List.mem_toFinset, List.mem_flatMap] at member
    obtain ⟨region, held, inBytes⟩ := member
    have covered := (covers region address).mp inBytes
    have limit := inside region held
    unfold Region.Covers at covered
    rw [Finset.mem_range]
    omega
  have length :
      (regions.flatMap bytes).length =
        (regions.map fun region => region.size.toNat).sum := by
    simp [List.length_flatMap, bytes]
  have counted := Finset.card_le_card below
  rw [List.toFinset_card_of_nodup nodup, Finset.card_range, length]
    at counted
  exact counted

/-- A region's loop makes at most three iterations more than it has pages. -/
theorem regionCount_le
    {startAddress size : BitVec 64}
    (noOverflow : startAddress.toNat + size.toNat < 2 ^ 64) :
    regionCount startAddress size ≤ size.toNat / 4096 + 3 := by
  have sum :
      (startAddress + size).toNat = startAddress.toNat + size.toNat := by
    rw [BitVec.toNat_add, Nat.mod_eq_of_lt noOverflow]
  unfold regionCount regionEnd regionFirst
  rw [sum]
  split <;> omega

/-- Non-empty disjoint managed regions make few iterations. -/
theorem totalCount_le
    {pmm : Pmm}
    {regions : List Region}
    (inside :
      ∀ region ∈ regions,
        InManagedRange pmm region.startAddress region.size)
    (disjoint :
      regions.Pairwise fun first second =>
        ∀ address, first.Covers address → ¬second.Covers address)
    (nonempty : ∀ region ∈ regions, 0 < region.size.toNat) :
    totalCount regions ≤ 4 * (pmm.maxMemoryBlocks * 4096) := by
  have sizes := sum_size_le disjoint inside
  have each :
      ∀ region ∈ regions,
        regionCount region.startAddress region.size ≤
          4 * region.size.toNat := by
    intro region member
    have iterations := regionCount_le (inside region member).noOverflow
    have positive := nonempty region member
    omega
  have total :
      totalCount regions ≤
        (regions.map fun region => 4 * region.size.toNat).sum :=
    List.sum_le_sum each
  rw [List.sum_map_mul_left] at total
  omega

section Released

variable
  {pmm : Pmm}
  {regions : List Region}

/-- Scanning the same blocks after regions were released. -/
theorem scannedBlocks_releaseRegions
    (pmm : Pmm)
    (regions : List Region) :
    (releaseRegions pmm regions).scannedBlocks = pmm.scannedBlocks := by
  rw [Pmm.scannedBlocks, releaseRegions_maxMemoryBlocks, Pmm.scannedBlocks]

/-- Blocks of usable bytes only are handed out if only these were released. -/
theorem handsOutOnlyUsable_of_releasesOnlyUsable
    (allReserved :
      ∀ block, block < pmm.scannedBlocks → pmm.Reserved block)
    (onlyUsable : ReleasesOnlyUsable pmm.scannedBlocks regions) :
    HandsOutOnlyUsable (releaseRegions pmm regions) regions := by
  refine handsOutOnlyUsable_of_covered ?_
  intro block scanned free
  rw [scannedBlocks_releaseRegions] at scanned
  have notZero : block ≠ 0 := by
    rintro rfl
    exact free
      (reserved_zero_releaseRegions regions (allReserved 0 scanned))
  rw [reserved_releaseRegions notZero] at free
  refine onlyUsable block notZero scanned ?_
  by_contra unvisited
  simp only [not_exists, not_and] at unvisited
  exact free ⟨unvisited, allReserved block scanned⟩

/-- The counter allows to take all released blocks one by one. -/
theorem card_freeUpTo_le_available
    (allReserved :
      ∀ block, block < pmm.scannedBlocks → pmm.Reserved block)
    (noneAvailable : pmm.available = 0)
    (few : totalCount regions < 2 ^ 64)
    {block : Nat}
    (scanned : block < pmm.scannedBlocks) :
    ((releaseRegions pmm regions).freeUpTo block).card ≤
      (releaseRegions pmm regions).available := by
  have noneFree : pmm.freeUpTo block = ∅ := by
    refine Finset.filter_eq_empty_iff.mpr ?_
    intro lower member free
    rw [Finset.mem_range] at member
    exact free (allReserved lower (by omega))
  have freed := card_freeUpTo_releaseRegions_le pmm regions block
  have available := available_releaseRegions pmm regions
  rw [noneFree, Finset.card_empty] at freed
  omega

/-- Every block that a region visits is handed out, so it has to be usable. -/
theorem releasesOnlyUsable_of_handsOutOnlyUsable
    (allReserved :
      ∀ block, block < pmm.scannedBlocks → pmm.Reserved block)
    (noneAvailable : pmm.available = 0)
    (small : pmm.maxMemoryBlocks ≤ 2 ^ 20)
    (few : totalCount regions < 2 ^ 64)
    (handsOut :
      HandsOutOnlyUsable (releaseRegions pmm regions) regions) :
    ReleasesOnlyUsable pmm.scannedBlocks regions := by
  intro block notZero scanned visited offset within
  have free : ¬(releaseRegions pmm regions).Reserved block := by
    rw [reserved_releaseRegions notZero]
    rintro ⟨unvisited, _⟩
    obtain ⟨region, member, visits⟩ := visited
    exact unvisited region member visits
  have counter :=
    card_freeUpTo_le_available allReserved noneAvailable few scanned
  obtain ⟨sizes, held⟩ :=
    @exists_allocateAll_of_free
      (PmmClient.mk (releaseRegions pmm regions) []) block
      (by rw [scannedBlocks_releaseRegions]; exact scanned) free
      (reserved_zero_releaseRegions regions (allReserved 0 (by omega)))
      (by rw [releaseRegions_maxMemoryBlocks]; exact small)
      counter
  have inBlock : offset < (1 : SizeT).toNat * 4096 := within
  have usable := handsOut sizes _ held offset inBlock
  rw [← BitVec.toNat_ofNat, BitVec.ofNat_add]
  exact usable

end Released

/--
Allocations after releasing a list of regions hand out usable bytes only, if
every visited block but block 0 is covered by the regions.  Up to 4 GiB this
condition is also necessary.
-/
theorem handsOutOnlyUsable_iff
    (memory : Memory)
    (startAddress size : BitVec 64)
    (fits : size.toNat / 4096 / 8 < 2 ^ 32)
    (regions : List Region)
    (inside :
      ∀ region ∈ regions,
        InManagedRange
          (initializePhysicalMemoryManager memory startAddress size fits)
          region.startAddress region.size)
    (disjoint :
      regions.Pairwise fun first second =>
        ∀ address, first.Covers address → ¬second.Covers address) :
    (ReleasesOnlyUsable (size.toNat / 4096 / 8 * 8) regions →
      HandsOutOnlyUsable
        (releaseRegions
          (initializePhysicalMemoryManager memory startAddress size fits)
          regions)
        regions) ∧
      (size.toNat / 4096 ≤ 2 ^ 20 →
        (∀ region ∈ regions, 0 < region.size.toNat) →
        HandsOutOnlyUsable
          (releaseRegions
            (initializePhysicalMemoryManager memory startAddress size
              fits)
            regions)
          regions →
        ReleasesOnlyUsable (size.toNat / 4096 / 8 * 8) regions) := by
  have allReserved :
      ∀ block,
        block <
            (initializePhysicalMemoryManager memory startAddress size
              fits).scannedBlocks →
        (initializePhysicalMemoryManager memory startAddress size
          fits).Reserved block :=
    fun _ => initialize_reserved memory startAddress size fits
  have noneAvailable :
      (initializePhysicalMemoryManager memory startAddress size
        fits).available = 0 := by
    simp [Pmm.available, initializePhysicalMemoryManager]
  constructor
  · intro onlyUsable
    exact handsOutOnlyUsable_of_releasesOnlyUsable allReserved onlyUsable
  · intro small nonempty handsOut
    have managed :
        (initializePhysicalMemoryManager memory startAddress size
          fits).maxMemoryBlocks = size.toNat / 4096 :=
      rfl
    have few := totalCount_le inside disjoint nonempty
    exact releasesOnlyUsable_of_handsOutOnlyUsable allReserved
      noneAvailable small (by omega) handsOut

/-- Sixteen managed blocks, initialized over zeroed memory. -/
def sixteenManagedBlocks : Pmm :=
  initializePhysicalMemoryManager (fun _ => 0) 0x100000 0x10000
    (by decide)

/-- A region that reaches the end of the bitmap releases what it covers. -/
theorem handsOutOnlyUsable_iff_toTheEnd :
    HandsOutOnlyUsable
      (releaseRegions sixteenManagedBlocks [⟨0x1000, 0xF000⟩])
      [⟨0x1000, 0xF000⟩] := by
  refine (handsOutOnlyUsable_iff (fun _ => 0) 0x100000 0x10000 (by decide)
    [⟨0x1000, 0xF000⟩] ?_ (List.pairwise_singleton _ _)).1 ?_
  · intro region member
    obtain rfl := List.mem_singleton.mp member
    show (0x1000#64).toNat + (0xF000#64).toNat ≤ 16 * 4096
    decide
  · intro block notZero scanned _ offset within
    have scanned' : block < 16 := scanned
    refine ⟨⟨0x1000, 0xF000⟩, List.mem_singleton.mpr rfl, ?_⟩
    show 0x1000 ≤ (block * 4096 + offset) % 2 ^ 32 ∧
      (block * 4096 + offset) % 2 ^ 32 < 0x1000 + 0xF000
    omega

/-- Releasing the page at 0x1000 also hands out the page behind it. -/
theorem handsOutOnlyUsable_fails :
    ¬∀ (memory : Memory) (startAddress size : BitVec 64)
        (fits : size.toNat / 4096 / 8 < 2 ^ 32) (regions : List Region),
        (∀ region ∈ regions,
          InManagedRange
            (initializePhysicalMemoryManager memory startAddress size
              fits)
            region.startAddress region.size) →
        (regions.Pairwise fun first second =>
          ∀ address, first.Covers address → ¬second.Covers address) →
        HandsOutOnlyUsable
          (releaseRegions
            (initializePhysicalMemoryManager memory startAddress size
              fits)
            regions)
          regions := by
  intro claimed
  have inside :
      ∀ region ∈ [Region.mk 0x1000 0x1000],
        InManagedRange sixteenManagedBlocks region.startAddress
          region.size := by
    intro region member
    obtain rfl := List.mem_singleton.mp member
    show (0x1000#64).toNat + (0x1000#64).toNat ≤ 16 * 4096
    decide
  have handsOut :=
    claimed (fun _ => 0) 0x100000 0x10000 (by decide)
      [⟨0x1000, 0x1000⟩] inside (List.pairwise_singleton _ _)
  have returned :
      ⟨0x2000, 1⟩ ∈
        ((PmmClient.mk
            (releaseRegions sixteenManagedBlocks [⟨0x1000, 0x1000⟩])
            []).allocateAll [1, 1]).live := by
    decide
  obtain ⟨region, member, covered⟩ :=
    handsOut [1, 1] _ returned 0 (by decide)
  obtain rfl := List.mem_singleton.mp member
  exact absurd covered.2 (by decide)

end HobbyOS
