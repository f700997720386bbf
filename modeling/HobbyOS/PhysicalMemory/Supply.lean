import Mathlib.Data.Nat.Find
import HobbyOS.PhysicalMemory.SingleBlock

namespace HobbyOS

/-!
# The supply of single blocks

How many allocations of one block in a row succeed with blocks below 4 GiB.
Block 0 must be reserved, because the manager takes it for a failed search.
The counter and the bitmap both bound the supply, and each allocation uses up
one unit of it.
-/

/-- The scanned free blocks below 4 GiB. -/
def Pmm.freeBlocks (pmm : Pmm) : Finset Nat :=
  (Finset.range (min pmm.scannedBlocks (2 ^ 20))).filter
    fun block => ¬pmm.Reserved block

/-- The number of single blocks that can be allocated in a row. -/
def Pmm.supply (pmm : Pmm) : Nat :=
  if pmm.Reserved 0 then min pmm.available pmm.freeBlocks.card else 0

/-- All free blocks that are scanned lie below 4 GiB. -/
def Pmm.FreeBelow4GiB (pmm : Pmm) : Prop :=
  ∀ block < pmm.scannedBlocks, ¬pmm.Reserved block → block < 2 ^ 20

/-- An allocation of one block is granted. -/
def Pmm.Grants (pmm : Pmm) : Prop :=
  (pmmAllocateBlocks pmm 1).1 ≠ 0

instance (pmm : Pmm) : Decidable pmm.Grants :=
  inferInstanceAs (Decidable (_ ≠ _))

/-- The state after an allocation of one block. -/
def Pmm.afterOne (pmm : Pmm) : Pmm :=
  (pmmAllocateBlocks pmm 1).2

/-- Scanned free blocks below 4 GiB. -/
theorem Pmm.mem_freeBlocks
    {pmm : Pmm}
    {block : Nat} :
    block ∈ pmm.freeBlocks ↔
      block < pmm.scannedBlocks ∧ block < 2 ^ 20 ∧
        ¬pmm.Reserved block := by
  simp only [freeBlocks, Finset.mem_filter, Finset.mem_range,
    Nat.lt_min, and_assoc]

/-- Among free blocks there is a lowest one. -/
theorem Pmm.exists_lowestFree
    {pmm : Pmm}
    {block : Nat}
    (scanned : block < pmm.scannedBlocks)
    (free : ¬pmm.Reserved block) :
    ∃ lowest ≤ block, pmm.LowestFree lowest := by
  have exists_ : ∃ other, ¬pmm.Reserved other := ⟨block, free⟩
  have below := Nat.find_min' exists_ free
  refine ⟨Nat.find exists_, below, by omega, Nat.find_spec exists_, ?_⟩
  intro lower less
  exact not_not.mp (Nat.find_min exists_ less)

/-- With a supply, the next block is below 4 GiB. -/
theorem Pmm.nextBlock_of_supply
    {pmm : Pmm}
    (supplied : 1 ≤ pmm.supply) :
    ∃ block, pmm.NextBlock block ∧ block ∈ pmm.freeBlocks := by
  unfold supply at supplied
  split at supplied
  · rename_i zero
    rw [Nat.le_min] at supplied
    obtain ⟨available, some_⟩ := supplied
    obtain ⟨block, member⟩ := Finset.card_pos.mp some_
    obtain ⟨scanned, small, free⟩ := mem_freeBlocks.mp member
    obtain ⟨lowest, below, lowestFree⟩ := exists_lowestFree scanned free
    refine ⟨lowest, ⟨available, lowestFree, ?_⟩, ?_⟩
    · rintro rfl
      exact lowestFree.free zero
    · exact mem_freeBlocks.mpr
        ⟨lowestFree.scanned, by omega, lowestFree.free⟩
  · exact (Nat.not_lt_zero 0 supplied).elim

/-- With a supply, the search finds a block below 4 GiB. -/
theorem Pmm.findsBelow4GiB_of_supply
    {pmm : Pmm}
    (supplied : 1 ≤ pmm.supply) :
    pmm.FindsBelow4GiB 1 := by
  obtain ⟨block, next, member⟩ := nextBlock_of_supply supplied
  intro last found
  rw [next.lowestFree.found] at found
  rw [← Option.some.inj found]
  exact (mem_freeBlocks.mp member).2.1

/-- With a supply, the lowest free block is taken. -/
theorem Pmm.allocate_of_supply
    {pmm : Pmm}
    (supplied : 1 ≤ pmm.supply) :
    ∃ block,
      pmm.NextBlock block ∧
        block < 2 ^ 20 ∧
        pmmAllocateBlocks pmm 1 =
          (blockAddress block, pmm.reserve block 1) ∧
        (pmm.reserve block 1).supply + 1 = pmm.supply := by
  obtain ⟨block, next, member⟩ := nextBlock_of_supply supplied
  have small := (mem_freeBlocks.mp member).2.1
  refine ⟨block, next, small,
    pmmAllocateBlocks_one next.lowestFree next.notZero (by omega)
      next.available, ?_⟩
  have one : (1 : SizeT).toNat = 1 := rfl
  have zero : pmm.Reserved 0 := by
    by_contra free
    rw [supply, if_neg free] at supplied
    exact Nat.not_lt_zero 0 supplied
  have zeroStays : (pmm.reserve block 1).Reserved 0 :=
    (reserved_reserve _ _ _ _).mpr (Or.inr zero)
  have available := available_reserve pmm block next.available
  have taken :
      (pmm.reserve block 1).freeBlocks = pmm.freeBlocks.erase block := by
    ext other
    have scanned :
        (pmm.reserve block 1).scannedBlocks = pmm.scannedBlocks :=
      rfl
    simp only [mem_freeBlocks, Finset.mem_erase, reserved_reserve, one,
      scanned, not_or]
    constructor
    · rintro ⟨inScan, low, other', free⟩
      exact ⟨by omega, inScan, low, free⟩
    · rintro ⟨different, inScan, low, free⟩
      exact ⟨inScan, low, by omega, free⟩
  have some_ := Finset.card_pos.mpr ⟨block, member⟩
  rw [supply, supply, if_pos zero, if_pos zeroStays, taken,
    Finset.card_erase_of_mem member]
  omega

/-- A granted allocation of one block, from a supply. -/
theorem Pmm.grants_of_supply
    {pmm : Pmm}
    (supplied : 1 ≤ pmm.supply) :
    pmm.Grants := by
  obtain ⟨block, next, small, allocation, _⟩ :=
    allocate_of_supply supplied
  rw [Grants, allocation]
  exact blockAddress_ne_zero next.notZero small

/-- All free blocks of a manager of at most 4 GiB lie below 4 GiB. -/
theorem Pmm.freeBelow4GiB_of_le
    {pmm : Pmm}
    (small : pmm.maxMemoryBlocks ≤ 2 ^ 20) :
    pmm.FreeBelow4GiB := by
  intro block scanned _
  have within := pmm.scannedBlocks_le
  omega

/-- Allocations only take away free blocks. -/
theorem Pmm.FreeBelow4GiB.allocate
    {pmm : Pmm}
    (low : pmm.FreeBelow4GiB)
    {size : SizeT}
    (positive : 0 < size.toNat) :
    (pmmAllocateBlocks pmm size).2.FreeBelow4GiB := by
  have allocates := pmmAllocateBlocks_allocates pmm positive
  generalize pmmAllocateBlocks pmm size = result at allocates
  cases allocates with
  | refused =>
      exact low
  | granted =>
      intro block scanned free
      rw [reserved_reserve, not_or] at free
      exact low block scanned free.2

/-- Searches find the free blocks, which lie below 4 GiB. -/
theorem Pmm.FreeBelow4GiB.findsBelow4GiB
    {pmm : Pmm}
    (low : pmm.FreeBelow4GiB)
    {size : SizeT}
    (positive : 0 < size.toNat) :
    pmm.FindsBelow4GiB size := by
  intro last found
  obtain ⟨run, scanned⟩ := Pmm.lastOfRun_spec positive found
  have inside := run.inside
  refine low last scanned ?_
  have free := run.free last (by omega) (Nat.le_refl _)
  rw [Reserved, free]
  exact Bool.false_ne_true

/-- Without a supply, free blocks below 4 GiB are not there to be granted. -/
theorem Pmm.allocate_of_not_supply
    {pmm : Pmm}
    (low : pmm.FreeBelow4GiB)
    (none : pmm.supply = 0) :
    pmmAllocateBlocks pmm 1 = (0, pmm) := by
  have allocates := pmmAllocateBlocks_allocatesOne pmm
  generalize pmmAllocateBlocks pmm 1 = result at allocates
  cases allocates with
  | refused =>
      rfl
  | @granted block next =>
      exfalso
      have scanned := next.lowestFree.scanned
      have small := low block scanned next.lowestFree.free
      have member : block ∈ pmm.freeBlocks :=
        mem_freeBlocks.mpr ⟨scanned, small, next.lowestFree.free⟩
      have zero : pmm.Reserved 0 :=
        next.lowestFree.lowest 0 (Nat.pos_of_ne_zero next.notZero)
      have some_ := Finset.card_pos.mpr ⟨block, member⟩
      have available := next.available
      rw [supply, if_pos zero] at none
      omega

/-- Blocks are granted exactly from a supply. -/
theorem Pmm.grants_iff_supply
    {pmm : Pmm}
    (low : pmm.FreeBelow4GiB) :
    pmm.Grants ↔ 1 ≤ pmm.supply := by
  refine ⟨?_, grants_of_supply⟩
  intro grants
  by_contra none
  have refused := allocate_of_not_supply low (by omega)
  rw [Grants, refused] at grants
  exact grants rfl

/-- Each allocation of one block uses up one unit. -/
theorem Pmm.supply_afterOne
    {pmm : Pmm}
    (low : pmm.FreeBelow4GiB) :
    pmm.afterOne.supply = pmm.supply - 1 := by
  by_cases supplied : 1 ≤ pmm.supply
  · obtain ⟨block, _, _, allocation, used⟩ :=
      allocate_of_supply supplied
    rw [afterOne, allocation]
    exact Nat.eq_sub_of_add_eq used
  · have none : pmm.supply = 0 := by omega
    rw [afterOne, allocate_of_not_supply low none]
    exact none.trans (by rw [none])

/-- An allocation of one block keeps the free blocks below 4 GiB. -/
theorem Pmm.FreeBelow4GiB.afterOne
    {pmm : Pmm}
    (low : pmm.FreeBelow4GiB) :
    pmm.afterOne.FreeBelow4GiB :=
  low.allocate (by decide)

end HobbyOS
