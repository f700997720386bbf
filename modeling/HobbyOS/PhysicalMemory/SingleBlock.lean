import Mathlib.Data.Finset.Card
import HobbyOS.PhysicalMemory.Allocation

namespace HobbyOS

/-!
# Allocation of single blocks

An allocation of one block takes the lowest free block, as long as the
counter of used blocks allows it.  So it is known in advance which block is
next, and how many blocks can still be taken.
-/

/-- The pointer to a block. -/
def blockAddress (block : Nat) : PtrT :=
  BitVec.ofNat 32 (block * 4096)

/-- Below 4 GiB a pointer to a block has the block's byte address. -/
theorem toNat_blockAddress
    {block : Nat}
    (small : block < 2 ^ 20) :
    (blockAddress block).toNat = block * 4096 :=
  Nat.mod_eq_of_lt (by omega)

/-- Below 4 GiB only block 0 has the null pointer. -/
theorem blockAddress_ne_zero
    {block : Nat}
    (notZero : block ≠ 0)
    (small : block < 2 ^ 20) :
    blockAddress block ≠ 0 := by
  intro null
  have value := toNat_blockAddress small
  rw [null] at value
  have product : block * 4096 = 0 := value.symm
  omega

/-- Distinct blocks below 4 GiB have distinct addresses. -/
theorem blockAddress_ne
    {first second : Nat}
    (firstSmall : first < 2 ^ 20)
    (secondSmall : second < 2 ^ 20)
    (different : first ≠ second) :
    blockAddress first ≠ blockAddress second := by
  intro same
  have value := congrArg BitVec.toNat same
  rw [toNat_blockAddress firstSmall, toNat_blockAddress secondSmall]
    at value
  omega

/-- Blocks the counter still allows to be taken. -/
def Pmm.available (pmm : Pmm) : Nat :=
  (BitVec.ofNat 64 pmm.maxMemoryBlocks - pmm.usedMemoryBlocks).toNat

/-- The free blocks up to a block. -/
def Pmm.freeUpTo (pmm : Pmm) (block : Nat) : Finset Nat :=
  (Finset.range (block + 1)).filter fun lower => ¬pmm.Reserved lower

/-- The lowest free block is what an allocation of one block returns. -/
theorem pmmAllocateBlocks_one
    {pmm : Pmm}
    {block : Nat}
    (lowest : pmm.LowestFree block)
    (notZero : block ≠ 0)
    (addressable : block < 2 ^ 32)
    (available : 0 < pmm.available) :
    pmmAllocateBlocks pmm 1 =
      (blockAddress block, pmm.reserve block 1) := by
  have value : (BitVec.ofNat 32 block).toNat = block :=
    Nat.mod_eq_of_lt addressable
  have nonzero : BitVec.ofNat 32 block ≠ 0 := by
    intro zero
    rw [zero] at value
    exact notZero value.symm
  have start : pmmFindFirstFreeRun pmm 1 = BitVec.ofNat 32 block := by
    rw [pmmFindFirstFreeRun, lowest.found]
    simp
  have enough :
      ¬BitVec.ofNat 64 pmm.maxMemoryBlocks - pmm.usedMemoryBlocks <
        (1 : SizeT).setWidth 64 := by
    intro less
    have none : pmm.available < 1 := less
    omega
  have pointer :
      BitVec.ofNat 32 block * 4096 = BitVec.ofNat 32 (block * 4096) :=
    (BitVec.ofNat_mul block 4096).symm
  rw [pmmAllocateBlocks, if_neg enough, start]
  simp only [nonzero, ↓reduceIte, pointer, value]
  rfl

/-- Taking one block removes it from the free ones. -/
theorem Pmm.freeUpTo_reserve
    (pmm : Pmm)
    (taken block : Nat) :
    (pmm.reserve taken 1).freeUpTo block =
      (pmm.freeUpTo block).erase taken := by
  have one : (1 : SizeT).toNat = 1 := rfl
  ext other
  simp only [freeUpTo, Finset.mem_filter, Finset.mem_range,
    Finset.mem_erase, reserved_reserve, one, not_or]
  constructor
  · rintro ⟨upTo, different, free⟩
    exact ⟨by omega, upTo, free⟩
  · rintro ⟨different, upTo, free⟩
    exact ⟨upTo, by omega, free⟩

/-- Taking one block uses up one unit of the counter. -/
theorem Pmm.available_reserve
    (pmm : Pmm)
    (taken : Nat)
    (available : 0 < pmm.available) :
    (pmm.reserve taken 1).available + 1 = pmm.available := by
  have one : ((1 : SizeT).setWidth 64).toNat = 1 := rfl
  unfold Pmm.available at available ⊢
  simp only [reserve, BitVec.toNat_sub, BitVec.toNat_add, one]
    at available ⊢
  have bounded := pmm.usedMemoryBlocks.isLt
  have managed := (BitVec.ofNat 64 pmm.maxMemoryBlocks).isLt
  omega

/-- Every run of a size that the search can find ends below 4 GiB. -/
def Pmm.FindsBelow4GiB (pmm : Pmm) (size : SizeT) : Prop :=
  ∀ last, pmm.lastOfRun size = some last → last < 2 ^ 20

/-- A manager of at most 4 GiB finds runs below 4 GiB only. -/
theorem Pmm.findsBelow4GiB_of_le
    {pmm : Pmm}
    (small : pmm.maxMemoryBlocks ≤ 2 ^ 20)
    {size : SizeT}
    (positive : 0 < size.toNat) :
    pmm.FindsBelow4GiB size := by
  intro last search
  have scanned := (Pmm.lastOfRun_spec positive search).2
  have within := pmm.scannedBlocks_le
  omega

/-- The block that an allocation of one block would take. -/
structure Pmm.NextBlock (pmm : Pmm) (block : Nat) : Prop where
  available : 0 < pmm.available
  lowestFree : pmm.LowestFree block
  notZero : block ≠ 0

/-- There is at most one next block. -/
theorem Pmm.NextBlock.unique
    {pmm : Pmm}
    {first second : Nat}
    (firstNext : pmm.NextBlock first)
    (secondNext : pmm.NextBlock second) :
    first = second := by
  have found := firstNext.lowestFree.found
  rw [secondNext.lowestFree.found] at found
  exact (Option.some.inj found).symm

/--
What an allocation of one block does: it takes the next block, or there is
none below 4 GiB.
-/
inductive AllocatesOne (pmm : Pmm) : PtrT × Pmm → Prop where
  | refused
      (exhausted : ∀ block, pmm.NextBlock block → 2 ^ 20 ≤ block) :
      AllocatesOne pmm (0, pmm)
  | granted
      {block : Nat}
      (next : pmm.NextBlock block) :
      AllocatesOne pmm
        (blockAddress block, pmm.reserve (block % 2 ^ 32) 1)

/-- An allocation of one block takes the next block, if there is one. -/
theorem pmmAllocateBlocks_allocatesOne (pmm : Pmm) :
    AllocatesOne pmm (pmmAllocateBlocks pmm 1) := by
  have one : (1 : SizeT).toNat = 1 := rfl
  by_cases next :
      ∃ block, pmm.NextBlock block ∧ block < 2 ^ 20
  · obtain ⟨block, next, small⟩ := next
    have granted := AllocatesOne.granted next
    rw [Nat.mod_eq_of_lt (show block < 2 ^ 32 by omega)] at granted
    rw [pmmAllocateBlocks_one next.lowestFree next.notZero (by omega)
      next.available]
    exact granted
  · have exhausted
        (block : Nat)
        (nextBlock : pmm.NextBlock block) :
        2 ^ 20 ≤ block := by
      by_contra small
      exact next ⟨block, nextBlock, by omega⟩
    by_cases available : 0 < pmm.available
    · have allocates :=
        pmmAllocateBlocks_allocates pmm (show 0 < (1 : SizeT).toNat by
          decide)
      revert allocates
      generalize pmmAllocateBlocks pmm 1 = result
      intro allocates
      cases allocates with
      | refused =>
          exact .refused exhausted
      | @granted first notZero _ _ found =>
          rw [one, Nat.add_sub_cancel] at found
          have lowest := Pmm.lastOfRun_one_of_some found
          exact .granted ⟨available, lowest, by
            rintro rfl
            exact notZero rfl⟩
    · have less :
          BitVec.ofNat 64 pmm.maxMemoryBlocks - pmm.usedMemoryBlocks <
            (1 : SizeT).setWidth 64 := by
        show pmm.available < 1
        omega
      rw [pmmAllocateBlocks, if_pos less]
      exact .refused exhausted

end HobbyOS
