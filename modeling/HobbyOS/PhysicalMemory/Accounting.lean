import Mathlib.Data.Finset.Card
import Mathlib.Order.Interval.Finset.Nat
import HobbyOS.PhysicalMemory.Allocation

namespace HobbyOS

open Library

/-!
# The counter of used blocks

Five operations update the bitmap and `pmm_used_memory_blocks` separately.
The counter is right in a state when it equals the number of set bits of the
managed blocks.  Every operation adds or removes a range of bits and adjusts
the counter by the length of that range, so it keeps the counter right exactly
when all blocks of the range are managed and change state.
-/

/-- The managed blocks whose bit is set. -/
def Pmm.reservedBlocks (pmm : Pmm) : Finset Nat :=
  (Finset.range pmm.maxMemoryBlocks).filter pmm.Reserved

/-- The counter equals the number of reserved blocks. -/
def Pmm.Accounted (pmm : Pmm) : Prop :=
  pmm.usedMemoryBlocks.toNat = pmm.reservedBlocks.card

instance (pmm : Pmm) : Decidable pmm.Accounted :=
  inferInstanceAs (Decidable (_ = _))

/-- The counter of an accounted state does not exceed the managed blocks. -/
theorem Pmm.Accounted.used_le
    {pmm : Pmm}
    (accounted : pmm.Accounted) :
    pmm.usedMemoryBlocks.toNat ≤ pmm.maxMemoryBlocks := by
  rw [accounted]
  exact (Finset.card_filter_le _ _).trans_eq (Finset.card_range _)

@[simp] theorem Pmm.mem_reservedBlocks
    {pmm : Pmm}
    {block : Nat} :
    block ∈ pmm.reservedBlocks ↔
      block < pmm.maxMemoryBlocks ∧ pmm.Reserved block := by
  simp [reservedBlocks]

/-- Only managed blocks are counted. -/
theorem Pmm.reservedBlocks_subset (pmm : Pmm) :
    pmm.reservedBlocks ⊆ Finset.range pmm.maxMemoryBlocks :=
  Finset.filter_subset _ _

/-- The managed blocks are fewer than `2 ^ 36`. -/
theorem Pmm.card_reservedBlocks_lt (pmm : Pmm) :
    pmm.reservedBlocks.card < 2 ^ 36 := by
  have fits := pmm.fits
  have bounded : pmm.reservedBlocks.card ≤ pmm.maxMemoryBlocks :=
    (Finset.card_filter_le _ _).trans_eq (Finset.card_range _)
  omega

/--
Adding a range to a set of managed blocks adds its length exactly when the
whole range is managed and was absent.
-/
theorem card_add_range_iff
    {managed before after range : Finset Nat}
    (within : before ⊆ managed)
    (shape : after = (before ∪ range) ∩ managed) :
    after.card = before.card + range.card ↔
      ∀ block ∈ range, block ∈ managed ∧ block ∉ before := by
  have split : after = before ∪ (range ∩ managed) \ before := by
    subst shape
    ext block
    have := @within block
    simp only [Finset.mem_inter, Finset.mem_union, Finset.mem_sdiff]
    tauto
  have added : (range ∩ managed) \ before ⊆ range := by
    intro block member
    simp only [Finset.mem_sdiff, Finset.mem_inter] at member
    exact member.1.1
  have count :
      after.card =
        before.card + ((range ∩ managed) \ before).card := by
    rw [split]
    exact Finset.card_union_of_disjoint Finset.disjoint_sdiff
  constructor
  · intro counted block member
    have whole :
        (range ∩ managed) \ before = range :=
      Finset.eq_of_subset_of_card_le added (by omega)
    rw [← whole] at member
    simp only [Finset.mem_sdiff, Finset.mem_inter] at member
    exact ⟨member.1.2, member.2⟩
  · intro fresh
    have whole : (range ∩ managed) \ before = range := by
      refine Finset.Subset.antisymm added ?_
      intro block member
      simp only [Finset.mem_sdiff, Finset.mem_inter]
      exact ⟨⟨member, (fresh block member).1⟩, (fresh block member).2⟩
    rw [count, whole]

/--
Removing a range takes off its length exactly when the whole range was
present.
-/
theorem card_remove_range_iff
    (before range : Finset Nat) :
    before.card = (before \ range).card + range.card ↔
      range ⊆ before := by
  have parts := Finset.card_sdiff_add_card_inter before range
  constructor
  · intro counted
    have whole : before ∩ range = range :=
      Finset.eq_of_subset_of_card_le Finset.inter_subset_right (by omega)
    exact Finset.inter_eq_right.mp whole
  · intro present
    rw [Finset.inter_eq_right.mpr present] at parts
    exact parts.symm

/-- A range of blocks with its first block and length. -/
def blockRange (first count : Nat) : Finset Nat :=
  Finset.Ico first (first + count)

@[simp] theorem mem_blockRange
    {first count block : Nat} :
    block ∈ blockRange first count ↔
      first ≤ block ∧ block < first + count := by
  simp [blockRange]

@[simp] theorem card_blockRange (first count : Nat) :
    (blockRange first count).card = count := by
  simp [blockRange]

/-- The blocks that a region loop visits. -/
def regionBlocks (startAddress size : BitVec 64) : Finset Nat :=
  blockRange (regionFirst startAddress) (regionCount startAddress size)

/-- The blocks of a region are as many as the iterations of its loop. -/
theorem card_regionBlocks (startAddress size : BitVec 64) :
    (regionBlocks startAddress size).card =
      regionCount startAddress size :=
  card_blockRange _ _

/-- A region loop makes at least one iteration when the sum does not wrap. -/
theorem regionFirst_mem_regionBlocks
    {startAddress size : BitVec 64}
    (noOverflow : startAddress.toNat + size.toNat < 2 ^ 64) :
    regionFirst startAddress ∈ regionBlocks startAddress size := by
  have sum :
      (startAddress + size).toNat = startAddress.toNat + size.toNat := by
    rw [BitVec.toNat_add, Nat.mod_eq_of_lt noOverflow]
  have ordered : regionFirst startAddress ≤ regionEnd startAddress size := by
    unfold regionFirst regionEnd
    rw [sum]
    split <;> omega
  simp only [regionBlocks, mem_blockRange, regionCount]
  omega

/-- The loops over a region make fewer than `2 ^ 53` iterations. -/
theorem regionCount_lt (startAddress size : BitVec 64) :
    regionCount startAddress size < 2 ^ 53 := by
  have bounded := (startAddress + size).isLt
  unfold regionCount regionEnd
  split <;> omega

/-- After a release the reserved blocks lose the region and regain block 0. -/
theorem reservedBlocks_pmmIntializeMemoryRegion
    (pmm : Pmm)
    (startAddress size : BitVec 64) :
    (pmmIntializeMemoryRegion pmm startAddress size).reservedBlocks =
      (pmm.reservedBlocks \ regionBlocks startAddress size) ∪
        ({0} ∩ Finset.range pmm.maxMemoryBlocks) := by
  ext block
  simp only [Pmm.mem_reservedBlocks, Pmm.Reserved,
    pmmIntializeMemoryRegion, pmmTestBlock_pmmSetBlock,
    pmmTestBlock_unsetBlocks, Bool.or_eq_true, Bool.and_eq_true,
    decide_eq_true_eq, Finset.mem_union, Finset.mem_sdiff,
    Finset.mem_inter, Finset.mem_singleton, Finset.mem_range,
    regionBlocks, mem_blockRange]
  tauto

/-- After a withdrawal the reserved blocks gain the managed region. -/
theorem reservedBlocks_pmmDeintializeMemoryRegion
    (pmm : Pmm)
    (startAddress size : BitVec 64) :
    (pmmDeintializeMemoryRegion pmm startAddress size).reservedBlocks =
      (pmm.reservedBlocks ∪ regionBlocks startAddress size) ∩
        Finset.range pmm.maxMemoryBlocks := by
  ext block
  simp only [Pmm.mem_reservedBlocks, Pmm.Reserved,
    pmmDeintializeMemoryRegion, pmmTestBlock_setBlocks,
    Bool.or_eq_true, decide_eq_true_eq, Finset.mem_union,
    Finset.mem_inter, Finset.mem_range, regionBlocks, mem_blockRange]
  tauto

/-- After an allocation the reserved blocks gain the run. -/
theorem reservedBlocks_reserve
    (pmm : Pmm)
    (first : Nat)
    (size : SizeT) :
    (pmm.reserve first size).reservedBlocks =
      (pmm.reservedBlocks ∪ blockRange first size.toNat) ∩
        Finset.range pmm.maxMemoryBlocks := by
  ext block
  simp only [Pmm.mem_reservedBlocks, Pmm.reserved_reserve,
    Finset.mem_union, Finset.mem_inter, Finset.mem_range,
    mem_blockRange]
  simp only [Pmm.reserve]
  tauto

/-- After a free the reserved blocks lose the range. -/
theorem reservedBlocks_pmmFreeBlocks
    (pmm : Pmm)
    (address : PtrT)
    (size : SizeT) :
    (pmmFreeBlocks pmm address size).reservedBlocks =
      pmm.reservedBlocks \
        blockRange (address.toNat / 4096) size.toNat := by
  ext block
  simp only [Pmm.mem_reservedBlocks, Pmm.reserved_pmmFreeBlocks,
    Finset.mem_sdiff, mem_blockRange]
  simp only [pmmFreeBlocks]
  tauto

/-- Releasing keeps the counter right on managed, reserved, non-zero blocks. -/
def ReleaseKeeps (pmm : Pmm) (startAddress size : BitVec 64) : Prop :=
  pmm.Reserved 0 ∧
    ∀ block ∈ regionBlocks startAddress size,
      block ≠ 0 ∧ block < pmm.maxMemoryBlocks ∧ pmm.Reserved block

/-- Withdrawing keeps the counter right on managed, free blocks. -/
def WithdrawKeeps (pmm : Pmm) (startAddress size : BitVec 64) : Prop :=
  ∀ block ∈ regionBlocks startAddress size,
    block < pmm.maxMemoryBlocks ∧ ¬pmm.Reserved block

/--
Allocating keeps the counter right on free blocks.  The run that is found is
free, but it is marked from the 32-bit number of its first block on.
-/
def AllocationKeeps (pmm : Pmm) (size : SizeT) : Prop :=
  ∀ first,
    pmm.lastOfRun size = some (first + size.toNat - 1) →
    first % 2 ^ 32 ≠ 0 →
    ∀ block,
      first % 2 ^ 32 ≤ block →
      block < first % 2 ^ 32 + size.toNat →
      ¬pmm.Reserved block

/-- Freeing keeps the counter right on managed, reserved blocks. -/
def FreeKeeps (pmm : Pmm) (allocation : Allocation) : Prop :=
  ∀ block,
    allocation.Owns block →
    block < pmm.maxMemoryBlocks ∧ pmm.Reserved block

namespace Pmm.Accounted

variable {pmm : Pmm}

/-- A counter that went down is right if as many blocks were given up. -/
theorem decreased_iff
    (accounted : pmm.Accounted)
    {later : Pmm}
    {count : Nat}
    (small : count < 2 ^ 53)
    (counter :
      later.usedMemoryBlocks =
        pmm.usedMemoryBlocks - BitVec.ofNat 64 count) :
    later.Accounted ↔
      pmm.reservedBlocks.card = later.reservedBlocks.card + count := by
  have before := pmm.card_reservedBlocks_lt
  have after := later.card_reservedBlocks_lt
  unfold Accounted at accounted ⊢
  rw [counter, BitVec.toNat_sub, BitVec.toNat_ofNat]
  omega

/-- A counter that went up is right if as many blocks were added. -/
theorem increased_iff
    (accounted : pmm.Accounted)
    {later : Pmm}
    {count : Nat}
    (small : count < 2 ^ 53)
    (counter :
      later.usedMemoryBlocks =
        pmm.usedMemoryBlocks + BitVec.ofNat 64 count) :
    later.Accounted ↔
      later.reservedBlocks.card = pmm.reservedBlocks.card + count := by
  have before := pmm.card_reservedBlocks_lt
  unfold Accounted at accounted ⊢
  rw [counter, BitVec.toNat_add, BitVec.toNat_ofNat]
  omega

/--
A release that keeps the counter right regains no block: block 0 was
reserved, and is not in the region.
-/
theorem sdiff_regionBlocks_of_counted
    {startAddress size : BitVec 64}
    (counted :
      pmm.reservedBlocks.card =
        (pmm.reservedBlocks \ regionBlocks startAddress size ∪
            {0} ∩ Finset.range pmm.maxMemoryBlocks).card +
          (regionBlocks startAddress size).card) :
    pmm.reservedBlocks \ regionBlocks startAddress size =
      pmm.reservedBlocks \ regionBlocks startAddress size ∪
        {0} ∩ Finset.range pmm.maxMemoryBlocks := by
  have parts :=
    Finset.card_sdiff_add_card_inter pmm.reservedBlocks
      (regionBlocks startAddress size)
  have inRegion :
      (pmm.reservedBlocks ∩ regionBlocks startAddress size).card ≤
        (regionBlocks startAddress size).card :=
    Finset.card_le_card Finset.inter_subset_right
  refine Finset.eq_of_subset_of_card_le Finset.subset_union_left ?_
  omega

/-- A release keeps an accounted state accounted exactly on its condition. -/
theorem release_iff
    (accounted : pmm.Accounted)
    {startAddress size : BitVec 64}
    (noOverflow : startAddress.toNat + size.toNat < 2 ^ 64) :
    (pmmIntializeMemoryRegion pmm startAddress size).Accounted ↔
      ReleaseKeeps pmm startAddress size := by
  have visited := regionFirst_mem_regionBlocks noOverflow
  have removed :=
    card_remove_range_iff pmm.reservedBlocks
      (regionBlocks startAddress size)
  rw [accounted.decreased_iff (regionCount_lt startAddress size) rfl,
    reservedBlocks_pmmIntializeMemoryRegion,
    ← card_regionBlocks startAddress size]
  constructor
  · intro counted
    have kept := sdiff_regionBlocks_of_counted counted
    rw [← kept] at counted
    have present := removed.mp counted
    have managed := Pmm.mem_reservedBlocks.mp (present visited)
    have zero :
        0 ∈ pmm.reservedBlocks \ regionBlocks startAddress size := by
      rw [kept]
      simp only [Finset.mem_union, Finset.mem_inter,
        Finset.mem_singleton, Finset.mem_range, true_and]
      omega
    rw [Finset.mem_sdiff, Pmm.mem_reservedBlocks] at zero
    refine ⟨zero.1.2, ?_⟩
    intro block member
    have reserved := Pmm.mem_reservedBlocks.mp (present member)
    refine ⟨?_, reserved.1, reserved.2⟩
    rintro rfl
    exact zero.2 member
  · rintro ⟨zeroReserved, region⟩
    have present :
        regionBlocks startAddress size ⊆ pmm.reservedBlocks := by
      intro block member
      exact Pmm.mem_reservedBlocks.mpr (region block member).2
    have zeroKept :
        {0} ∩ Finset.range pmm.maxMemoryBlocks ⊆
          pmm.reservedBlocks \ regionBlocks startAddress size := by
      intro block member
      simp only [Finset.mem_inter, Finset.mem_singleton,
        Finset.mem_range] at member
      obtain ⟨rfl, managed⟩ := member
      rw [Finset.mem_sdiff, Pmm.mem_reservedBlocks]
      exact ⟨⟨managed, zeroReserved⟩,
        fun inRegion => (region 0 inRegion).1 rfl⟩
    rw [Finset.union_eq_left.mpr zeroKept]
    exact removed.mpr present

/-- A withdrawal keeps an accounted state accounted exactly on its condition. -/
theorem withdraw_iff
    (accounted : pmm.Accounted)
    (startAddress size : BitVec 64) :
    (pmmDeintializeMemoryRegion pmm startAddress size).Accounted ↔
      WithdrawKeeps pmm startAddress size := by
  have added :=
    card_add_range_iff pmm.reservedBlocks_subset
      (reservedBlocks_pmmDeintializeMemoryRegion pmm startAddress size)
  rw [accounted.increased_iff (regionCount_lt startAddress size) rfl,
    ← card_regionBlocks startAddress size, added]
  simp only [WithdrawKeeps, Finset.mem_range,
    Pmm.mem_reservedBlocks, not_and]
  constructor
  · intro fresh block member
    have range := fresh block member
    exact ⟨range.1, range.2 range.1⟩
  · intro fresh block member
    have range := fresh block member
    exact ⟨range.1, fun _ => range.2⟩

/-- A free keeps an accounted state accounted exactly on its condition. -/
theorem free_iff
    (accounted : pmm.Accounted)
    (allocation : Allocation) :
    (pmmFreeBlocks pmm allocation.pointer allocation.size).Accounted ↔
      FreeKeeps pmm allocation := by
  have bounded := allocation.size.isLt
  have counter :
      (pmmFreeBlocks pmm allocation.pointer
          allocation.size).usedMemoryBlocks =
        pmm.usedMemoryBlocks -
          BitVec.ofNat 64 allocation.size.toNat := by
    rw [BitVec.ofNat_toNat]
    rfl
  have removed :=
    card_remove_range_iff pmm.reservedBlocks
      (blockRange (allocation.pointer.toNat / 4096)
        allocation.size.toNat)
  rw [card_blockRange] at removed
  rw [accounted.decreased_iff (by omega) counter,
    reservedBlocks_pmmFreeBlocks, removed]
  simp only [FreeKeeps, Allocation.Owns, Finset.subset_iff,
    mem_blockRange, Pmm.mem_reservedBlocks]

/-- Reserving keeps an accounted state accounted on managed, free blocks. -/
theorem reserve_iff
    (accounted : pmm.Accounted)
    (first : Nat)
    (size : SizeT) :
    (pmm.reserve first size).Accounted ↔
      ∀ block,
        first ≤ block →
        block < first + size.toNat →
        block < pmm.maxMemoryBlocks ∧ ¬pmm.Reserved block := by
  have bounded := size.isLt
  have counter :
      (pmm.reserve first size).usedMemoryBlocks =
        pmm.usedMemoryBlocks + BitVec.ofNat 64 size.toNat := by
    rw [BitVec.ofNat_toNat]
    rfl
  have added :=
    card_add_range_iff pmm.reservedBlocks_subset
      (reservedBlocks_reserve pmm first size)
  rw [card_blockRange] at added
  rw [accounted.increased_iff (by omega) counter, added]
  constructor
  · intro fresh block lower upper
    have range := fresh block (mem_blockRange.mpr ⟨lower, upper⟩)
    have managed := Finset.mem_range.mp range.1
    exact ⟨managed,
      fun reserved =>
        range.2 (Pmm.mem_reservedBlocks.mpr ⟨managed, reserved⟩)⟩
  · intro fresh block member
    rw [mem_blockRange] at member
    have range := fresh block member.1 member.2
    exact ⟨Finset.mem_range.mpr range.1,
      fun reserved => range.2 (Pmm.mem_reservedBlocks.mp reserved).2⟩

/-- The counter of an accounted state allows to take any free run. -/
theorem enough
    (accounted : pmm.Accounted)
    {first : Nat}
    {size : SizeT}
    (managed : first + size.toNat ≤ pmm.maxMemoryBlocks)
    (free :
      ∀ block,
        first ≤ block →
        block < first + size.toNat →
        ¬pmm.Reserved block) :
    ¬BitVec.ofNat 64 pmm.maxMemoryBlocks - pmm.usedMemoryBlocks <
      size.setWidth 64 := by
  have fits := pmm.fits
  have disjoint :
      Disjoint pmm.reservedBlocks (blockRange first size.toNat) := by
    rw [Finset.disjoint_left]
    intro block reserved inRun
    rw [mem_blockRange] at inRun
    exact free block inRun.1 inRun.2
      (Pmm.mem_reservedBlocks.mp reserved).2
  have together :
      pmm.reservedBlocks ∪ blockRange first size.toNat ⊆
        Finset.range pmm.maxMemoryBlocks := by
    refine Finset.union_subset pmm.reservedBlocks_subset ?_
    intro block inRun
    rw [mem_blockRange] at inRun
    rw [Finset.mem_range]
    omega
  have counted := Finset.card_le_card together
  rw [Finset.card_union_of_disjoint disjoint, card_blockRange,
    Finset.card_range, ← accounted] at counted
  have bounded := size.isLt
  rw [BitVec.lt_def, BitVec.toNat_sub, BitVec.toNat_ofNat,
    BitVec.toNat_setWidth]
  omega

end Pmm.Accounted

/-- The calls of the physical memory manager. -/
inductive PmmCall where
  | intialize (startAddress size : BitVec 64) : PmmCall
  | deintialize (startAddress size : BitVec 64) : PmmCall
  | allocate (size : SizeT) : PmmCall
  | free (allocation : Allocation) : PmmCall

/-- A region lies in the managed range. -/
def InManagedRange (pmm : Pmm) (startAddress size : BitVec 64) : Prop :=
  startAddress.toNat + size.toNat ≤ pmm.maxMemoryBlocks * 4096

/-- Calls with regions in the managed range and frees of live allocations. -/
inductive PmmCallStep : PmmCall → PmmClient → PmmClient → Prop where
  | intialize
      {startAddress size : BitVec 64}
      {client : PmmClient}
      (inside : InManagedRange client.pmm startAddress size) :
      PmmCallStep (.intialize startAddress size) client
        { client with
          pmm := pmmIntializeMemoryRegion client.pmm startAddress size }
  | deintialize
      {startAddress size : BitVec 64}
      {client : PmmClient}
      (inside : InManagedRange client.pmm startAddress size) :
      PmmCallStep (.deintialize startAddress size) client
        { client with
          pmm := pmmDeintializeMemoryRegion client.pmm startAddress size }
  | allocate
      {size : SizeT}
      {client : PmmClient} :
      PmmCallStep (.allocate size) client (client.allocate size)
  | free
      {allocation : Allocation}
      {client : PmmClient}
      (held : allocation ∈ client.live) :
      PmmCallStep (.free allocation) client (client.free allocation)

/-- The condition under which a call keeps the counter right. -/
def KeepsAccount : PmmCall → PmmClient → Prop
  | .intialize startAddress size, client =>
      ReleaseKeeps client.pmm startAddress size
  | .deintialize startAddress size, client =>
      WithdrawKeeps client.pmm startAddress size
  | .allocate size, client =>
      0 < size.toNat → AllocationKeeps client.pmm size
  | .free allocation, client =>
      FreeKeeps client.pmm allocation

/-- The sum of a managed region's start and size does not wrap. -/
theorem InManagedRange.noOverflow
    {pmm : Pmm}
    {startAddress size : BitVec 64}
    (inside : InManagedRange pmm startAddress size) :
    startAddress.toNat + size.toNat < 2 ^ 64 := by
  have fits := pmm.fits
  unfold InManagedRange at inside
  omega

/-- An allocation of no blocks leaves the manager alone. -/
theorem pmmAllocateBlocks_zero (pmm : Pmm) :
    (pmmAllocateBlocks pmm 0).2 = pmm := by
  unfold pmmAllocateBlocks
  split
  · rfl
  · simp only []
    split
    · rfl
    · simp [setBlocks]

/-- An allocation keeps an accounted state accounted on its condition. -/
theorem Pmm.Accounted.allocate_iff
    {pmm : Pmm}
    (accounted : pmm.Accounted)
    {size : SizeT}
    (positive : 0 < size.toNat) :
    (pmmAllocateBlocks pmm size).2.Accounted ↔
      AllocationKeeps pmm size := by
  constructor
  · intro accountedAfter first found notZero block lower upper
    obtain ⟨run, scanned⟩ := Pmm.lastOfRun_spec positive found
    have within := pmm.scannedBlocks_le
    have enough :=
      accounted.enough (show first + size.toNat ≤ _ by omega) <| by
        intro other otherLower otherUpper
        have clear := run.free other (by omega) (by omega)
        simp [Pmm.Reserved, clear]
    rw [pmmAllocateBlocks_of_found positive enough found notZero,
      accounted.reserve_iff] at accountedAfter
    exact (accountedAfter block lower upper).2
  · intro keeps
    have allocates := pmmAllocateBlocks_allocates pmm positive
    revert allocates
    generalize pmmAllocateBlocks pmm size = result
    intro allocates
    cases allocates with
    | refused =>
        exact accounted
    | @granted first notZero scanned free found =>
        refine (accounted.reserve_iff _ _).mpr ?_
        intro block lower upper
        refine ⟨?_, keeps first found notZero block lower upper⟩
        have within := pmm.scannedBlocks_le
        have number := Nat.mod_le first (2 ^ 32)
        omega

/-- A run that starts below block `2 ^ 32` is marked where it was found. -/
theorem allocationKeeps_of_addressable
    {pmm : Pmm}
    {size : SizeT}
    (positive : 0 < size.toNat)
    (addressable :
      ∀ first,
        pmm.lastOfRun size = some (first + size.toNat - 1) →
        first < 2 ^ 32) :
    AllocationKeeps pmm size := by
  intro first found _ block lower upper
  have run := (Pmm.lastOfRun_spec positive found).1
  rw [Nat.mod_eq_of_lt (addressable first found)] at lower upper
  have clear := run.free block (by omega) (by omega)
  simp [Pmm.Reserved, clear]

/-- A call that meets its condition keeps the counter right. -/
theorem PmmCallStep.accounted
    {call : PmmCall}
    {before after : PmmClient}
    (accounted : before.pmm.Accounted)
    (stepped : Guarded KeepsAccount PmmCallStep call before after) :
    after.pmm.Accounted := by
  obtain ⟨keeps, stepped⟩ := stepped
  cases stepped with
  | intialize inside =>
      exact (accounted.release_iff inside.noOverflow).mpr keeps
  | deintialize inside =>
      exact (accounted.withdraw_iff _ _).mpr keeps
  | @allocate size client =>
      rcases Nat.eq_zero_or_pos size.toNat with zero | positive
      · obtain rfl : size = 0 := BitVec.eq_of_toNat_eq zero
        rw [PmmClient.allocate, pmmAllocateBlocks_zero]
        exact accounted
      · exact (accounted.allocate_iff positive).mpr (keeps positive)
  | free held =>
      exact (accounted.free_iff _).mpr keeps

/-- A call that keeps the counter right meets its condition. -/
theorem PmmCallStep.keepsAccount
    {call : PmmCall}
    {before after : PmmClient}
    (accounted : before.pmm.Accounted)
    (stepped : PmmCallStep call before after)
    (accountedAfter : after.pmm.Accounted) :
    KeepsAccount call before := by
  cases stepped with
  | intialize inside =>
      exact (accounted.release_iff inside.noOverflow).mp accountedAfter
  | deintialize inside =>
      exact (accounted.withdraw_iff _ _).mp accountedAfter
  | allocate =>
      intro positive
      exact (accounted.allocate_iff positive).mp accountedAfter
  | free held =>
      exact (accounted.free_iff _).mp accountedAfter

/--
The bits of the last, partly used byte of the bitmap, which initialization
does not write, are already set in memory.
-/
def TailReserved
    (memory : Memory)
    (startAddress size : BitVec 64) :
    Prop :=
  ∀ block,
    size.toNat / 4096 / 8 * 8 ≤ block →
    block < size.toNat / 4096 →
    pmmTestBlock
      (fun index =>
        memory (startAddress.setWidth 32 + BitVec.ofNat 32 index))
      block = true

/-- Initialization sets every byte that is scanned, and no other. -/
theorem initialize_memoryBlocks
    (memory : Memory)
    (startAddress size : BitVec 64)
    (fits : size.toNat / 4096 / 8 < 2 ^ 32)
    {index : Nat}
    (small : index < 2 ^ 32) :
    (initializePhysicalMemoryManager memory startAddress size
        fits).memoryBlocks index =
      if index < size.toNat / 4096 / 8 then 0xFF
      else memory (startAddress.setWidth 32 + BitVec.ofNat 32 index) := by
  have offset :
      (startAddress.setWidth 32 + BitVec.ofNat 32 index -
          startAddress.setWidth 32).toNat =
        index := by
    rw [BitVec.add_comm, BitVec.add_sub_cancel, BitVec.toNat_ofNat,
      Nat.mod_eq_of_lt small]
  have length :
      (BitVec.ofNat 32 (size.toNat / 4096 / 8)).toNat =
        size.toNat / 4096 / 8 := by
    rw [BitVec.toNat_ofNat, Nat.mod_eq_of_lt fits]
  simp only [initializePhysicalMemoryManager, memset_apply, offset, length]

/-- After initialization every block of a whole byte is reserved. -/
theorem initialize_reserved
    (memory : Memory)
    (startAddress size : BitVec 64)
    (fits : size.toNat / 4096 / 8 < 2 ^ 32)
    {block : Nat}
    (scanned : block < size.toNat / 4096 / 8 * 8) :
    (initializePhysicalMemoryManager memory startAddress size
      fits).Reserved block := by
  apply pmmTestBlock_of_byte_full
  rw [initialize_memoryBlocks memory startAddress size fits (by omega),
    if_pos (by omega)]

/-- The counter is right after initialization exactly when the tail is set. -/
theorem initialize_accounted_iff
    (memory : Memory)
    (startAddress size : BitVec 64)
    (fits : size.toNat / 4096 / 8 < 2 ^ 32) :
    (initializePhysicalMemoryManager memory startAddress size
        fits).Accounted ↔
      TailReserved memory startAddress size := by
  have used :
      (initializePhysicalMemoryManager memory startAddress size
          fits).usedMemoryBlocks.toNat =
        (Finset.range (size.toNat / 4096)).card := by
    simp only [initializePhysicalMemoryManager, BitVec.toNat_ofNat,
      Finset.card_range]
    omega
  have tail
      {block : Nat}
      (beyond : size.toNat / 4096 / 8 * 8 ≤ block)
      (managed : block < size.toNat / 4096) :
      pmmTestBlock
          (initializePhysicalMemoryManager memory startAddress size
            fits).memoryBlocks block =
        pmmTestBlock
          (fun index =>
            memory (startAddress.setWidth 32 + BitVec.ofNat 32 index))
          block := by
    rw [pmmTestBlock_eq_getLsbD, pmmTestBlock_eq_getLsbD,
      initialize_memoryBlocks memory startAddress size fits (by omega),
      if_neg (by omega)]
  unfold Pmm.Accounted
  rw [used]
  constructor
  · intro counted block beyond managed
    have whole :
        (initializePhysicalMemoryManager memory startAddress size
            fits).reservedBlocks =
          Finset.range (size.toNat / 4096) :=
      Finset.eq_of_subset_of_card_le
        (Pmm.reservedBlocks_subset _) counted.le
    have member := Finset.mem_range.mpr managed
    rw [← whole, Pmm.mem_reservedBlocks] at member
    rw [← tail beyond managed]
    exact member.2
  · intro tailReserved
    congr 1
    symm
    refine Finset.Subset.antisymm (Pmm.reservedBlocks_subset _) ?_
    intro block member
    rw [Finset.mem_range] at member
    rw [Pmm.mem_reservedBlocks]
    refine ⟨member, ?_⟩
    by_cases scanned : block < size.toNat / 4096 / 8 * 8
    · exact initialize_reserved memory startAddress size fits scanned
    · rw [Pmm.Reserved, tail (by omega) member]
      exact tailReserved block (by omega) member

/--
The counter is right in every state of a run whose initialization and calls
all meet their conditions, and a run along which the counter stays right meets
all of them.
-/
theorem pmmRun_accounted_iff
    (memory : Memory)
    (startAddress size : BitVec 64)
    (fits : size.toNat / 4096 / 8 < 2 ^ 32)
    {calls : List PmmCall}
    {client : PmmClient} :
    (TailReserved memory startAddress size →
      Run (Guarded KeepsAccount PmmCallStep)
          ⟨initializePhysicalMemoryManager memory startAddress size
            fits, []⟩
          calls client →
        client.pmm.Accounted) ∧
      ((initializePhysicalMemoryManager memory startAddress size
          fits).Accounted →
        Run (fun call before after =>
            PmmCallStep call before after ∧ after.pmm.Accounted)
          ⟨initializePhysicalMemoryManager memory startAddress size
            fits, []⟩
          calls client →
        TailReserved memory startAddress size ∧
          Run (Guarded KeepsAccount PmmCallStep)
            ⟨initializePhysicalMemoryManager memory startAddress size
              fits, []⟩
            calls client) := by
  constructor
  · intro tail run
    exact run.invariant (fun client => client.pmm.Accounted)
      PmmCallStep.accounted
      ((initialize_accounted_iff memory startAddress size fits).mpr tail)
  · intro initially run
    refine
      ⟨(initialize_accounted_iff memory startAddress size fits).mp
        initially, ?_⟩
    -- The induction also carries what the next call needs of this state.
    suffices strengthened :
        Run (Guarded KeepsAccount PmmCallStep)
            ⟨initializePhysicalMemoryManager memory startAddress size
              fits, []⟩
            calls client ∧
          client.pmm.Accounted from strengthened.1
    induction run with
    | nil =>
        exact ⟨.nil, initially⟩
    | snoc _ stepped inductionHypothesis =>
        obtain ⟨guardedRun, accounted⟩ := inductionHypothesis
        obtain ⟨stepped, accountedAfter⟩ := stepped
        have keeps := stepped.keepsAccount accounted accountedAfter
        exact ⟨guardedRun.snoc ⟨keeps, stepped⟩, accountedAfter⟩

/-- Eight managed blocks, initialized over zeroed memory. -/
def eightBlocks : Pmm :=
  initializePhysicalMemoryManager (fun _ => 0) 0x100000 0x8000 (by decide)

/-- Blocks 1 and 2 of eight released, one of them taken and returned. -/
theorem pmmRun_accounted_iff_eightBlocks :
    (((PmmClient.mk (pmmIntializeMemoryRegion eightBlocks 0x1000 0x1000)
      []).allocate 1).free ⟨0x1000, 1⟩).pmm.Accounted := by
  have released : ReleaseKeeps eightBlocks 0x1000 0x1000 := by
    refine ⟨by decide, ?_⟩
    decide
  have inside : InManagedRange eightBlocks 0x1000 0x1000 := by
    show (0x1000#64).toNat + (0x1000#64).toNat ≤ 8 * 4096
    decide
  have allocated :
      AllocationKeeps (pmmIntializeMemoryRegion eightBlocks 0x1000 0x1000)
        1 := by
    refine allocationKeeps_of_addressable (by decide) ?_
    intro first found
    have scanned := (Pmm.lastOfRun_spec (by decide) found).2
    have blocks :
        (pmmIntializeMemoryRegion eightBlocks 0x1000
          0x1000).scannedBlocks = 8 := rfl
    omega
  have freed :
      FreeKeeps
        ((PmmClient.mk (pmmIntializeMemoryRegion eightBlocks 0x1000 0x1000)
          []).allocate 1).pmm ⟨0x1000, 1⟩ := by
    rintro block ⟨lower, upper⟩
    obtain rfl : block = 1 := by
      have first : (0x1000 : PtrT).toNat / 4096 = 1 := rfl
      have one : (1 : SizeT).toNat = 1 := rfl
      simp only [first, one] at lower upper
      omega
    decide
  have tail : TailReserved (fun _ => 0) 0x100000 0x8000 := by
    intro block lower upper
    have lower' : 8 ≤ block := lower
    have upper' : block < 8 := upper
    omega
  have run :
      Run (Guarded KeepsAccount PmmCallStep) ⟨eightBlocks, []⟩
        ([] ++ [.intialize 0x1000 0x1000] ++ [.allocate 1] ++
          [.free ⟨0x1000, 1⟩]) _ :=
    ((Run.nil.snoc ⟨released, .intialize inside⟩).snoc
      ⟨fun _ => allocated, .allocate⟩).snoc
      ⟨freed, .free (by decide)⟩
  exact
    (pmmRun_accounted_iff (fun _ => 0) 0x100000 0x8000 (by decide)).1
      tail run

/-- Releasing the first page counts two blocks, but keeps block 0 reserved. -/
theorem pmmRun_accounted_fails :
    ¬∀ (memory : Memory) (startAddress size : BitVec 64)
        (fits : size.toNat / 4096 / 8 < 2 ^ 32)
        (calls : List PmmCall) (client : PmmClient),
        Run PmmCallStep
            ⟨initializePhysicalMemoryManager memory startAddress size
              fits, []⟩
            calls client →
          client.pmm.Accounted := by
  intro claimed
  have inside : InManagedRange eightBlocks 0 0x1000 := by
    show (0#64).toNat + (0x1000#64).toNat ≤ 8 * 4096
    decide
  have accounted :=
    claimed (fun _ => 0) 0x100000 0x8000 (by decide) _ _
      (Run.nil.snoc (PmmCallStep.intialize inside))
  have different :
      (pmmIntializeMemoryRegion eightBlocks 0
          0x1000).usedMemoryBlocks.toNat ≠
        (pmmIntializeMemoryRegion eightBlocks 0
          0x1000).reservedBlocks.card := by
    decide
  exact different accounted

end HobbyOS
