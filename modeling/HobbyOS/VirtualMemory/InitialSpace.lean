import HobbyOS.VirtualMemory.FrameUpdates

namespace HobbyOS

/-!
# The initial address space

After `initialize_virtual_memory_manager` the processor translates the
addresses below 4 MiB to themselves, through entries that are present,
writable and for the supervisor only, and no other address.
-/

/-- The translation of an address by the processor: frame and offset. -/
def Paging.translate (paging : Paging) (vaddr : AddrT) : Option AddrT :=
  (paging.walk vaddr).map fun frame => frame ||| (vaddr &&& 0xFFF#32)

/-- The attribute bits of a present, read/write, supervisor entry. -/
def supervisorAttributes : BitVec 32 :=
  vmmSetAttribute pteReadWrite ptePresent

/-- The identity map of the first 4 MiB, and nothing else. -/
structure InitialSpace (paging : Paging) : Prop where
  mapped :
    ∀ vaddr : AddrT,
      vaddr.toNat < 2 ^ 22 →
      paging.translate vaddr = some vaddr
  attributes :
    ∀ vaddr : AddrT,
      vaddr.toNat < 2 ^ 22 →
      paging.directoryEntry vaddr &&& 0xFFF#32 = supervisorAttributes ∧
        paging.pageEntry vaddr &&& 0xFFF#32 = supervisorAttributes
  unmapped :
    ∀ vaddr : AddrT,
      2 ^ 22 ≤ vaddr.toNat →
      paging.translate vaddr = none

/-- Setting an aligned frame leaves the attribute bits alone. -/
theorem and_low_vmmSetFrame
    {address : BitVec 32}
    (aligned : PageAligned address)
    (entry : BitVec 32) :
    vmmSetFrame address entry &&& 0xFFF#32 = entry &&& 0xFFF#32 :=
  ((EntryTracks.initial entry).setFrame aligned).attributes

/-- An address is its page's address with its offset in the page. -/
theorem blockAddress_or_offset (vaddr : AddrT) :
    blockAddress (pageNumber vaddr) ||| (vaddr &&& 0xFFF#32) = vaddr := by
  have small := pageNumber_lt vaddr
  have aligned : PageAligned (blockAddress (pageNumber vaddr)) :=
    pageAligned_blockAddress small
  have apart :
      blockAddress (pageNumber vaddr) &&& (vaddr &&& 0xFFF#32) = 0#32 := by
    rw [BitVec.and_comm vaddr, ← BitVec.and_assoc, aligned.and_low]
    exact BitVec.zero_and
  have offset : (vaddr &&& 0xFFF#32).toNat = vaddr.toNat % 4096 := by
    rw [BitVec.toNat_and]
    exact Nat.and_two_pow_sub_one_eq_mod _ 12
  have bounded := vaddr.isLt
  rw [← BitVec.add_eq_or_of_and_eq_zero _ _ apart]
  apply BitVec.eq_of_toNat_eq
  rw [BitVec.toNat_add, offset, toNat_blockAddress small, pageNumber]
  omega

/-- A directory with one identity table is the initial address space. -/
theorem IdentityDirectory.initialSpace
    {paging : Paging}
    {table3GB : PtrT}
    (directory : IdentityDirectory paging table3GB) :
    InitialSpace paging := by
  have identity := directory.identityMapped
  refine ⟨?_, ?_, ?_⟩
  · intro vaddr low
    have first : pageNumber vaddr < 1024 := by
      unfold pageNumber
      omega
    rw [Paging.translate, identity.walk, identitySpace, if_pos first,
      Option.map_some, blockAddress_or_offset]
  · intro vaddr low
    have first : pageNumber vaddr < 1024 := by
      unfold pageNumber
      omega
    have index : vmmPdIndex vaddr = 0 := by
      apply BitVec.eq_of_toNat_eq
      rw [toNat_vmmPdIndex]
      exact Nat.div_eq_of_lt first
    constructor
    · rw [directory.directoryEntry, if_pos index, tableEntry,
        and_low_vmmSetFrame directory.table.aligned]
      decide
    · have aligned : PageAligned (blockAddress (pageNumber vaddr)) :=
        pageAligned_blockAddress (by omega)
      rw [identity.entries, if_pos first, identityEntry_eq, mappedEntry,
        and_low_vmmSetFrame aligned]
      decide
  · intro vaddr high
    have beyond : ¬pageNumber vaddr < 1024 := by
      unfold pageNumber
      omega
    rw [Paging.translate, identity.walk, identitySpace, if_neg beyond,
      Option.map_none]

/--
Whatever the memory holds, a successful initialization leaves the initial
address space, if the manager's free blocks lie below 4 GiB.
-/
theorem initializeVirtualMemoryManager_initialSpace
    {before start : Paging}
    (low : before.pmm.FreeBelow4GiB)
    (success :
      initializeVirtualMemoryManager before = (true, start)) :
    InitialSpace start := by
  obtain ⟨_, directory⟩ :=
    initializeVirtualMemoryManager_directory
      (initializesBelow4GiB_of_free low) success
  exact directory.initialSpace

/-- The initial address space on zeroed memory. -/
theorem initializeVirtualMemoryManager_initialSpace_booted :
    InitialSpace bootedPaging :=
  initializeVirtualMemoryManager_initialSpace bootPaging_low
    bootPaging_success

end HobbyOS
