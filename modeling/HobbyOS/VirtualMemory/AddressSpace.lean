import HobbyOS.Library.LastWrite
import HobbyOS.PhysicalMemory.Supply
import HobbyOS.VirtualMemory.Initialization

namespace HobbyOS

open Library

/-!
# The address space

The page directory and its tables represent a map from page numbers to
frames.  Mapping a page overwrites its frame, unmapping it removes the frame,
and a mapping that needs a table which cannot be allocated changes nothing.
-/

/-- A map from page numbers to frames. -/
abbrev AddressSpace := Nat → Option PtrT

/-- The map that the initialization builds. -/
def identitySpace : AddressSpace :=
  fun page =>
    if page < 1024 then some (blockAddress page) else none

/-- Calls on pages, a mapping together with the result it returned. -/
inductive PageEvent where
  | map : PtrT → PtrT → Bool → PageEvent
  | unmap : PtrT → PageEvent

/-- The page an event is about. -/
def PageEvent.page : PageEvent → Nat
  | .map _ virtualAddress _ => pageNumber virtualAddress
  | .unmap vaddr => pageNumber vaddr

/-- The frame of the page after the event: a successful mapping's. -/
def PageEvent.frame : PageEvent → Option PtrT
  | .map physicalAddress _ true => some physicalAddress
  | .map _ _ false => none
  | .unmap _ => none

/-- Mappings of aligned frames below 2 GiB, and unmappings under a table. -/
inductive PageStep : PageEvent → Paging → Paging → Prop where
  | map
      {physicalAddress virtualAddress : PtrT}
      {paging : Paging}
      (aligned : PageAligned physicalAddress)
      (low : physicalAddress.toNat < 2 ^ 31) :
      PageStep
        (.map physicalAddress virtualAddress
          (vmmMapPage paging physicalAddress virtualAddress).1)
        paging
        (vmmMapPage paging physicalAddress virtualAddress).2
  | unmap
      {vaddr : PtrT}
      {paging : Paging}
      (present : paging.HasTable vaddr) :
      PageStep (.unmap vaddr) paging (vmmUnmapPage paging vaddr)

/-! ## Entries -/

/-- Numbers below 2 GiB have the highest bit clear. -/
theorem getLsbD_31_of_lt
    {word : BitVec 32}
    (low : word.toNat < 2 ^ 31) :
    word.getLsbD 31 = false :=
  Nat.testBit_lt_two_pow low

/-- The highest bit that a frame leaves behind. -/
theorem and_high_eq_zero
    {entry : BitVec 32}
    (clear : entry.getLsbD 31 = false) :
    entry &&& 0x80000000#32 = 0 := by
  have bit : 0x80000000#32 = BitVec.twoPow 32 31 := by decide
  rw [bit, BitVec.and_twoPow, clear]
  rfl

/-- The masks of the frame macros at the attribute bits in use. -/
theorem getLsbD_frameMask_zero :
    (~~~0x7FFFF000#32).getLsbD 0 = true := by
  decide

/-- A mapped entry is present. -/
theorem getLsbD_zero_mappedEntry
    (physicalAddress entry : BitVec 32) :
    (mappedEntry physicalAddress entry).getLsbD 0 = true := by
  have bit : ptePresent.getLsbD 0 = true := by decide
  rw [mappedEntry, vmmSetFrame, vmmSetAttribute, BitVec.getLsbD_or,
    BitVec.getLsbD_and, BitVec.getLsbD_or, bit, getLsbD_frameMask_zero]
  simp

/-- A mapped entry has the frame, if no high bit was left behind. -/
theorem vmmPagePhysicalAddress_mappedEntry
    {physicalAddress entry : BitVec 32}
    (aligned : PageAligned physicalAddress)
    (clear : entry.getLsbD 31 = false) :
    vmmPagePhysicalAddress (mappedEntry physicalAddress entry) =
      physicalAddress := by
  have bit : ptePresent.getLsbD 31 = false := by decide
  have stays :
      (vmmSetAttribute ptePresent entry).getLsbD 31 = false := by
    rw [vmmSetAttribute, BitVec.getLsbD_or, clear, bit]
    rfl
  rw [mappedEntry, vmmPagePhysicalAddress_vmmSetFrame,
    and_high_eq_zero stays]
  exact (BitVec.zero_or).trans aligned

/-- The highest bit of a mapped entry is the frame's or was there before. -/
theorem getLsbD_31_mappedEntry
    (physicalAddress entry : BitVec 32) :
    (mappedEntry physicalAddress entry).getLsbD 31 =
      (entry.getLsbD 31 || physicalAddress.getLsbD 31) := by
  have bit : ptePresent.getLsbD 31 = false := by decide
  have mask : (~~~0x7FFFF000#32).getLsbD 31 = true := by decide
  rw [mappedEntry, vmmSetFrame, vmmSetAttribute, BitVec.getLsbD_or,
    BitVec.getLsbD_and, BitVec.getLsbD_or, bit, mask]
  simp

/-- An unmapped entry is not present. -/
theorem getLsbD_zero_unmappedEntry
    (entry : BitVec 32) :
    (unmappedEntry entry).getLsbD 0 = false := by
  have bit : (~~~ptePresent).getLsbD 0 = false := by decide
  rw [unmappedEntry, vmmClearAttribute, BitVec.getLsbD_and, bit]
  simp

/-- Unmapping sets no high bit. -/
theorem getLsbD_31_unmappedEntry
    (entry : BitVec 32) :
    (unmappedEntry entry).getLsbD 31 = entry.getLsbD 31 := by
  have keeps : (~~~ptePresent).getLsbD 31 = true := by decide
  have mask : (~~~0x7FFFF000#32).getLsbD 31 = true := by decide
  rw [unmappedEntry, vmmClearAttribute, vmmSetFrame, BitVec.getLsbD_and,
    BitVec.getLsbD_or, BitVec.getLsbD_and, keeps, mask]
  simp

/-- Blocks of the first 4 MiB are page aligned. -/
theorem pageAligned_blockAddress
    {block : Nat}
    (small : block < 2 ^ 20) :
    PageAligned (blockAddress block) := by
  rw [pageAligned_iff, toNat_blockAddress small]
  exact Nat.mul_mod_left _ _

/-- An identity entry is what mapping a page to itself gives. -/
theorem identityEntry_eq
    (page : Nat) :
    identityEntry page =
      mappedEntry (blockAddress page) pteReadWrite := by
  have same :
      vmmSetAttribute pteReadWrite (vmmSetAttribute ptePresent 0) =
        vmmSetAttribute ptePresent pteReadWrite := by
    decide
  rw [identityEntry, same]
  rfl

/-- The walk of an absent page finds no frame. -/
theorem Paging.walk_of_not_hasTable
    {paging : Paging}
    {vaddr : AddrT}
    (missing : ¬paging.HasTable vaddr) :
    paging.walk vaddr = none := by
  have absent : ¬vmmTestAttribute ptePresent 0 = true := by decide
  rw [Paging.walk, PageStructures.pageEntry_of_not_hasTable missing,
    if_neg absent]

/-- The walk only depends on the entry of the page. -/
theorem Paging.walk_congr
    {first second : Paging}
    {vaddr : AddrT}
    (same : second.pageEntry vaddr = first.pageEntry vaddr) :
    second.walk vaddr = first.walk vaddr := by
  rw [Paging.walk, same]
  rfl

/-- The paging state represents an address space. -/
structure Represents (paging : Paging) (space : AddressSpace) : Prop where
  structures : PageStructures paging
  low : paging.pmm.FreeBelow4GiB
  highClear : ∀ vaddr, (paging.pageEntry vaddr).getLsbD 31 = false
  walk : ∀ vaddr, paging.walk vaddr = space (pageNumber vaddr)

/-- The walk after the initialization. -/
theorem IdentityMapped.walk
    {start : Paging}
    (identity : IdentityMapped start)
    (vaddr : AddrT) :
    start.walk vaddr = identitySpace (pageNumber vaddr) := by
  have small := pageNumber_lt vaddr
  have entryHigh : pteReadWrite.getLsbD 31 = false := by decide
  rw [Paging.walk, identity.entries, identitySpace]
  split
  · rw [identityEntry_eq, vmmTestAttribute_ptePresent,
      getLsbD_zero_mappedEntry,
      vmmPagePhysicalAddress_mappedEntry
        (pageAligned_blockAddress small) entryHigh]
    rfl
  · rfl

/-- The initialization represents the identity map of 1024 pages. -/
theorem IdentityMapped.represents
    {start : Paging}
    (identity : IdentityMapped start)
    (low : start.pmm.FreeBelow4GiB) :
    Represents start identitySpace := by
  have entryHigh : pteReadWrite.getLsbD 31 = false := by decide
  refine ⟨identity.structures, low, ?_, identity.walk⟩
  intro vaddr
  rw [identity.entries]
  split
  · rename_i low
    have value := toNat_blockAddress (pageNumber_lt vaddr)
    rw [identityEntry_eq, getLsbD_31_mappedEntry, entryHigh,
      getLsbD_31_of_lt (by omega)]
    rfl
  · rfl

namespace Represents

variable
  {paging : Paging}
  {space : AddressSpace}

/-- A mapping has one of its two outcomes. -/
theorem maps
    (represents : Represents paging space)
    (physicalAddress virtualAddress : PtrT) :
    PageStructures.MapsPage paging physicalAddress virtualAddress
      (vmmMapPage paging physicalAddress virtualAddress) :=
  represents.structures.vmmMapPage fun _ =>
    represents.low.findsBelow4GiB (by decide)

/-- Mapping overwrites the frame of its page, or leaves it absent. -/
theorem map
    (represents : Represents paging space)
    {physicalAddress virtualAddress : PtrT}
    (aligned : PageAligned physicalAddress)
    (low : physicalAddress.toNat < 2 ^ 31)
    {result : Bool × Paging}
    (maps :
      PageStructures.MapsPage paging physicalAddress virtualAddress
        result) :
    Represents result.2
      (Function.update space (pageNumber virtualAddress)
        (PageEvent.map physicalAddress virtualAddress result.1).frame) := by
  cases maps with
  | exhausted missing _ =>
      have already : space (pageNumber virtualAddress) = none := by
        rw [← represents.walk virtualAddress,
          Paging.walk_of_not_hasTable missing]
      have same :
          Function.update space (pageNumber virtualAddress)
              (PageEvent.map physicalAddress virtualAddress false).frame =
            space := by
        rw [PageEvent.frame, ← already, Function.update_eq_self]
      rw [same]
      exact represents
  | @mapped later _ structures pmm _ _ entries =>
      have clear := represents.highClear virtualAddress
      refine ⟨structures, ?_, ?_, ?_⟩
      · rw [pmm]
        split
        · exact represents.low
        · exact represents.low.allocate (by decide)
      · intro vaddr
        rw [entries]
        split
        · rw [getLsbD_31_mappedEntry, clear, getLsbD_31_of_lt low]
          rfl
        · exact represents.highClear vaddr
      · intro vaddr
        by_cases target : pageNumber vaddr = pageNumber virtualAddress
        · rw [target, Function.update_self, Paging.walk, entries,
            if_pos target, vmmTestAttribute_ptePresent,
            getLsbD_zero_mappedEntry,
            vmmPagePhysicalAddress_mappedEntry aligned clear]
          rfl
        · have same := entries vaddr
          rw [if_neg target] at same
          rw [Function.update_of_ne target, Paging.walk_congr same]
          exact represents.walk vaddr

/-- Unmapping removes the frame of its page. -/
theorem unmap
    (represents : Represents paging space)
    {vaddr : PtrT}
    (present : paging.HasTable vaddr) :
    Represents (vmmUnmapPage paging vaddr)
      (Function.update space (pageNumber vaddr) none) := by
  obtain ⟨structures, _, entries⟩ :=
    represents.structures.vmmUnmapPage present
  refine ⟨structures, represents.low, ?_, ?_⟩
  · intro other
    rw [entries]
    split
    · rw [getLsbD_31_unmappedEntry]
      exact represents.highClear vaddr
    · exact represents.highClear other
  · intro other
    by_cases target : pageNumber other = pageNumber vaddr
    · rw [target, Function.update_self, Paging.walk, entries,
        if_pos target, vmmTestAttribute_ptePresent,
        getLsbD_zero_unmappedEntry]
      rfl
    · have same := entries other
      rw [if_neg target] at same
      rw [Function.update_of_ne target, Paging.walk_congr same]
      exact represents.walk other

/-- Every step overwrites the frame of one page. -/
theorem step
    (represents : Represents paging space)
    {event : PageEvent}
    {after : Paging}
    (stepped : PageStep event paging after) :
    ∃ space',
      Overwrites PageEvent.page PageEvent.frame event space space' ∧
        Represents after space' := by
  cases stepped with
  | @map physicalAddress virtualAddress _ aligned low =>
      have maps := represents.maps physicalAddress virtualAddress
      exact ⟨_, rfl, represents.map aligned low maps⟩
  | unmap present =>
      exact ⟨_, rfl, represents.unmap present⟩

end Represents

/-- With free blocks below 4 GiB only, the initialization finds them there. -/
theorem initializesBelow4GiB_of_free
    {pmm : Pmm}
    (low : pmm.FreeBelow4GiB) :
    InitializesBelow4GiB pmm := by
  have dir := low.allocate (show 0 < (3 : SizeT).toNat by decide)
  have table := dir.allocate (show 0 < (1 : SizeT).toNat by decide)
  exact
    ⟨low.findsBelow4GiB (by decide), dir.findsBelow4GiB (by decide),
      table.findsBelow4GiB (by decide)⟩

/-- A successful initialization represents the identity map. -/
theorem initializeVirtualMemoryManager_represents
    {before start : Paging}
    (low : before.pmm.FreeBelow4GiB)
    (success :
      initializeVirtualMemoryManager before = (true, start)) :
    IdentityMapped start ∧ Represents start identitySpace := by
  have dir := low.allocate (show 0 < (3 : SizeT).toNat by decide)
  have table := dir.allocate (show 0 < (1 : SizeT).toNat by decide)
  have table3GB := table.allocate (show 0 < (1 : SizeT).toNat by decide)
  have identity :=
    initializeVirtualMemoryManager_identityMapped
      (initializesBelow4GiB_of_free low) success
  refine ⟨identity, identity.represents ?_⟩
  obtain ⟨_, _, _, rfl⟩ := initializeVirtualMemoryManager_success success
  exact table3GB

/-- A history of events on pages leaves a represented address space. -/
theorem pageRun_represents
    {before start final : Paging}
    (low : before.pmm.FreeBelow4GiB)
    (success :
      initializeVirtualMemoryManager before = (true, start))
    {events : List PageEvent}
    (run : Run PageStep start events final) :
    ∃ space,
      Run (Overwrites PageEvent.page PageEvent.frame) identitySpace events
          space ∧
        Represents final space :=
  run.simulate (Overwrites PageEvent.page PageEvent.frame) Represents
    (fun represents stepped => represents.step stepped)
    (initializeVirtualMemoryManager_represents low success).2

/-- What a history of events on pages has done to the address space. -/
structure Translates (events : List PageEvent) (paging : Paging) :
    Prop where
  walk :
    ∀ vaddr,
      paging.walk vaddr =
        lastValue PageEvent.page PageEvent.frame identitySpace events
          (pageNumber vaddr)
  others :
    ∀ {event after},
      PageStep event paging after →
      ∀ vaddr,
        pageNumber vaddr ≠ event.page →
        after.walk vaddr = paging.walk vaddr
  refused :
    ∀ physicalAddress virtualAddress,
      (vmmMapPage paging physicalAddress virtualAddress).1 = false ↔
        ¬paging.HasTable virtualAddress ∧
          (pmmAllocateBlocks paging.pmm 1).1 = 0
  unchanged :
    ∀ physicalAddress virtualAddress,
      (vmmMapPage paging physicalAddress virtualAddress).1 = false →
      (vmmMapPage paging physicalAddress virtualAddress).2 = paging

/--
After the initialization, every history of mappings and unmappings leaves
each page with the frame of the last event on it.
-/
theorem pageRun_translates
    {before start final : Paging}
    (small : before.pmm.maxMemoryBlocks ≤ 2 ^ 19)
    (success :
      initializeVirtualMemoryManager before = (true, start))
    {events : List PageEvent}
    (run : Run PageStep start events final) :
    Translates events final := by
  have low : before.pmm.FreeBelow4GiB :=
    Pmm.freeBelow4GiB_of_le (by omega)
  obtain ⟨space, spaceRun, represents⟩ :=
    pageRun_represents low success run
  have last := Run.eq_lastValue PageEvent.page PageEvent.frame spaceRun
  refine ⟨?_, ?_, ?_, ?_⟩
  · intro vaddr
    rw [represents.walk, last]
  · intro event after stepped vaddr other
    obtain ⟨space', overwritten, after⟩ := represents.step stepped
    rw [after.walk, represents.walk, overwritten,
      Function.update_of_ne other]
  · intro physicalAddress virtualAddress
    exact (represents.maps physicalAddress virtualAddress).fails_iff
  · intro physicalAddress virtualAddress
    exact (represents.maps physicalAddress virtualAddress).unchanged

/-- Zeroed memory under a manager whose first eight blocks are reserved. -/
def bootPaging : Paging where
  memory := fun _ => 0
  pmm := sixteenBlocks
  vmmCurrentDirectory := 0

/-- The state that initialization leaves on zeroed memory. -/
def bootedPaging : Paging :=
  (initializeVirtualMemoryManager bootPaging).2

/-- Initialization succeeds on zeroed memory. -/
theorem bootPaging_success :
    initializeVirtualMemoryManager bootPaging = (true, bootedPaging) := by
  have first : (initializeVirtualMemoryManager bootPaging).1 = true := by
    decide +kernel
  rw [← first]
  rfl

/-- The booted manager has blocks below 4 GiB only. -/
theorem bootedPaging_managed :
    bootedPaging.pmm.maxMemoryBlocks ≤ 2 ^ 20 := by
  rw [initializeVirtualMemoryManager_maxMemoryBlocks bootPaging_success]
  decide

/-- The free blocks of the small manager lie below 4 GiB. -/
theorem bootPaging_low : bootPaging.pmm.FreeBelow4GiB :=
  Pmm.freeBelow4GiB_of_le (by decide)

/-- The state after the initialization represents the identity mapping. -/
theorem bootedPaging_represents :
    IdentityMapped bootedPaging ∧
      Represents bootedPaging identitySpace :=
  initializeVirtualMemoryManager_represents bootPaging_low
    bootPaging_success

/-- Page 6 is unmapped and page 5 remapped after the initialization. -/
theorem pageRun_translates_booted :
    Translates
      [.unmap 0x6000,
        .map 0x7000 0x5000
          (vmmMapPage (vmmUnmapPage bootedPaging 0x6000)
            0x7000 0x5000).1]
      (vmmMapPage (vmmUnmapPage bootedPaging 0x6000)
        0x7000 0x5000).2 := by
  have present : bootedPaging.HasTable 0x6000 :=
    (bootedPaging_represents.1.hasTable 0x6000).mpr (by decide)
  have aligned : PageAligned 0x7000 :=
    (pageAligned_iff 0x7000).mpr (by decide)
  exact pageRun_translates (by decide) bootPaging_success
    ((Run.nil.snoc (PageStep.unmap present)).snoc
      (PageStep.map aligned (by decide)))

end HobbyOS
