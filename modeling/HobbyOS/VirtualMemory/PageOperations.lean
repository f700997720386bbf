import HobbyOS.VirtualMemory.PageStructures

namespace HobbyOS

open Library

/-!
# Operations on pages

What one call of `vmm_allocate_page`, `vmm_map_page` and `vmm_unmap_page`
does to the map from pages to entry words.  New tables come from the block
manager, so they are distinct from all page structures in use.
-/

/-- A free block that is handed out becomes an owned page. -/
theorem ownedPage_blockAddress
    {pmm : Pmm}
    {block : Nat}
    (notZero : block ≠ 0)
    (small : block < 2 ^ 20)
    (reserved : pmm.Reserved block) :
    OwnedPage pmm (blockAddress block) := by
  have value := toNat_blockAddress small
  refine ⟨?_, ?_, ?_⟩
  · rw [pageAligned_iff, value]
    exact Nat.mul_mod_left _ _
  · intro null
    rw [null] at value
    have product : block * 4096 = 0 := value.symm
    omega
  · rw [value, Nat.mul_div_cancel _ (by omega)]
    exact reserved

/-- An owned page is not the page of a free block. -/
theorem OwnedPage.ne_blockAddress
    {pmm : Pmm}
    {address : PtrT}
    (page : OwnedPage pmm address)
    {block : Nat}
    (small : block < 2 ^ 20)
    (free : ¬pmm.Reserved block) :
    address ≠ blockAddress block := by
  rintro rfl
  have reserved := page.reserved
  rw [toNat_blockAddress small, Nat.mul_div_cancel _ (by omega)]
    at reserved
  exact free reserved

/-- What an allocation does when the run it finds is below 4 GiB. -/
inductive TakesBlocks (pmm : Pmm) (size : SizeT) : PtrT × Pmm → Prop where
  | refused :
      TakesBlocks pmm size (0, pmm)
  | granted
      {first : Nat}
      (notZero : first ≠ 0)
      (small : first < 2 ^ 20)
      (scanned : first + size.toNat ≤ pmm.scannedBlocks)
      (free :
        ∀ block,
          first ≤ block →
          block < first + size.toNat →
          ¬pmm.Reserved block) :
      TakesBlocks pmm size (blockAddress first, pmm.reserve first size)

/-- Allocations below 4 GiB return the address of the run. -/
theorem Pmm.FindsBelow4GiB.takesBlocks
    {pmm : Pmm}
    {size : SizeT}
    (below : pmm.FindsBelow4GiB size)
    (positive : 0 < size.toNat) :
    TakesBlocks pmm size (pmmAllocateBlocks pmm size) := by
  have allocates := pmmAllocateBlocks_allocates pmm positive
  revert allocates
  generalize pmmAllocateBlocks pmm size = result
  intro allocates
  cases allocates with
  | refused =>
      exact .refused
  | @granted first notZero scanned free found =>
      have last := below _ found
      have small : first < 2 ^ 20 := by omega
      have exact32 : first % 2 ^ 32 = first :=
        Nat.mod_eq_of_lt (by omega)
      rw [exact32]
      rw [exact32] at notZero
      exact .granted notZero small scanned free

/-- Creating a table does not change the number of managed blocks. -/
@[simp] theorem createTable_maxMemoryBlocks
    (paging : Paging)
    (entry : PtrT) :
    (createTable paging entry).2.pmm.maxMemoryBlocks =
      paging.pmm.maxMemoryBlocks := by
  have managed := pmmAllocateBlocks_maxMemoryBlocks paging.pmm 1
  unfold createTable
  split
  rename_i allocation
  rw [allocation] at managed
  split
  · exact managed
  · exact managed

/-- Mapping a page does not change the number of managed blocks. -/
@[simp] theorem vmmMapPage_maxMemoryBlocks
    (paging : Paging)
    (physicalAddress virtualAddress : PtrT) :
    (vmmMapPage paging physicalAddress virtualAddress).2.pmm.maxMemoryBlocks =
      paging.pmm.maxMemoryBlocks := by
  have managed :=
    createTable_maxMemoryBlocks paging
      (paging.directoryEntryAddress virtualAddress)
  unfold vmmMapPage
  dsimp only
  split
  · rfl
  · split
    · exact managed
    · exact managed

/-- `vmm_map_page` of a page whose table is present. -/
theorem vmmMapPage_of_hasTable
    {paging : Paging}
    {virtualAddress : PtrT}
    (present : paging.HasTable virtualAddress)
    (physicalAddress : PtrT) :
    vmmMapPage paging physicalAddress virtualAddress =
      (true, writePage paging physicalAddress virtualAddress) := by
  have test :
      vmmTestAttribute ptePresent
          (readWord paging.memory
            (paging.directoryEntryAddress virtualAddress)) =
        true :=
    present
  simp only [vmmMapPage, test, ↓reduceIte]

/-- `vmm_map_page` of a page whose table is missing. -/
theorem vmmMapPage_of_not_hasTable
    {paging : Paging}
    {virtualAddress : PtrT}
    (missing : ¬paging.HasTable virtualAddress)
    (physicalAddress : PtrT) :
    vmmMapPage paging physicalAddress virtualAddress =
      let result :=
        createTable paging (paging.directoryEntryAddress virtualAddress)
      if result.1 then
        (true, writePage result.2 physicalAddress virtualAddress)
      else
        (false, result.2) := by
  have test :
      ¬vmmTestAttribute ptePresent
          (readWord paging.memory
            (paging.directoryEntryAddress virtualAddress)) =
        true :=
    missing
  simp only [vmmMapPage, test, Bool.false_eq_true, ↓reduceIte]

/-- The word that `vmm_map_page` gives an entry. -/
def mappedEntry (physicalAddress entry : BitVec 32) : BitVec 32 :=
  vmmSetFrame physicalAddress (vmmSetAttribute ptePresent entry)

/-- The word that `vmm_unmap_page` gives an entry. -/
def unmappedEntry (entry : BitVec 32) : BitVec 32 :=
  vmmClearAttribute ptePresent (vmmSetFrame 0 entry)

/-- The word that a successful `vmm_allocate_page` gives an entry. -/
def allocatedEntry (block entry : BitVec 32) : BitVec 32 :=
  vmmSetAttribute ptePresent (vmmSetFrame block entry)

/-- `vmm_allocate_page` writes the entry if it was given a block. -/
theorem vmmAllocatePage_eq
    {paging : Paging}
    {block : PtrT}
    {pmm : Pmm}
    (allocation : pmmAllocateBlocks paging.pmm 1 = (block, pmm))
    (page : PtrT) :
    vmmAllocatePage paging page =
      (block,
        { paging with
          memory :=
            if block = 0 then paging.memory
            else
              writeWord paging.memory page
                (allocatedEntry block (readWord paging.memory page))
          pmm := pmm }) := by
  rw [vmmAllocatePage, allocation]
  dsimp only
  split
  · rfl
  · rw [modifyWord_modifyWord_self]
    rfl

/-- The word of a directory entry that has just been given a table. -/
def tableEntry (table : PtrT) : BitVec 32 :=
  vmmSetFrame table
    (vmmSetAttribute pteReadWrite (vmmSetAttribute ptePresent pteReadWrite))

/-- A new table's directory entry is present. -/
theorem present_tableEntry (table : PtrT) :
    vmmTestAttribute ptePresent (tableEntry table) = true := by
  have bit :
      (vmmSetAttribute pteReadWrite
          (vmmSetAttribute ptePresent pteReadWrite) &&&
            ~~~0x7FFFF000#32).getLsbD 0 =
        true := by
    decide
  rw [vmmTestAttribute_ptePresent, tableEntry, vmmSetFrame,
    BitVec.getLsbD_or, bit, Bool.true_or]

/-- A new table's directory entry points to the table. -/
theorem vmmPagePhysicalAddress_tableEntry
    {table : PtrT}
    (aligned : PageAligned table) :
    vmmPagePhysicalAddress (tableEntry table) = table := by
  have high :
      vmmSetAttribute pteReadWrite
          (vmmSetAttribute ptePresent pteReadWrite) &&&
            0x80000000#32 =
        0 := by
    decide
  rw [tableEntry, vmmPagePhysicalAddress_vmmSetFrame, high]
  exact (BitVec.zero_or).trans aligned

namespace PageStructures

variable {paging : Paging}

/-- Without a table, the address of a page's entry is in page 0. -/
theorem tableOf_of_not_hasTable
    (structures : PageStructures paging)
    {vaddr : AddrT}
    (missing : ¬paging.HasTable vaddr) :
    paging.tableOf vaddr = 0 := by
  rw [Paging.tableOf, structures.absent vaddr missing]
  decide

/-- What creating the missing table of `target` can do. -/
inductive CreatesTable
    (paging : Paging)
    (target : AddrT) :
    Bool × Paging → Prop where
  | exhausted
      (refused : (pmmAllocateBlocks paging.pmm 1).1 = 0) :
      CreatesTable paging target (false, paging)
  | created
      {later : Paging}
      (granted : (pmmAllocateBlocks paging.pmm 1).1 ≠ 0)
      (structures : PageStructures later)
      (pmm : later.pmm = (pmmAllocateBlocks paging.pmm 1).2)
      (directory :
        later.vmmCurrentDirectory = paging.vmmCurrentDirectory)
      (hasTable :
        ∀ vaddr,
          later.HasTable vaddr ↔
            paging.HasTable vaddr ∨
              vmmPdIndex vaddr = vmmPdIndex target)
      (tableOf :
        later.tableOf target = (pmmAllocateBlocks paging.pmm 1).1)
      (entries :
        ∀ vaddr, later.pageEntry vaddr = paging.pageEntry vaddr) :
      CreatesTable paging target (true, later)

/-- The state after a fresh block has become the table of `target`. -/
structure NewTable
    (paging later : Paging)
    (target : AddrT)
    (block : Nat) :
    Prop where
  notZero : block ≠ 0
  small : block < 2 ^ 20
  free : ¬paging.pmm.Reserved block
  pmm : later.pmm = paging.pmm.reserve block 1
  directory : later.vmmCurrentDirectory = paging.vmmCurrentDirectory
  memory :
    later.memory =
      writeWord (memset paging.memory (blockAddress block) 0 4096)
        (paging.directoryEntryAddress target)
        (tableEntry (blockAddress block))

namespace NewTable

variable
  {later : Paging}
  {target : AddrT}
  {block : Nat}

/-- The new table is an owned page. -/
theorem ownedPage
    (new : NewTable paging later target block) :
    OwnedPage later.pmm (blockAddress block) := by
  refine ownedPage_blockAddress new.notZero new.small ?_
  rw [new.pmm, Pmm.reserved_reserve]
  exact Or.inl ⟨Nat.le_refl _, Nat.lt_succ_self _⟩

/-- Owned pages stay owned. -/
theorem ownedPage_of_ownedPage
    (new : NewTable paging later target block)
    {address : PtrT}
    (page : OwnedPage paging.pmm address) :
    OwnedPage later.pmm address := by
  refine ⟨page.aligned, page.notNull, ?_⟩
  rw [new.pmm, Pmm.reserved_reserve]
  exact Or.inr page.reserved

/-- Only the directory entry of the target changes. -/
theorem directoryEntry
    (new : NewTable paging later target block)
    (structures : PageStructures paging)
    (vaddr : AddrT) :
    later.directoryEntry vaddr =
      if vmmPdIndex vaddr = vmmPdIndex target then
        tableEntry (blockAddress block)
      else
        paging.directoryEntry vaddr := by
  have fresh := structures.directory.ne_blockAddress new.small new.free
  rw [Paging.directoryEntry, Paging.directoryEntryAddress, new.directory,
    new.memory, Paging.directoryEntryAddress,
    readWord_writeWord_entry _ structures.directory.aligned
      structures.directory.aligned (vmmPdIndex_lt target)
      (vmmPdIndex_lt vaddr),
    readWord_memset_other _ new.ownedPage.aligned
      structures.directory.aligned fresh.symm (Nat.le_refl _)
      (vmmPdIndex_lt vaddr)]
  simp only [true_and, eq_comm]
  rfl

/-- Words of a table other than the directory, after the creation. -/
theorem readWord_table
    (new : NewTable paging later target block)
    (structures : PageStructures paging)
    {table : PtrT}
    (aligned : PageAligned table)
    (notDirectory : table ≠ paging.vmmCurrentDirectory)
    {index : BitVec 32}
    (small : index.toNat < 1024) :
    readWord later.memory (entryAddress table index) =
      readWord (memset paging.memory (blockAddress block) 0 4096)
        (entryAddress table index) := by
  rw [new.memory, Paging.directoryEntryAddress,
    readWord_writeWord_entry _ structures.directory.aligned aligned
      (vmmPdIndex_lt target) small,
    if_neg (fun same => notDirectory same.1.symm)]

/-- The target has a table now, and nothing else changed. -/
theorem hasTable_iff
    (new : NewTable paging later target block)
    (structures : PageStructures paging)
    (vaddr : AddrT) :
    later.HasTable vaddr ↔
      paging.HasTable vaddr ∨ vmmPdIndex vaddr = vmmPdIndex target := by
  rw [Paging.HasTable, new.directoryEntry structures]
  split
  · rename_i same
    simp [same, present_tableEntry]
  · rename_i other
    simp [other, Paging.HasTable]

/-- The table of an address after the creation. -/
theorem tableOf
    (new : NewTable paging later target block)
    (structures : PageStructures paging)
    (vaddr : AddrT) :
    later.tableOf vaddr =
      if vmmPdIndex vaddr = vmmPdIndex target then blockAddress block
      else paging.tableOf vaddr := by
  rw [Paging.tableOf, new.directoryEntry structures]
  split
  · exact vmmPagePhysicalAddress_tableEntry new.ownedPage.aligned
  · rfl

/-- The invariant holds after the creation. -/
theorem pageStructures
    (new : NewTable paging later target block)
    (structures : PageStructures paging) :
    PageStructures later := by
  have notDirectory :=
    structures.directory.ne_blockAddress new.small new.free
  have oldTable
      {vaddr : AddrT}
      (present : later.HasTable vaddr)
      (other : vmmPdIndex vaddr ≠ vmmPdIndex target) :
      paging.HasTable vaddr :=
    ((new.hasTable_iff structures vaddr).mp present).resolve_right other
  refine ⟨?_, ?_, ?_, ?_⟩
  · rw [new.directory]
    exact new.ownedPage_of_ownedPage structures.directory
  · intro vaddr missing
    rw [new.hasTable_iff structures, not_or] at missing
    rw [new.directoryEntry structures, if_neg missing.2]
    exact structures.absent vaddr missing.1
  · intro vaddr present
    rw [new.tableOf structures, new.directory]
    split
    · exact ⟨new.ownedPage, notDirectory.symm⟩
    · rename_i other
      have table := structures.table vaddr (oldTable present other)
      exact ⟨new.ownedPage_of_ownedPage table.1, table.2⟩
  · intro first second firstPresent secondPresent same
    rw [new.tableOf structures, new.tableOf structures] at same
    -- A table of an untouched entry is not the fresh block.
    have notFresh
        {vaddr : AddrT}
        (present : later.HasTable vaddr)
        (other : vmmPdIndex vaddr ≠ vmmPdIndex target) :
        paging.tableOf vaddr ≠ blockAddress block :=
      (structures.table vaddr
        (oldTable present other)).1.ne_blockAddress new.small new.free
    split at same
    · rename_i firstTarget
      split at same
      · rename_i secondTarget
        rw [firstTarget, secondTarget]
      · rename_i secondOther
        exact (notFresh secondPresent secondOther same.symm).elim
    · rename_i firstOther
      split at same
      · exact (notFresh firstPresent firstOther same).elim
      · rename_i secondOther
        exact structures.distinct first second
          (oldTable firstPresent firstOther)
          (oldTable secondPresent secondOther) same

/-- Every page keeps its entry, because the new table is all zero. -/
theorem pageEntry
    (new : NewTable paging later target block)
    (structures : PageStructures paging)
    (missing : ¬paging.HasTable target)
    (vaddr : AddrT) :
    later.pageEntry vaddr = paging.pageEntry vaddr := by
  have notDirectory :=
    structures.directory.ne_blockAddress new.small new.free
  have aligned := new.ownedPage.aligned
  by_cases hasTable : paging.HasTable vaddr
  · have other : vmmPdIndex vaddr ≠ vmmPdIndex target := by
      intro same
      apply missing
      rw [Paging.HasTable, Paging.directoryEntry,
        Paging.directoryEntryAddress, ← same]
      exact hasTable
    have table := structures.table vaddr hasTable
    rw [pageEntry_of_hasTable
        ((new.hasTable_iff structures vaddr).mpr (Or.inl hasTable)),
      pageEntry_of_hasTable hasTable, new.tableOf structures,
      if_neg other,
      new.readWord_table structures table.1.aligned table.2
        (vmmPtIndex_lt vaddr),
      readWord_memset_other _ aligned table.1.aligned
        (table.1.ne_blockAddress new.small new.free).symm
        (Nat.le_refl _) (vmmPtIndex_lt vaddr)]
  · rw [pageEntry_of_not_hasTable hasTable]
    by_cases same : vmmPdIndex vaddr = vmmPdIndex target
    · rw [pageEntry_of_hasTable
          ((new.hasTable_iff structures vaddr).mpr (Or.inr same)),
        new.tableOf structures, if_pos same,
        new.readWord_table structures aligned notDirectory.symm
          (vmmPtIndex_lt vaddr),
        readWord_memset_entry _ aligned (vmmPtIndex_lt vaddr)]
    · refine pageEntry_of_not_hasTable ?_
      rw [new.hasTable_iff structures, not_or]
      exact ⟨hasTable, same⟩

end NewTable

/-- Creating a table takes a block, or fails and changes nothing. -/
theorem createTable
    (structures : PageStructures paging)
    (below : paging.pmm.FindsBelow4GiB 1)
    {target : AddrT}
    (missing : ¬paging.HasTable target) :
    CreatesTable paging target
      (HobbyOS.createTable paging
        (paging.directoryEntryAddress target)) := by
  have positive : 0 < (1 : SizeT).toNat := by decide
  have takes := below.takesBlocks positive
  unfold HobbyOS.createTable
  generalize allocation : pmmAllocateBlocks paging.pmm 1 = result at takes
  cases takes with
  | refused =>
      exact .exhausted (by rw [allocation])
  | @granted block notZero small scanned free =>
      have fresh : ¬paging.pmm.Reserved block :=
        free block (Nat.le_refl _) (Nat.lt_succ_self _)
      have page :
          OwnedPage (paging.pmm.reserve block 1) (blockAddress block) := by
        refine ownedPage_blockAddress notZero small ?_
        rw [Pmm.reserved_reserve]
        exact Or.inl ⟨Nat.le_refl _, Nat.lt_succ_self _⟩
      have oldEntry :
          readWord (memset paging.memory (blockAddress block) 0 4096)
              (paging.directoryEntryAddress target) =
            pteReadWrite := by
        rw [Paging.directoryEntryAddress,
          readWord_memset_other _ page.aligned
            structures.directory.aligned
            (structures.directory.ne_blockAddress small fresh).symm
            (Nat.le_refl _) (vmmPdIndex_lt target)]
        exact structures.absent target missing
      simp only [page.notNull, ↓reduceIte, modifyWord_modifyWord_self]
      have new :
          NewTable paging
            { paging with
              memory :=
                modifyWord
                  (memset paging.memory (blockAddress block) 0 4096)
                  (paging.directoryEntryAddress target)
                  (fun word =>
                    vmmSetFrame (blockAddress block)
                      (vmmSetAttribute pteReadWrite
                        (vmmSetAttribute ptePresent word)))
              pmm := paging.pmm.reserve block 1 }
            target block := by
        refine ⟨notZero, small, fresh, rfl, rfl, ?_⟩
        rw [modifyWord, oldEntry]
        rfl
      exact .created (by rw [allocation]; exact page.notNull)
        (new.pageStructures structures) (by rw [allocation]) rfl
        (new.hasTable_iff structures)
        (by rw [new.tableOf structures, if_pos rfl, allocation])
        (new.pageEntry structures missing)

/-- What mapping a page can do. -/
inductive MapsPage
    (paging : Paging)
    (physicalAddress virtualAddress : PtrT) :
    Bool × Paging → Prop where
  | exhausted
      (missing : ¬paging.HasTable virtualAddress)
      (refused : (pmmAllocateBlocks paging.pmm 1).1 = 0) :
      MapsPage paging physicalAddress virtualAddress (false, paging)
  | mapped
      {later : Paging}
      (possible :
        paging.HasTable virtualAddress ∨
          (pmmAllocateBlocks paging.pmm 1).1 ≠ 0)
      (structures : PageStructures later)
      (pmm :
        later.pmm =
          if paging.HasTable virtualAddress then paging.pmm
          else (pmmAllocateBlocks paging.pmm 1).2)
      (directory :
        later.vmmCurrentDirectory = paging.vmmCurrentDirectory)
      (hasTable :
        ∀ vaddr,
          later.HasTable vaddr ↔
            paging.HasTable vaddr ∨
              vmmPdIndex vaddr = vmmPdIndex virtualAddress)
      (entries :
        ∀ vaddr,
          later.pageEntry vaddr =
            if pageNumber vaddr = pageNumber virtualAddress then
              mappedEntry physicalAddress
                (paging.pageEntry virtualAddress)
            else paging.pageEntry vaddr) :
      MapsPage paging physicalAddress virtualAddress (true, later)

/-- A mapping fails exactly without a table and without a block for one. -/
theorem MapsPage.fails_iff
    {physicalAddress virtualAddress : PtrT}
    {result : Bool × Paging}
    (maps : MapsPage paging physicalAddress virtualAddress result) :
    result.1 = false ↔
      ¬paging.HasTable virtualAddress ∧
        (pmmAllocateBlocks paging.pmm 1).1 = 0 := by
  cases maps with
  | exhausted missing refused =>
      exact iff_of_true rfl ⟨missing, refused⟩
  | mapped possible =>
      refine iff_of_false (by simp) ?_
      rintro ⟨missing, refused⟩
      rcases possible with present | granted
      · exact missing present
      · exact granted refused

/-- A mapping that fails changes nothing. -/
theorem MapsPage.unchanged
    {physicalAddress virtualAddress : PtrT}
    {result : Bool × Paging}
    (maps : MapsPage paging physicalAddress virtualAddress result)
    (fails : result.1 = false) :
    result.2 = paging := by
  cases maps with
  | exhausted =>
      rfl
  | mapped =>
      cases fails

/-- Writing a page's entry, given its table. -/
theorem writePage
    (structures : PageStructures paging)
    {virtualAddress : PtrT}
    (present : paging.HasTable virtualAddress)
    (physicalAddress : PtrT) :
    let later := HobbyOS.writePage paging physicalAddress virtualAddress
    PageStructures later ∧
      (∀ vaddr, later.HasTable vaddr ↔ paging.HasTable vaddr) ∧
      ∀ vaddr,
        later.pageEntry vaddr =
          if pageNumber vaddr = pageNumber virtualAddress then
            mappedEntry physicalAddress (paging.pageEntry virtualAddress)
          else paging.pageEntry vaddr := by
  intro later
  have written :=
    structures.writeEntry present
      (mappedEntry physicalAddress (paging.pageEntry virtualAddress))
  have shape :
      later =
        { paging with
          memory :=
            writeWord paging.memory (vmmGetPage paging virtualAddress)
              (mappedEntry physicalAddress
                (paging.pageEntry virtualAddress)) } := by
    show HobbyOS.writePage paging physicalAddress virtualAddress = _
    rw [HobbyOS.writePage]
    simp only [modifyWord_modifyWord_self]
    rw [modifyWord, pageEntry_of_hasTable present]
    rfl
  rw [shape]
  refine ⟨written.1, ?_, written.2.2⟩
  intro vaddr
  rw [Paging.HasTable, written.2.1, Paging.HasTable]

/-- `vmm_map_page` maps its page, or fails and changes nothing. -/
theorem vmmMapPage
    (structures : PageStructures paging)
    {physicalAddress virtualAddress : PtrT}
    (below :
      ¬paging.HasTable virtualAddress → paging.pmm.FindsBelow4GiB 1) :
    MapsPage paging physicalAddress virtualAddress
      (HobbyOS.vmmMapPage paging physicalAddress virtualAddress) := by
  by_cases present : paging.HasTable virtualAddress
  · have written := structures.writePage present physicalAddress
    rw [vmmMapPage_of_hasTable present]
    refine .mapped (Or.inl present) written.1 (by rw [if_pos present]; rfl)
      rfl ?_ written.2.2
    intro vaddr
    rw [written.2.1]
    constructor
    · exact Or.inl
    · rintro (held | same)
      · exact held
      · rw [Paging.HasTable, Paging.directoryEntry,
          Paging.directoryEntryAddress, same]
        exact present
  · have creates := structures.createTable (below present) present
    rw [vmmMapPage_of_not_hasTable present]
    revert creates
    generalize
      HobbyOS.createTable paging
        (paging.directoryEntryAddress virtualAddress) = result
    intro creates
    cases creates with
    | exhausted refused =>
        exact .exhausted present refused
    | @created later granted laterStructures pmm directory hasTable _
        entries =>
        have hasTarget : later.HasTable virtualAddress :=
          (hasTable virtualAddress).mpr (Or.inr rfl)
        have written :=
          laterStructures.writePage hasTarget physicalAddress
        simp only [↓reduceIte]
        refine .mapped (Or.inr granted) written.1
          (by rw [if_neg present]; exact pmm) directory ?_ ?_
        · intro vaddr
          rw [written.2.1, hasTable]
        · intro vaddr
          rw [written.2.2, entries, entries]

/-- `vmm_unmap_page` of a page with a table clears its entry. -/
theorem vmmUnmapPage
    (structures : PageStructures paging)
    {vaddr : PtrT}
    (present : paging.HasTable vaddr) :
    let later := HobbyOS.vmmUnmapPage paging vaddr
    PageStructures later ∧
      (∀ other, later.HasTable other ↔ paging.HasTable other) ∧
      ∀ other,
        later.pageEntry other =
          if pageNumber other = pageNumber vaddr then
            unmappedEntry (paging.pageEntry vaddr)
          else paging.pageEntry other := by
  intro later
  have written :=
    structures.writeEntry present
      (unmappedEntry (paging.pageEntry vaddr))
  have shape :
      later =
        { paging with
          memory :=
            writeWord paging.memory (vmmGetPage paging vaddr)
              (unmappedEntry (paging.pageEntry vaddr)) } := by
    show HobbyOS.vmmUnmapPage paging vaddr = _
    rw [HobbyOS.vmmUnmapPage]
    simp only [modifyWord_modifyWord_self]
    rw [modifyWord, pageEntry_of_hasTable present]
    rfl
  rw [shape]
  refine ⟨written.1, ?_, written.2.2⟩
  intro other
  rw [Paging.HasTable, written.2.1, Paging.HasTable]

end PageStructures

end HobbyOS
