import HobbyOS.VirtualMemory.AddressSpace

namespace HobbyOS

open Library

/-!
# Access to page tables under paging

Once paging is on, the pointers through which `vmm_map_page` reaches the
directory and the tables are virtual addresses.  They work as long as the
current directory translates the pages of these structures to themselves,
which the initialization provides for the first 4 MiB only and which earlier
mappings can undo.
-/

/-- One access to a page, in the state in which it takes place. -/
structure Access where
  moment : Paging
  page : PtrT

/-- The access goes to the physical page of the same address. -/
def Access.Reached (access : Access) : Prop :=
  access.moment.walk access.page = some access.page

/-- Accesses of the end of `vmm_map_page`, which writes the page's entry. -/
def writePageAccesses
    (paging : Paging)
    (virtualAddress : PtrT) :
    List Access :=
  let table := paging.tableOf virtualAddress
  let present :=
    { paging with
      memory :=
        modifyWord paging.memory (vmmGetPage paging virtualAddress)
          (vmmSetAttribute ptePresent) }
  [⟨paging, paging.vmmCurrentDirectory⟩, ⟨paging, table⟩,
    ⟨present, table⟩]

/--
Accesses of the branch of `vmm_map_page` that creates a page table: `memset`
clears its bytes one by one, then the directory entry is written three times.
-/
def createTableAccesses
    (paging : Paging)
    (entry : PtrT) :
    List Access :=
  let (table, pmm) := pmmAllocateBlocks paging.pmm 1
  if table = 0 then
    []
  else
    let clearing (count : Nat) : Paging :=
      { paging with
        memory := memset paging.memory table 0 (BitVec.ofNat 32 count)
        pmm := pmm }
    let cleared := clearing 4096
    let present :=
      { cleared with
        memory :=
          modifyWord cleared.memory entry (vmmSetAttribute ptePresent) }
    let writable :=
      { present with
        memory :=
          modifyWord present.memory entry
            (vmmSetAttribute pteReadWrite) }
    ((List.range 4096).map fun count => ⟨clearing count, table⟩) ++
      [⟨cleared, paging.vmmCurrentDirectory⟩,
        ⟨present, paging.vmmCurrentDirectory⟩,
        ⟨writable, paging.vmmCurrentDirectory⟩]

/-- Accesses of `vmm_map_page` to the directory and the page tables. -/
def vmmMapPageAccesses
    (paging : Paging)
    (virtualAddress : PtrT) :
    List Access :=
  let entry := paging.directoryEntryAddress virtualAddress
  ⟨paging, paging.vmmCurrentDirectory⟩ ::
    if vmmTestAttribute ptePresent (readWord paging.memory entry) then
      writePageAccesses paging virtualAddress
    else
      let (created, later) := createTable paging entry
      createTableAccesses paging entry ++
        if created then writePageAccesses later virtualAddress else []

/-- The pages that a call of `vmm_map_page` uses are mapped to themselves. -/
structure StructuresMapped
    (space : AddressSpace)
    (paging : Paging)
    (virtualAddress : PtrT) :
    Prop where
  directory :
    space (pageNumber paging.vmmCurrentDirectory) =
      some paging.vmmCurrentDirectory
  table :
    paging.HasTable virtualAddress →
    space (pageNumber (paging.tableOf virtualAddress)) =
      some (paging.tableOf virtualAddress)
  fresh :
    ¬paging.HasTable virtualAddress →
    ∀ block,
      paging.pmm.NextBlock block →
      space block = some (blockAddress block)

/-- The page of a block has the block's number. -/
theorem pageNumber_blockAddress
    {block : Nat}
    (small : block < 2 ^ 20) :
    pageNumber (blockAddress block) = block := by
  rw [pageNumber, toNat_blockAddress small,
    Nat.mul_div_cancel _ (by omega)]

/-! ## Translations that an update leaves alone -/

/-- An entry whose present bit was set is present. -/
theorem vmmTestAttribute_setPresent (entry : BitVec 32) :
    vmmTestAttribute ptePresent (vmmSetAttribute ptePresent entry) =
      true := by
  have bit : ptePresent.getLsbD 0 = true := by decide
  rw [vmmTestAttribute_ptePresent, vmmSetAttribute, BitVec.getLsbD_or,
    bit, Bool.or_true]

/-- Setting the present bit keeps the frame. -/
theorem vmmPagePhysicalAddress_setPresent (entry : BitVec 32) :
    vmmPagePhysicalAddress (vmmSetAttribute ptePresent entry) =
      vmmPagePhysicalAddress entry := by
  have attributes : ptePresent &&& ~~~0xFFF#32 = 0 := by decide
  rw [vmmPagePhysicalAddress, vmmSetAttribute,
    BitVec.and_or_distrib_right, attributes]
  exact BitVec.or_zero

/-- A walk finds a frame when the entry is present. -/
theorem Paging.walk_eq_some
    {paging : Paging}
    {vaddr : AddrT}
    {frame : PtrT} :
    paging.walk vaddr = some frame ↔
      vmmTestAttribute ptePresent (paging.pageEntry vaddr) = true ∧
        vmmPagePhysicalAddress (paging.pageEntry vaddr) = frame := by
  simp [Paging.walk]

/-- The address of a directory entry depends on the directory only. -/
theorem Paging.directoryEntryAddress_congr
    {first second : Paging}
    (same : second.vmmCurrentDirectory = first.vmmCurrentDirectory)
    (vaddr : AddrT) :
    second.directoryEntryAddress vaddr =
      first.directoryEntryAddress vaddr := by
  rw [Paging.directoryEntryAddress, same]
  rfl

/-- Addresses of one page have the same directory entry. -/
theorem Paging.directoryEntry_congr
    {paging : Paging}
    {first second : AddrT}
    (same : vmmPdIndex first = vmmPdIndex second) :
    paging.directoryEntry first = paging.directoryEntry second := by
  rw [Paging.directoryEntry, Paging.directoryEntryAddress, same]
  rfl

/-- Addresses of one page have the same entry. -/
theorem Paging.pageEntry_congr
    {paging : Paging}
    {first second : AddrT}
    (same : pageNumber first = pageNumber second) :
    paging.pageEntry first = paging.pageEntry second := by
  obtain ⟨directory, table⟩ := (pageNumber_eq_iff first second).mp same
  have address :
      paging.directoryEntryAddress first =
        paging.directoryEntryAddress second := by
    rw [Paging.directoryEntryAddress, directory]
    rfl
  rw [Paging.pageEntry, Paging.pageEntry, vmmGetPage, vmmGetPage, address,
    table]

namespace PageStructures

variable {paging : Paging}

/-- The walk depends on the entries in reserved pages only. -/
theorem walk_of_ownedPages
    (structures : PageStructures paging)
    {later : Paging}
    (directory :
      later.vmmCurrentDirectory = paging.vmmCurrentDirectory)
    (same :
      ∀ {table : PtrT},
        OwnedPage paging.pmm table →
        ∀ {index : BitVec 32},
          index.toNat < 1024 →
          readWord later.memory (entryAddress table index) =
            readWord paging.memory (entryAddress table index))
    (vaddr : AddrT) :
    later.walk vaddr = paging.walk vaddr :=
  Paging.walk_congr
    ((structures.entries_of_ownedPages directory same).2 vaddr)

/-- Clearing bytes of a free block, on the way to taking the block. -/
def clearing (paging : Paging) (block count : Nat) : Paging :=
  { paging with
    memory :=
      memset paging.memory (blockAddress block) 0
        (BitVec.ofNat 32 count)
    pmm := paging.pmm.reserve block 1 }

@[simp] theorem clearing_memory
    (paging : Paging)
    (block count : Nat) :
    (clearing paging block count).memory =
      memset paging.memory (blockAddress block) 0
        (BitVec.ofNat 32 count) :=
  rfl

@[simp] theorem clearing_directory
    (paging : Paging)
    (block count : Nat) :
    (clearing paging block count).vmmCurrentDirectory =
      paging.vmmCurrentDirectory :=
  rfl

/-- Clearing the bytes of a free block does not change any translation. -/
theorem clear
    (structures : PageStructures paging)
    {block : Nat}
    (small : block < 2 ^ 20)
    (free : ¬paging.pmm.Reserved block)
    {count : Nat}
    (inPage : count ≤ 4096) :
    PageStructures (clearing paging block count) ∧
      ∀ vaddr,
        (clearing paging block count).walk vaddr =
          paging.walk vaddr := by
  have length : (BitVec.ofNat 32 count).toNat = count :=
    Nat.mod_eq_of_lt (by omega)
  have same
      {table : PtrT}
      (page : OwnedPage paging.pmm table)
      {index : BitVec 32}
      (bounded : index.toNat < 1024) :
      readWord (clearing paging block count).memory
          (entryAddress table index) =
        readWord paging.memory (entryAddress table index) :=
    readWord_memset_other paging.memory
      (pageAligned_blockAddress small) page.aligned
      (page.ne_blockAddress small free).symm (by omega) bounded
  constructor
  · refine structures.of_sameDirectory rfl ?_ ?_
    · intro vaddr
      exact same structures.directory (vmmPdIndex_lt vaddr)
    · intro other held
      exact (Pmm.reserved_reserve _ _ _ _).mpr (Or.inr held)
  · exact structures.walk_of_ownedPages rfl same

/-- Changing one directory entry keeps the translations under the others. -/
theorem walk_modifyDirectoryEntry
    (structures : PageStructures paging)
    {target vaddr : AddrT}
    (change : BitVec 32 → BitVec 32)
    {later : Paging}
    (directory :
      later.vmmCurrentDirectory = paging.vmmCurrentDirectory)
    (memory :
      later.memory =
        modifyWord paging.memory (paging.directoryEntryAddress target)
          change)
    (other : vmmPdIndex vaddr ≠ vmmPdIndex target) :
    later.walk vaddr = paging.walk vaddr := by
  have entry :
      later.directoryEntry vaddr = paging.directoryEntry vaddr := by
    rw [Paging.directoryEntry, Paging.directoryEntryAddress, directory,
      memory, modifyWord, Paging.directoryEntryAddress,
      readWord_writeWord_entry _ structures.directory.aligned
        structures.directory.aligned (vmmPdIndex_lt target)
        (vmmPdIndex_lt vaddr),
      if_neg fun held => other held.2.symm]
    rfl
  have hasTable : later.HasTable vaddr ↔ paging.HasTable vaddr := by
    rw [Paging.HasTable, Paging.HasTable, entry]
  refine Paging.walk_congr ?_
  by_cases present : paging.HasTable vaddr
  · have table := structures.table vaddr present
    rw [pageEntry_of_hasTable (hasTable.mpr present),
      pageEntry_of_hasTable present, Paging.tableOf, entry, memory,
      modifyWord, Paging.directoryEntryAddress]
    refine (readWord_writeWord_entry _ structures.directory.aligned
      table.1.aligned (vmmPdIndex_lt target)
      (vmmPtIndex_lt vaddr) _).trans ?_
    exact if_neg fun held => table.2 held.1.symm
  · rw [pageEntry_of_not_hasTable fun held => present (hasTable.mp held),
      pageEntry_of_not_hasTable present]

/-- Setting the present bit of a page keeps the present translations. -/
theorem walk_setPresent
    (structures : PageStructures paging)
    {target vaddr : AddrT}
    (hasTable : paging.HasTable target)
    {frame : PtrT}
    (translated : paging.walk vaddr = some frame) :
    ({ paging with
        memory :=
          modifyWord paging.memory (vmmGetPage paging target)
            (vmmSetAttribute ptePresent) } : Paging).walk vaddr =
      some frame := by
  have word :
      readWord paging.memory (vmmGetPage paging target) =
        paging.pageEntry target :=
    (pageEntry_of_hasTable hasTable).symm
  obtain ⟨_, _, entries⟩ :=
    structures.writeEntry hasTable
      (vmmSetAttribute ptePresent (paging.pageEntry target))
  rw [modifyWord, word, Paging.walk_eq_some, entries]
  rw [Paging.walk_eq_some] at translated
  split
  · rename_i same
    rw [← Paging.pageEntry_congr same]
    refine ⟨vmmTestAttribute_setPresent _, ?_⟩
    rw [vmmPagePhysicalAddress_setPresent]
    exact translated.2
  · exact translated

/-- Writing a page's entry reaches its table and the directory. -/
theorem writePageAccesses_reached
    (structures : PageStructures paging)
    {virtualAddress : PtrT}
    (hasTable : paging.HasTable virtualAddress)
    (directory :
      paging.walk paging.vmmCurrentDirectory =
        some paging.vmmCurrentDirectory)
    (table :
      paging.walk (paging.tableOf virtualAddress) =
        some (paging.tableOf virtualAddress)) :
    ∀ access ∈ writePageAccesses paging virtualAddress,
      access.Reached := by
  intro access member
  simp only [writePageAccesses, List.mem_cons, List.not_mem_nil,
    or_false] at member
  rcases member with rfl | rfl | rfl
  · exact directory
  · exact table
  · exact structures.walk_setPresent hasTable table

/-- Creating a table reaches the new table and the directory. -/
theorem createTableAccesses_reached
    (structures : PageStructures paging)
    {target : AddrT}
    (missing : ¬paging.HasTable target)
    {block : Nat}
    (small : block < 2 ^ 20)
    (free : ¬paging.pmm.Reserved block)
    (notNull : blockAddress block ≠ 0)
    (allocation :
      pmmAllocateBlocks paging.pmm 1 =
        (blockAddress block, paging.pmm.reserve block 1))
    (directory :
      paging.walk paging.vmmCurrentDirectory =
        some paging.vmmCurrentDirectory)
    (fresh :
      paging.walk (blockAddress block) = some (blockAddress block)) :
    ∀ access ∈
        createTableAccesses paging (paging.directoryEntryAddress target),
      access.Reached := by
  -- The directory is translated, so it is not under the missing table.
  have other :
      vmmPdIndex paging.vmmCurrentDirectory ≠ vmmPdIndex target := by
    intro same
    have absent : ¬paging.HasTable paging.vmmCurrentDirectory := by
      rw [Paging.HasTable, Paging.directoryEntry_congr same]
      exact missing
    rw [Paging.walk_of_not_hasTable absent] at directory
    simp at directory
  have cleared := structures.clear small free (Nat.le_refl 4096)
  have changed
      {later : Paging}
      (change : BitVec 32 → BitVec 32)
      (sameDirectory :
        later.vmmCurrentDirectory = paging.vmmCurrentDirectory)
      (memory :
        later.memory =
          modifyWord
            (memset paging.memory (blockAddress block) 0
              (BitVec.ofNat 32 4096))
            (paging.directoryEntryAddress target) change) :
      Access.Reached ⟨later, paging.vmmCurrentDirectory⟩ := by
    rw [Access.Reached, ← directory,
      ← cleared.2 paging.vmmCurrentDirectory]
    refine cleared.1.walk_modifyDirectoryEntry change
      (sameDirectory.trans (clearing_directory _ _ _).symm) ?_ other
    rw [memory, clearing_memory,
      Paging.directoryEntryAddress_congr (clearing_directory _ _ _)]
  intro access member
  simp only [createTableAccesses, allocation, notNull, ↓reduceIte,
    List.mem_append, List.mem_map, List.mem_range, List.mem_cons,
    List.not_mem_nil, or_false, modifyWord_modifyWord_self] at member
  rcases member with ⟨count, inPage, rfl⟩ | rfl | rfl | rfl
  · exact ((structures.clear small free
      (Nat.le_of_lt inPage)).2 _).trans fresh
  · exact (cleared.2 _).trans directory
  · refine changed (vmmSetAttribute ptePresent) ?_ ?_ <;>
      with_reducible rfl
  · refine changed
      (fun word =>
        vmmSetAttribute pteReadWrite (vmmSetAttribute ptePresent word))
      ?_ ?_ <;> with_reducible rfl

/-- The first bytes of a new table are accessed on the way. -/
theorem clearing_mem_createTableAccesses
    {block : Nat}
    (allocation :
      pmmAllocateBlocks paging.pmm 1 =
        (blockAddress block, paging.pmm.reserve block 1))
    (notNull : blockAddress block ≠ 0)
    (entry : PtrT)
    {count : Nat}
    (inPage : count < 4096) :
    Access.mk (clearing paging block count) (blockAddress block) ∈
      createTableAccesses paging entry := by
  simp only [createTableAccesses, allocation, notNull, ↓reduceIte]
  refine List.mem_append_left _ (List.mem_map.mpr ⟨count, ?_, rfl⟩)
  exact List.mem_range.mpr inPage

/-- Accesses of a call whose table exists. -/
theorem vmmMapPageAccesses_of_hasTable
    {virtualAddress : PtrT}
    (present : paging.HasTable virtualAddress) :
    vmmMapPageAccesses paging virtualAddress =
      ⟨paging, paging.vmmCurrentDirectory⟩ ::
        writePageAccesses paging virtualAddress := by
  have test :
      vmmTestAttribute ptePresent
          (readWord paging.memory
            (paging.directoryEntryAddress virtualAddress)) =
        true :=
    present
  simp only [vmmMapPageAccesses, test, ↓reduceIte]

/-- Accesses of a call whose table has to be created. -/
theorem vmmMapPageAccesses_of_not_hasTable
    {virtualAddress : PtrT}
    (missing : ¬paging.HasTable virtualAddress) :
    vmmMapPageAccesses paging virtualAddress =
      ⟨paging, paging.vmmCurrentDirectory⟩ ::
        (createTableAccesses paging
            (paging.directoryEntryAddress virtualAddress) ++
          if (HobbyOS.createTable paging
              (paging.directoryEntryAddress virtualAddress)).1 then
            writePageAccesses
              (HobbyOS.createTable paging
                (paging.directoryEntryAddress virtualAddress)).2
              virtualAddress
          else []) := by
  have test :
      ¬vmmTestAttribute ptePresent
          (readWord paging.memory
            (paging.directoryEntryAddress virtualAddress)) =
        true :=
    missing
  simp only [vmmMapPageAccesses, test, Bool.false_eq_true, ↓reduceIte]

/-- A call whose table exists uses the directory and the table. -/
theorem accessesReached_iff_of_hasTable
    (structures : PageStructures paging)
    {virtualAddress : PtrT}
    (present : paging.HasTable virtualAddress) :
    (∀ access ∈ vmmMapPageAccesses paging virtualAddress,
        access.Reached) ↔
      paging.walk paging.vmmCurrentDirectory =
          some paging.vmmCurrentDirectory ∧
        paging.walk (paging.tableOf virtualAddress) =
          some (paging.tableOf virtualAddress) := by
  rw [vmmMapPageAccesses_of_hasTable present]
  constructor
  · intro reached
    exact
      ⟨reached ⟨paging, paging.vmmCurrentDirectory⟩ List.mem_cons_self,
        reached ⟨paging, paging.tableOf virtualAddress⟩
          (by simp [writePageAccesses])⟩
  · rintro ⟨directory, table⟩ access member
    rcases List.mem_cons.mp member with rfl | member
    · exact directory
    · exact structures.writePageAccesses_reached present directory
        table access member

/-- A call that creates its table uses the directory and the next block. -/
theorem accessesReached_iff_of_not_hasTable
    (structures : PageStructures paging)
    (below : paging.pmm.FindsBelow4GiB 1)
    {virtualAddress : PtrT}
    (missing : ¬paging.HasTable virtualAddress) :
    (∀ access ∈ vmmMapPageAccesses paging virtualAddress,
        access.Reached) ↔
      paging.walk paging.vmmCurrentDirectory =
          some paging.vmmCurrentDirectory ∧
        ∀ block,
          paging.pmm.NextBlock block →
          paging.walk (blockAddress block) =
            some (blockAddress block) := by
  have allocates := pmmAllocateBlocks_allocatesOne paging.pmm
  have creates := structures.createTable below missing
  have small
      {block : Nat}
      (next : paging.pmm.NextBlock block) :
      block < 2 ^ 20 :=
    below block next.lowestFree.found
  rw [vmmMapPageAccesses_of_not_hasTable missing]
  generalize allocation : pmmAllocateBlocks paging.pmm 1 = result
    at allocates
  generalize
    HobbyOS.createTable paging
      (paging.directoryEntryAddress virtualAddress) = outcome at creates
  cases allocates with
  | refused exhausted =>
      cases creates with
      | exhausted =>
          simp only [createTableAccesses, allocation, ↓reduceIte,
            Bool.false_eq_true, List.append_nil, List.mem_cons,
            List.not_mem_nil, or_false, forall_eq, Access.Reached]
          refine (and_iff_left ?_).symm
          intro block next
          have low := small next
          have high := exhausted block next
          omega
      | created granted =>
          rw [allocation] at granted
          exact (granted rfl).elim
  | @granted block next =>
      have notNull := blockAddress_ne_zero next.notZero (small next)
      have exact32 : block % 2 ^ 32 = block :=
        Nat.mod_eq_of_lt (Nat.lt_trans (small next) (by omega))
      rw [exact32] at allocation
      cases creates with
      | exhausted refused =>
          rw [allocation] at refused
          exact (notNull refused).elim
      | @created later _ laterStructures _ sameDirectory hasTable tableOf
          entries =>
          have free := next.lowestFree.free
          have walks
              (vaddr : AddrT) :
              later.walk vaddr = paging.walk vaddr :=
            Paging.walk_congr (entries vaddr)
          rw [allocation] at tableOf
          simp only [↓reduceIte]
          constructor
          · intro reached
            refine ⟨reached ⟨paging, _⟩ List.mem_cons_self, ?_⟩
            intro other otherNext
            rw [otherNext.unique next]
            have started :=
              reached _ (List.mem_cons_of_mem _ (List.mem_append_left _
                (clearing_mem_createTableAccesses allocation notNull _
                  (show 0 < 4096 by omega))))
            rw [Access.Reached] at started
            rw [← started]
            exact ((structures.clear (small next) free
              (Nat.zero_le _)).2 _).symm
          · rintro ⟨directory, fresh⟩ access member
            rcases List.mem_cons.mp member with rfl | member
            · exact directory
            · rcases List.mem_append.mp member with member | member
              · exact structures.createTableAccesses_reached missing
                  (small next) free notNull allocation directory
                  (fresh block next) access member
              · refine laterStructures.writePageAccesses_reached
                  ((hasTable _).mpr (Or.inr rfl)) ?_ ?_ access member
                · rw [walks, sameDirectory]
                  exact directory
                · rw [walks, tableOf]
                  exact fresh block next

/--
All accesses of a call reach their structures exactly when the directory,
and the table or the block that becomes the table, are mapped to themselves.
-/
theorem accessesReached_iff
    (structures : PageStructures paging)
    {space : AddressSpace}
    (represented :
      ∀ vaddr, paging.walk vaddr = space (pageNumber vaddr))
    {virtualAddress : PtrT}
    (below :
      ¬paging.HasTable virtualAddress → paging.pmm.FindsBelow4GiB 1) :
    (∀ access ∈ vmmMapPageAccesses paging virtualAddress,
        access.Reached) ↔
      StructuresMapped space paging virtualAddress := by
  by_cases present : paging.HasTable virtualAddress
  · rw [structures.accessesReached_iff_of_hasTable present,
      represented, represented]
    constructor
    · rintro ⟨directory, table⟩
      exact
        ⟨directory, fun _ => table, fun missing => (missing present).elim⟩
    · intro mapped
      exact ⟨mapped.directory, mapped.table present⟩
  · rw [structures.accessesReached_iff_of_not_hasTable (below present)
      present, represented]
    have page
        {block : Nat}
        (next : paging.pmm.NextBlock block) :
        paging.walk (blockAddress block) = space block := by
      rw [represented,
        pageNumber_blockAddress
          (below present block next.lowestFree.found)]
    constructor
    · rintro ⟨directory, fresh⟩
      refine ⟨directory, fun held => (present held).elim, ?_⟩
      intro _ block next
      rw [← page next]
      exact fresh block next
    · intro mapped
      refine ⟨mapped.directory, ?_⟩
      intro block next
      rw [page next]
      exact mapped.fresh present block next

end PageStructures

/-! ## Histories of mappings -/

/-- A call of `vmm_map_page` together with its result. -/
structure MapCall where
  physicalAddress : PtrT
  virtualAddress : PtrT
  mapped : Bool

/-- A call gives its page a frame, over bit 31 of the page's old frame. -/
def overlay (space : AddressSpace) (call : MapCall) : AddressSpace :=
  let page := pageNumber call.virtualAddress
  if call.mapped then
    Function.update space page
      (some
        (((space page).getD 0 &&& 0x80000000#32) |||
          vmmPagePhysicalAddress call.physicalAddress))
  else
    space

/-- Every call of `vmm_map_page`. -/
inductive MapStep : MapCall → Paging → Paging → Prop where
  | map
      {physicalAddress virtualAddress : PtrT}
      {paging : Paging} :
      MapStep
        ⟨physicalAddress, virtualAddress,
          (vmmMapPage paging physicalAddress virtualAddress).1⟩
        paging
        (vmmMapPage paging physicalAddress virtualAddress).2

/-- A call that has to create its table finds a block below 4 GiB. -/
def CreatesBelow4GiB (call : MapCall) (paging : Paging) : Prop :=
  ¬paging.HasTable call.virtualAddress → paging.pmm.FindsBelow4GiB 1

/-- The paging state represents an address space of unaligned frames too. -/
structure Overlaid (paging : Paging) (space : AddressSpace) : Prop where
  structures : PageStructures paging
  walk : ∀ vaddr, paging.walk vaddr = space (pageNumber vaddr)
  zero :
    ∀ vaddr, paging.walk vaddr = none → paging.pageEntry vaddr = 0

/-- The frame of a mapped entry, over what the old frame left behind. -/
theorem vmmPagePhysicalAddress_mappedEntry_of_frame
    (physicalAddress entry : BitVec 32) :
    vmmPagePhysicalAddress (mappedEntry physicalAddress entry) =
      (vmmPagePhysicalAddress entry &&& 0x80000000#32) |||
        vmmPagePhysicalAddress physicalAddress := by
  have attributes : ptePresent &&& 0x80000000#32 = 0 := by decide
  have masks : ~~~0xFFF#32 &&& 0x80000000#32 = 0x80000000#32 := by
    decide
  have left :
      vmmSetAttribute ptePresent entry &&& 0x80000000#32 =
        entry &&& 0x80000000#32 := by
    rw [vmmSetAttribute, BitVec.and_or_distrib_right, attributes]
    exact BitVec.or_zero
  have right :
      vmmPagePhysicalAddress entry &&& 0x80000000#32 =
        entry &&& 0x80000000#32 := by
    rw [vmmPagePhysicalAddress, BitVec.and_assoc, masks]
  rw [mappedEntry, vmmPagePhysicalAddress_vmmSetFrame, left, right]

/-- The initialization represents the identity map. -/
theorem IdentityMapped.overlaid
    {start : Paging}
    (identity : IdentityMapped start) :
    Overlaid start identitySpace := by
  have walk := identity.walk
  refine ⟨identity.structures, walk, ?_⟩
  intro vaddr absent
  rw [walk, identitySpace] at absent
  rw [identity.entries]
  split at absent
  · simp at absent
  · rename_i high
    rw [if_neg high]

/-- A call overlays its page, or changes nothing. -/
theorem Overlaid.map
    {paging : Paging}
    {space : AddressSpace}
    (overlaid : Overlaid paging space)
    {physicalAddress virtualAddress : PtrT}
    {result : Bool × Paging}
    (maps :
      PageStructures.MapsPage paging physicalAddress virtualAddress
        result) :
    Overlaid result.2
      (overlay space ⟨physicalAddress, virtualAddress, result.1⟩) := by
  cases maps with
  | exhausted =>
      exact overlaid
  | @mapped later _ structures _ _ _ entries =>
      -- The old frame's bit 31 can be read off the walk, or is clear.
      have oldFrame :
          (space (pageNumber virtualAddress)).getD 0 &&& 0x80000000#32 =
            vmmPagePhysicalAddress (paging.pageEntry virtualAddress) &&&
              0x80000000#32 := by
        rw [← overlaid.walk]
        cases walked : paging.walk virtualAddress with
        | none =>
            rw [overlaid.zero virtualAddress walked]
            decide
        | some frame =>
            rw [(Paging.walk_eq_some.mp walked).2]
            rfl
      have target
          {vaddr : AddrT}
          (same : pageNumber vaddr = pageNumber virtualAddress) :
          later.walk vaddr =
            overlay space ⟨physicalAddress, virtualAddress, true⟩
              (pageNumber vaddr) := by
        rw [overlay, if_pos rfl, same, Function.update_self, oldFrame,
          Paging.walk_eq_some, entries, if_pos same,
          vmmTestAttribute_ptePresent, getLsbD_zero_mappedEntry,
          vmmPagePhysicalAddress_mappedEntry_of_frame]
        exact ⟨rfl, rfl⟩
      have others
          {vaddr : AddrT}
          (other : pageNumber vaddr ≠ pageNumber virtualAddress) :
          later.walk vaddr = paging.walk vaddr := by
        refine Paging.walk_congr ?_
        rw [entries, if_neg other]
      refine ⟨structures, ?_, ?_⟩
      · intro vaddr
        by_cases same : pageNumber vaddr = pageNumber virtualAddress
        · exact target same
        · rw [others same, overlaid.walk, overlay, if_pos rfl,
            Function.update_of_ne same]
      · intro vaddr absent
        by_cases same : pageNumber vaddr = pageNumber virtualAddress
        · rw [target same, overlay, if_pos rfl, same,
            Function.update_self] at absent
          simp at absent
        · rw [others same] at absent
          rw [entries, if_neg same]
          exact overlaid.zero vaddr absent

/--
After the initialization and any calls of `vmm_map_page`, the next call
reaches all its structures exactly when their pages are mapped to themselves
by the history: the first 1024 pages, overlaid by the calls so far.
-/
theorem mapRun_accessesReached_iff
    {before start final : Paging}
    (below : InitializesBelow4GiB before.pmm)
    (success :
      initializeVirtualMemoryManager before = (true, start))
    {calls : List MapCall}
    (run : Run (Guarded CreatesBelow4GiB MapStep) start calls final)
    {virtualAddress : PtrT}
    (nextBelow :
      ¬final.HasTable virtualAddress → final.pmm.FindsBelow4GiB 1) :
    (∀ access ∈ vmmMapPageAccesses final virtualAddress,
        access.Reached) ↔
      StructuresMapped (calls.foldl overlay identitySpace) final
        virtualAddress := by
  have identity :=
    initializeVirtualMemoryManager_identityMapped below success
  obtain ⟨space, spaceRun, overlaid⟩ :=
    run.simulate (fun call space space' => space' = overlay space call)
      Overlaid
      (by
        rintro call before after space overlaid ⟨guarded, stepped⟩
        cases stepped with
        | map =>
            exact ⟨_, rfl,
              overlaid.map (overlaid.structures.vmmMapPage guarded)⟩)
      identity.overlaid
  rw [← spaceRun.eq_foldl]
  exact overlaid.structures.accessesReached_iff overlaid.walk nextBelow

/-- A manager whose first free blocks start at 4 MiB. -/
def highPmm : Pmm where
  memoryBlocks := fun index => if index < 128 then 0xFF else 0
  maxMemoryBlocks := 2048
  usedMemoryBlocks := 1024
  fits := by decide

/-- Zeroed memory under a manager without free blocks below 4 MiB. -/
def highPaging : Paging where
  memory := fun _ => 0
  pmm := highPmm
  vmmCurrentDirectory := 0

/-- On the low manager, a mapping above 4 MiB is followed by another. -/
theorem mapRun_accessesReached_iff_booted :
    (∀ access ∈
        vmmMapPageAccesses (vmmMapPage bootedPaging 0x7000 0x400000).2
          0x401000,
        access.Reached) ↔
      StructuresMapped
        (([⟨0x7000, 0x400000,
            (vmmMapPage bootedPaging 0x7000 0x400000).1⟩] :
              List MapCall).foldl overlay identitySpace)
        (vmmMapPage bootedPaging 0x7000 0x400000).2 0x401000 := by
  have first :
      CreatesBelow4GiB
        ⟨0x7000, 0x400000,
          (vmmMapPage bootedPaging 0x7000 0x400000).1⟩
        bootedPaging :=
    fun _ => Pmm.findsBelow4GiB_of_le bootedPaging_managed (by decide)
  refine mapRun_accessesReached_iff (initializesBelow4GiB_of_le (by decide))
    bootPaging_success (Run.nil.snoc ⟨first, MapStep.map⟩) ?_
  intro _
  refine Pmm.findsBelow4GiB_of_le ?_ (by decide)
  rw [vmmMapPage_maxMemoryBlocks]
  exact bootedPaging_managed

/-- With a directory above 4 MiB, the first call cannot reach it. -/
theorem mapRun_accessesReached_fails :
    ¬∀ (before start final : Paging) (calls : List MapCall),
        initializeVirtualMemoryManager before = (true, start) →
        Run MapStep start calls final →
        ∀ virtualAddress,
          ∀ access ∈ vmmMapPageAccesses final virtualAddress,
            access.Reached := by
  intro claimed
  have first :
      (initializeVirtualMemoryManager highPaging).1 = true := by
    decide +kernel
  have success :
      initializeVirtualMemoryManager highPaging =
        (true, (initializeVirtualMemoryManager highPaging).2) := by
    rw [← first]
  have identity :=
    initializeVirtualMemoryManager_identityMapped
      (initializesBelow4GiB_of_le (by decide)) success
  have directory :
      (initializeVirtualMemoryManager highPaging).2.vmmCurrentDirectory =
        0x400000 := by
    decide +kernel
  have reached := claimed _ _ _ _ success .nil 0 ⟨_, _⟩ List.mem_cons_self
  rw [Access.Reached, directory, identity.walk] at reached
  simp [identitySpace, pageNumber] at reached

end HobbyOS
