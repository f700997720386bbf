import HobbyOS.VirtualMemory.PageOperations

namespace HobbyOS

open Library

/-!
# The state after initialization

`initialize_virtual_memory_manager` fills the directory with absent entries,
fills one table with the identity map of the first 1024 pages and enters it
at directory index 0.  Both loops write the entries of one table in order,
so one lemma describes them.
-/

/-- A loop over the entries of a table writes the entries below its count. -/
theorem readWord_entryLoop
    {loop : Nat → Memory}
    (value : Nat → BitVec 32)
    {table other : PtrT}
    (aligned : PageAligned table)
    (otherAligned : PageAligned other)
    (next :
      ∀ count,
        count < 1024 →
        loop (count + 1) =
          writeWord (loop count)
            (entryAddress table (BitVec.ofNat 32 count)) (value count))
    {count : Nat}
    (bounded : count ≤ 1024)
    {index : BitVec 32}
    (small : index.toNat < 1024) :
    readWord (loop count) (entryAddress other index) =
      if table = other ∧ index.toNat < count then value index.toNat
      else readWord (loop 0) (entryAddress other index) := by
  induction count with
  | zero =>
      simp
  | succ count inductionHypothesis =>
      have position : (BitVec.ofNat 32 count).toNat = count :=
        Nat.mod_eq_of_lt (by omega)
      rw [next count (by omega),
        readWord_writeWord_entry _ aligned otherAligned
          (by omega) small,
        inductionHypothesis (by omega)]
      by_cases same : table = other
      · have reached :
            BitVec.ofNat 32 count = index ↔ index.toNat = count := by
          rw [← BitVec.toNat_inj, position]
          exact eq_comm
        simp only [same, true_and, reached]
        by_cases last : index.toNat = count
        · simp [last]
        · have before :
              index.toNat < count + 1 ↔ index.toNat < count := by
            omega
          simp only [last, before, ↓reduceIte]
      · simp [same]

/-- The directory loop makes all entries absent. -/
theorem readWord_directoryEntries
    (memory : Memory)
    {dir : PtrT}
    (aligned : PageAligned dir)
    {index : BitVec 32}
    (small : index.toNat < 1024) :
    readWord (directoryEntries memory dir 1024)
        (entryAddress dir index) =
      pteReadWrite := by
  rw [readWord_entryLoop (fun _ => pteReadWrite) aligned aligned
    (fun _ _ => rfl) (Nat.le_refl _) small]
  simp [small]

/-- The table index of the `count`-th page of the first table. -/
theorem vmmPtIndex_page
    {count : Nat}
    (bounded : count < 1024) :
    vmmPtIndex (BitVec.ofNat 32 (count * 4096)) =
      BitVec.ofNat 32 count := by
  have value :
      (BitVec.ofNat 32 (count * 4096)).toNat = count * 4096 :=
    Nat.mod_eq_of_lt (by omega)
  apply BitVec.eq_of_toNat_eq
  rw [toNat_vmmPtIndex, pageNumber, value, BitVec.toNat_ofNat]
  omega

/-- The identity loop maps all pages of its table to themselves. -/
theorem readWord_identityEntries
    (memory : Memory)
    {table other : PtrT}
    (aligned : PageAligned table)
    (otherAligned : PageAligned other)
    {index : BitVec 32}
    (small : index.toNat < 1024) :
    readWord (identityEntries memory table 1024)
        (entryAddress other index) =
      if table = other then identityEntry index.toNat
      else readWord memory (entryAddress other index) := by
  rw [readWord_entryLoop identityEntry aligned otherAligned
    (fun count bounded => by rw [identityEntries, vmmPtIndex_page bounded])
    (Nat.le_refl _) small]
  simp only [small, and_true]
  rfl

/-- The directory after the tables are filled. -/
theorem readWord_fillTables_directory
    {memory : Memory}
    {dir table table3GB : PtrT}
    (dirAligned : PageAligned dir)
    (tableAligned : PageAligned table)
    (table3GBAligned : PageAligned table3GB)
    (tableApart : table ≠ dir)
    (table3GBApart : table3GB ≠ dir)
    (absent :
      ∀ index : BitVec 32,
        index.toNat < 1024 →
        readWord memory (entryAddress dir index) = pteReadWrite)
    {index : BitVec 32}
    (small : index.toNat < 1024) :
    readWord (fillTables memory dir table table3GB)
        (entryAddress dir index) =
      if index = 0 then tableEntry table3GB else pteReadWrite := by
  have cleared
      {index : BitVec 32}
      (small : index.toNat < 1024) :
      readWord
          (identityEntries
            (memset (memset memory table 0 4096) table3GB 0 4096)
            table3GB 1024)
          (entryAddress dir index) =
        pteReadWrite := by
    rw [readWord_identityEntries _ table3GBAligned dirAligned small,
      if_neg table3GBApart,
      readWord_memset_other _ table3GBAligned dirAligned table3GBApart
        (Nat.le_refl _) small,
      readWord_memset_other _ tableAligned dirAligned tableApart
        (Nat.le_refl _) small,
      absent index small]
  have zero : vmmPdIndex 0 = 0 := by decide
  simp only [fillTables, modifyWord_modifyWord_self]
  rw [modifyWord,
    readWord_writeWord_entry _ dirAligned dirAligned (vmmPdIndex_lt 0)
      small,
    cleared small, cleared (vmmPdIndex_lt 0), zero]
  simp only [true_and, eq_comm]
  rfl

/-- The first table after the tables are filled. -/
theorem readWord_fillTables_table
    {memory : Memory}
    {dir table table3GB : PtrT}
    (dirAligned : PageAligned dir)
    (table3GBAligned : PageAligned table3GB)
    (table3GBApart : table3GB ≠ dir)
    {index : BitVec 32}
    (small : index.toNat < 1024) :
    readWord (fillTables memory dir table table3GB)
        (entryAddress table3GB index) =
      identityEntry index.toNat := by
  simp only [fillTables, modifyWord_modifyWord_self]
  rw [modifyWord,
    readWord_writeWord_entry _ dirAligned table3GBAligned
      (vmmPdIndex_lt 0) small,
    if_neg (fun same => table3GBApart same.1.symm),
    readWord_identityEntries _ table3GBAligned table3GBAligned small,
    if_pos rfl]

/-- The first 1024 pages are mapped to themselves, and no others. -/
structure IdentityMapped (paging : Paging) : Prop where
  structures : PageStructures paging
  hasTable :
    ∀ vaddr, paging.HasTable vaddr ↔ vmmPdIndex vaddr = 0
  entries :
    ∀ vaddr,
      paging.pageEntry vaddr =
        if pageNumber vaddr < 1024 then identityEntry (pageNumber vaddr)
        else 0

/-- A directory whose only table maps its pages to themselves. -/
structure IdentityDirectory (paging : Paging) (table3GB : PtrT) :
    Prop where
  directory : OwnedPage paging.pmm paging.vmmCurrentDirectory
  table : OwnedPage paging.pmm table3GB
  apart : table3GB ≠ paging.vmmCurrentDirectory
  directoryEntry :
    ∀ vaddr,
      paging.directoryEntry vaddr =
        if vmmPdIndex vaddr = 0 then tableEntry table3GB
        else pteReadWrite
  tableEntries :
    ∀ index : BitVec 32,
      index.toNat < 1024 →
      readWord paging.memory (entryAddress table3GB index) =
        identityEntry index.toNat

/-- A directory with one identity table maps the first 1024 pages. -/
theorem IdentityDirectory.identityMapped
    {paging : Paging}
    {table3GB : PtrT}
    (identity : IdentityDirectory paging table3GB) :
    IdentityMapped paging := by
  obtain ⟨directory, table, apart, directoryEntry, tableEntries⟩ :=
    identity
  have absentEntry :
      ¬vmmTestAttribute ptePresent pteReadWrite = true := by
    decide
  have hasTable
      (vaddr : AddrT) :
      paging.HasTable vaddr ↔ vmmPdIndex vaddr = 0 := by
    rw [Paging.HasTable, directoryEntry]
    split
    · rename_i first
      exact iff_of_true (present_tableEntry table3GB) first
    · rename_i other
      exact iff_of_false absentEntry other
  have tableOf
      (vaddr : AddrT)
      (present : paging.HasTable vaddr) :
      paging.tableOf vaddr = table3GB := by
    rw [Paging.tableOf, directoryEntry,
      if_pos ((hasTable vaddr).mp present)]
    exact vmmPagePhysicalAddress_tableEntry table.aligned
  refine ⟨⟨directory, ?_, ?_, ?_⟩, hasTable, ?_⟩
  · intro vaddr missing
    rw [directoryEntry,
      if_neg (fun first => missing ((hasTable vaddr).mpr first))]
  · intro vaddr present
    rw [tableOf vaddr present]
    exact ⟨table, apart⟩
  · intro first second firstPresent secondPresent _
    rw [(hasTable first).mp firstPresent,
      (hasTable second).mp secondPresent]
  · intro vaddr
    have firstTable :
        vmmPdIndex vaddr = 0 ↔ pageNumber vaddr < 1024 := by
      rw [← BitVec.toNat_inj, toNat_vmmPdIndex]
      have zero : (0 : BitVec 32).toNat = 0 := rfl
      omega
    by_cases present : paging.HasTable vaddr
    · have low := firstTable.mp ((hasTable vaddr).mp present)
      rw [PageStructures.pageEntry_of_hasTable present, tableOf vaddr present,
        tableEntries _ (vmmPtIndex_lt vaddr), if_pos low,
        toNat_vmmPtIndex, Nat.mod_eq_of_lt low]
    · have high :=
        fun low => present ((hasTable vaddr).mpr (firstTable.mpr low))
      rw [PageStructures.pageEntry_of_not_hasTable present, if_neg high]

/-- What a successful initialization has allocated and written. -/
theorem initializeVirtualMemoryManager_success
    {before start : Paging}
    (success :
      initializeVirtualMemoryManager before = (true, start)) :
    let dir := pmmAllocateBlocks before.pmm 3
    let table := pmmAllocateBlocks dir.2 1
    let table3GB := pmmAllocateBlocks table.2 1
    dir.1 ≠ 0 ∧ table.1 ≠ 0 ∧ table3GB.1 ≠ 0 ∧
      start =
        { memory :=
            fillTables
              (directoryEntries (memset before.memory dir.1 0 4096)
                dir.1 1024)
              dir.1 table.1 table3GB.1
          pmm := table3GB.2
          vmmCurrentDirectory := dir.1 } := by
  intro dir table table3GB
  unfold initializeVirtualMemoryManager at success
  split at success
  rename_i dirPointer dirPmm dirSame
  have dirValue : dir = (dirPointer, dirPmm) := dirSame
  split at success
  · simp at success
  · rename_i dirGranted
    simp only at success
    split at success
    · simp at success
    · rename_i tableGranted
      split at success
      · simp at success
      · rename_i table3GBGranted
        simp only [vmmSetPageDirectory, dirGranted, ↓reduceIte,
          Prod.mk.injEq, true_and] at success
        simp only [table3GB, table, dirValue]
        exact
          ⟨dirGranted, tableGranted, table3GBGranted, success.symm⟩

/-- The initialization does not change the number of managed blocks. -/
theorem initializeVirtualMemoryManager_maxMemoryBlocks
    {before start : Paging}
    (success :
      initializeVirtualMemoryManager before = (true, start)) :
    start.pmm.maxMemoryBlocks = before.pmm.maxMemoryBlocks := by
  obtain ⟨_, _, _, rfl⟩ := initializeVirtualMemoryManager_success success
  simp only [pmmAllocateBlocks_maxMemoryBlocks]

/-- An allocation below 4 GiB that is not refused. -/
theorem TakesBlocks.granted_of_ne_zero
    {pmm : Pmm}
    {size : SizeT}
    {result : PtrT × Pmm}
    (takes : TakesBlocks pmm size result)
    (notNull : result.1 ≠ 0) :
    ∃ first,
      first ≠ 0 ∧
        first < 2 ^ 20 ∧
        (∀ block,
          first ≤ block →
          block < first + size.toNat →
          ¬pmm.Reserved block) ∧
        result = (blockAddress first, pmm.reserve first size) := by
  cases takes with
  | refused =>
      exact (notNull rfl).elim
  | @granted first notZero small _ free =>
      exact ⟨first, notZero, small, free, rfl⟩

/-- The three allocations of the initialization find runs below 4 GiB. -/
structure InitializesBelow4GiB (pmm : Pmm) : Prop where
  dir : pmm.FindsBelow4GiB 3
  table : (pmmAllocateBlocks pmm 3).2.FindsBelow4GiB 1
  table3GB :
    (pmmAllocateBlocks (pmmAllocateBlocks pmm 3).2 1).2.FindsBelow4GiB 1

/-- A manager of at most 4 GiB finds its runs below 4 GiB. -/
theorem initializesBelow4GiB_of_le
    {pmm : Pmm}
    (small : pmm.maxMemoryBlocks ≤ 2 ^ 20) :
    InitializesBelow4GiB pmm := by
  constructor <;> refine Pmm.findsBelow4GiB_of_le ?_ (by decide)
  · exact small
  · rw [pmmAllocateBlocks_maxMemoryBlocks]
    exact small
  · rw [pmmAllocateBlocks_maxMemoryBlocks,
      pmmAllocateBlocks_maxMemoryBlocks]
    exact small

/-- A successful initialization leaves one table, which is the identity. -/
theorem initializeVirtualMemoryManager_directory
    {before start : Paging}
    (below : InitializesBelow4GiB before.pmm)
    (success :
      initializeVirtualMemoryManager before = (true, start)) :
    ∃ table3GB, IdentityDirectory start table3GB := by
  have three : 0 < (3 : SizeT).toNat := by decide
  have one : 0 < (1 : SizeT).toNat := by decide
  have granted := initializeVirtualMemoryManager_success success
  simp only at granted
  obtain ⟨dirGranted, tableGranted, table3GBGranted, rfl⟩ := granted
  obtain ⟨belowDir, belowTable, belowTable3GB⟩ := below
  obtain ⟨dir, dirNotZero, dirSmall, _, dirResult⟩ :=
    (belowDir.takesBlocks three).granted_of_ne_zero dirGranted
  simp only [dirResult] at tableGranted table3GBGranted ⊢
  simp only [dirResult] at belowTable belowTable3GB
  obtain ⟨table, tableNotZero, tableSmall, tableFree, tableResult⟩ :=
    (belowTable.takesBlocks one).granted_of_ne_zero tableGranted
  simp only [tableResult] at table3GBGranted belowTable3GB ⊢
  obtain ⟨table3GB, table3GBNotZero, table3GBSmall, table3GBFree,
      table3GBResult⟩ :=
    (belowTable3GB.takesBlocks one).granted_of_ne_zero table3GBGranted
  simp only [table3GBResult]
  have threeValue : (3 : SizeT).toNat = 3 := rfl
  have oneValue : (1 : SizeT).toNat = 1 := rfl
  have tableFresh :=
    tableFree table (Nat.le_refl _) (Nat.lt_succ_self _)
  have table3GBFresh :=
    table3GBFree table3GB (Nat.le_refl _) (Nat.lt_succ_self _)
  simp only [Pmm.reserved_reserve, not_or, not_and, oneValue, threeValue]
    at tableFresh table3GBFresh
  have dirPage :
      OwnedPage
        (((before.pmm.reserve dir 3).reserve table 1).reserve table3GB 1)
        (blockAddress dir) :=
    ownedPage_blockAddress dirNotZero dirSmall (by simp)
  have tablePage :
      OwnedPage
        (((before.pmm.reserve dir 3).reserve table 1).reserve table3GB 1)
        (blockAddress table) :=
    ownedPage_blockAddress tableNotZero tableSmall (by simp)
  have table3GBPage :
      OwnedPage
        (((before.pmm.reserve dir 3).reserve table 1).reserve table3GB 1)
        (blockAddress table3GB) :=
    ownedPage_blockAddress table3GBNotZero table3GBSmall (by simp)
  have tableApart : blockAddress table ≠ blockAddress dir :=
    blockAddress_ne tableSmall dirSmall (by omega)
  have table3GBApart : blockAddress table3GB ≠ blockAddress dir :=
    blockAddress_ne table3GBSmall dirSmall (by omega)
  refine ⟨_, dirPage, table3GBPage, table3GBApart, ?_, ?_⟩
  · intro vaddr
    exact readWord_fillTables_directory dirPage.aligned tablePage.aligned
      table3GBPage.aligned tableApart table3GBApart
      (fun _ small => readWord_directoryEntries _ dirPage.aligned small)
      (vmmPdIndex_lt vaddr)
  · intro index small
    exact readWord_fillTables_table dirPage.aligned table3GBPage.aligned
      table3GBApart small

/-- A successful initialization leaves the identity map. -/
theorem initializeVirtualMemoryManager_identityMapped
    {before start : Paging}
    (below : InitializesBelow4GiB before.pmm)
    (success :
      initializeVirtualMemoryManager before = (true, start)) :
    IdentityMapped start := by
  obtain ⟨_, identity⟩ :=
    initializeVirtualMemoryManager_directory below success
  exact identity.identityMapped

end HobbyOS
