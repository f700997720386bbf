import HobbyOS.PhysicalMemory.SingleBlock
import HobbyOS.VirtualMemory.Paging

namespace HobbyOS

open Library

/-!
# The page directory and its tables

The invariant of the lazily built two-level structure: the directory and the
tables of present entries are distinct reserved blocks, and an absent entry
has no frame.  Under it the structure is a map from page numbers to entry
words.  Writing a page's entry updates that map at one page, and creating a
table leaves it alone.
-/

/-- The directory entry of an address. -/
def Paging.directoryEntry (paging : Paging) (vaddr : AddrT) : BitVec 32 :=
  readWord paging.memory (paging.directoryEntryAddress vaddr)

/-- The directory entry of an address is present. -/
def Paging.HasTable (paging : Paging) (vaddr : AddrT) : Prop :=
  vmmTestAttribute ptePresent (paging.directoryEntry vaddr) = true

instance (paging : Paging) (vaddr : AddrT) :
    Decidable (paging.HasTable vaddr) :=
  inferInstanceAs (Decidable (_ = true))

/-- The table that the directory entry of an address points to. -/
def Paging.tableOf (paging : Paging) (vaddr : AddrT) : PtrT :=
  vmmPagePhysicalAddress (paging.directoryEntry vaddr)

/-- A page that starts a reserved block other than block 0. -/
structure OwnedPage (pmm : Pmm) (address : PtrT) : Prop where
  aligned : PageAligned address
  notNull : address ≠ 0
  reserved : pmm.Reserved (address.toNat / 4096)

/-- The directory and the tables are distinct reserved pages. -/
structure PageStructures (paging : Paging) : Prop where
  directory : OwnedPage paging.pmm paging.vmmCurrentDirectory
  absent :
    ∀ vaddr,
      ¬paging.HasTable vaddr →
      paging.directoryEntry vaddr = pteReadWrite
  table :
    ∀ vaddr,
      paging.HasTable vaddr →
      OwnedPage paging.pmm (paging.tableOf vaddr) ∧
        paging.tableOf vaddr ≠ paging.vmmCurrentDirectory
  distinct :
    ∀ first second,
      paging.HasTable first →
      paging.HasTable second →
      paging.tableOf first = paging.tableOf second →
      vmmPdIndex first = vmmPdIndex second

/-! ## Words of tables -/

/-- Table indices are 10-bit. -/
theorem vmmPtIndex_lt (vaddr : AddrT) :
    (vmmPtIndex vaddr).toNat < 1024 := by
  rw [toNat_vmmPtIndex]
  exact Nat.mod_lt _ (by omega)

/-- Directory indices are 10-bit. -/
theorem vmmPdIndex_lt (vaddr : AddrT) :
    (vmmPdIndex vaddr).toNat < 1024 := by
  have bounded := pageNumber_lt vaddr
  rw [toNat_vmmPdIndex]
  omega

/-- Pages are determined by their two indices. -/
theorem pageNumber_eq_iff (first second : AddrT) :
    pageNumber first = pageNumber second ↔
      vmmPdIndex first = vmmPdIndex second ∧
        vmmPtIndex first = vmmPtIndex second := by
  rw [← BitVec.toNat_inj, ← BitVec.toNat_inj, toNat_vmmPdIndex,
    toNat_vmmPdIndex, toNat_vmmPtIndex, toNat_vmmPtIndex]
  omega

/-- Entries of a table do not wrap around the address space. -/
theorem toNat_entryAddress
    {table : PtrT}
    (aligned : PageAligned table)
    {index : BitVec 32}
    (small : index.toNat < 1024) :
    (entryAddress table index).toNat = table.toNat + 4 * index.toNat := by
  have page := (pageAligned_iff table).mp aligned
  have bounded := table.isLt
  have four : (4 : BitVec 32).toNat = 4 := rfl
  rw [entryAddress, BitVec.toNat_add, BitVec.toNat_mul, four,
    Nat.add_mod_mod, Nat.mod_eq_of_lt (by omega)]

/-- An entry's word lies inside its table's page. -/
theorem entryAddress_room
    {table : PtrT}
    (aligned : PageAligned table)
    {index : BitVec 32}
    (small : index.toNat < 1024) :
    (entryAddress table index).toNat + 4 ≤ table.toNat + 4096 ∧
      table.toNat + 4096 ≤ 2 ^ 32 := by
  have page := (pageAligned_iff table).mp aligned
  have bounded := table.isLt
  rw [toNat_entryAddress aligned small]
  omega

/-- Distinct aligned pages do not overlap. -/
theorem pages_apart
    {first second : PtrT}
    (firstAligned : PageAligned first)
    (secondAligned : PageAligned second)
    (different : first ≠ second) :
    first.toNat + 4096 ≤ second.toNat ∨
      second.toNat + 4096 ≤ first.toNat := by
  have firstPage := (pageAligned_iff first).mp firstAligned
  have secondPage := (pageAligned_iff second).mp secondAligned
  have values : first.toNat ≠ second.toNat := by
    intro same
    exact different (BitVec.eq_of_toNat_eq same)
  omega

/-- Writing an entry changes that entry and no other. -/
theorem readWord_writeWord_entry
    (memory : Memory)
    {first second : PtrT}
    (firstAligned : PageAligned first)
    (secondAligned : PageAligned second)
    {i j : BitVec 32}
    (iSmall : i.toNat < 1024)
    (jSmall : j.toNat < 1024)
    (word : BitVec 32) :
    readWord (writeWord memory (entryAddress first i) word)
        (entryAddress second j) =
      if first = second ∧ i = j then word
      else readWord memory (entryAddress second j) := by
  split
  · rename_i same
    rw [same.1, same.2]
    exact readWord_writeWord_self _ _ _
  · rename_i different
    have firstRoom := entryAddress_room firstAligned iSmall
    have secondRoom := entryAddress_room secondAligned jSmall
    have firstValue := toNat_entryAddress firstAligned iSmall
    have secondValue := toNat_entryAddress secondAligned jSmall
    refine readWord_writeWord_of_apart memory word
      (by omega) (by omega) ?_
    by_cases sameTable : first = second
    · subst second
      have otherIndex : i.toNat ≠ j.toNat := by
        intro same
        exact different ⟨rfl, BitVec.eq_of_toNat_eq same⟩
      omega
    · have apart := pages_apart firstAligned secondAligned sameTable
      omega

/-- Every entry of a cleared table is zero. -/
theorem readWord_memset_entry
    (memory : Memory)
    {table : PtrT}
    (aligned : PageAligned table)
    {index : BitVec 32}
    (small : index.toNat < 1024) :
    readWord (memset memory table 0 4096) (entryAddress table index) =
      0 := by
  have value := toNat_entryAddress aligned small
  have room := entryAddress_room aligned small
  have cleared
      (offset : Nat)
      (bounded : offset < 4) :
      memset memory table 0 4096
          (entryAddress table index + BitVec.ofNat 32 offset) =
        0 := by
    have position :
        (entryAddress table index + BitVec.ofNat 32 offset).toNat =
          table.toNat + 4 * index.toNat + offset := by
      rw [toNat_add_ofNat offset (by omega), value]
    have length : (4096 : SizeT).toNat = 4096 := rfl
    have inside :
        (entryAddress table index + BitVec.ofNat 32 offset -
          table).toNat < (4096 : SizeT).toNat := by
      rw [BitVec.toNat_sub, position, length]
      omega
    rw [memset_apply, if_pos inside]
  have zero := cleared 0 (by omega)
  have one := cleared 1 (by omega)
  have two := cleared 2 (by omega)
  have three := cleared 3 (by omega)
  simp only [BitVec.ofNat_eq_ofNat, BitVec.add_zero] at zero one two three
  simp only [readWord, BitVec.ofNat_eq_ofNat, zero, one, two, three]
  decide

/-- Clearing a page, or its beginning, leaves other tables alone. -/
theorem readWord_memset_other
    (memory : Memory)
    {table other : PtrT}
    {length : SizeT}
    (aligned : PageAligned table)
    (otherAligned : PageAligned other)
    (different : table ≠ other)
    (inPage : length.toNat ≤ 4096)
    {index : BitVec 32}
    (small : index.toNat < 1024) :
    readWord (memset memory table 0 length) (entryAddress other index) =
      readWord memory (entryAddress other index) := by
  have page := (pageAligned_iff table).mp aligned
  have bounded := table.isLt
  have value := toNat_entryAddress otherAligned small
  have room := entryAddress_room otherAligned small
  have apart := pages_apart aligned otherAligned different
  refine readWord_of_agreeOutside
    (memset_agreeOutside memory table 0 length (by omega)) (by omega) ?_
  omega

namespace PageStructures

variable {paging : Paging}

/-- A page directory that reads the same keeps the invariant. -/
theorem of_sameDirectory
    (structures : PageStructures paging)
    {later : Paging}
    (directory :
      later.vmmCurrentDirectory = paging.vmmCurrentDirectory)
    (entries :
      ∀ vaddr, later.directoryEntry vaddr = paging.directoryEntry vaddr)
    (reserved :
      ∀ block, paging.pmm.Reserved block → later.pmm.Reserved block) :
    PageStructures later := by
  have owned
      {address : PtrT}
      (page : OwnedPage paging.pmm address) :
      OwnedPage later.pmm address :=
    ⟨page.aligned, page.notNull, reserved _ page.reserved⟩
  have hasTable
      (vaddr : AddrT) :
      later.HasTable vaddr ↔ paging.HasTable vaddr := by
    rw [Paging.HasTable, Paging.HasTable, entries]
  have tableOf
      (vaddr : AddrT) :
      later.tableOf vaddr = paging.tableOf vaddr := by
    rw [Paging.tableOf, Paging.tableOf, entries]
  refine ⟨?_, ?_, ?_, ?_⟩
  · rw [directory]
    exact owned structures.directory
  · intro vaddr missing
    rw [entries]
    exact structures.absent vaddr
      (fun present => missing ((hasTable vaddr).mpr present))
  · intro vaddr present
    have table := structures.table vaddr ((hasTable vaddr).mp present)
    rw [tableOf, directory]
    exact ⟨owned table.1, table.2⟩
  · intro first second firstPresent secondPresent same
    rw [tableOf, tableOf] at same
    exact structures.distinct first second
      ((hasTable first).mp firstPresent)
      ((hasTable second).mp secondPresent) same

/-- The address of a page's entry lies in its table. -/
theorem vmmGetPage_eq (paging : Paging) (vaddr : AddrT) :
    vmmGetPage paging vaddr =
      entryAddress (paging.tableOf vaddr) (vmmPtIndex vaddr) :=
  rfl

/-- Tables are page aligned, present or not. -/
theorem aligned_tableOf (paging : Paging) (vaddr : AddrT) :
    PageAligned (paging.tableOf vaddr) :=
  pageAligned_vmmPagePhysicalAddress _

/-- The entry of a page with a table is the word in that table. -/
theorem pageEntry_of_hasTable
    {vaddr : AddrT}
    (present : paging.HasTable vaddr) :
    paging.pageEntry vaddr =
      readWord paging.memory
        (entryAddress (paging.tableOf vaddr) (vmmPtIndex vaddr)) :=
  if_pos present

/-- A page without a table has the zero entry. -/
theorem pageEntry_of_not_hasTable
    {vaddr : AddrT}
    (missing : ¬paging.HasTable vaddr) :
    paging.pageEntry vaddr = 0 :=
  if_neg missing

/-- The directory and the entries are words of owned pages. -/
theorem entries_of_ownedPages
    (structures : PageStructures paging)
    {later : Paging}
    (directory :
      later.vmmCurrentDirectory = paging.vmmCurrentDirectory)
    (same :
      ∀ {table : PtrT},
        OwnedPage paging.pmm table →
        ∀ {index : BitVec 32},
          index.toNat < 1024 →
          readWord later.memory (entryAddress table index) =
            readWord paging.memory (entryAddress table index)) :
    (∀ vaddr, later.directoryEntry vaddr = paging.directoryEntry vaddr) ∧
      ∀ vaddr, later.pageEntry vaddr = paging.pageEntry vaddr := by
  have entries :
      ∀ vaddr,
        later.directoryEntry vaddr = paging.directoryEntry vaddr := by
    intro vaddr
    rw [Paging.directoryEntry, Paging.directoryEntryAddress, directory,
      same structures.directory (vmmPdIndex_lt vaddr)]
    rfl
  refine ⟨entries, ?_⟩
  intro vaddr
  have hasTable : later.HasTable vaddr ↔ paging.HasTable vaddr := by
    rw [Paging.HasTable, Paging.HasTable, entries]
  by_cases present : paging.HasTable vaddr
  · rw [pageEntry_of_hasTable (hasTable.mpr present),
      pageEntry_of_hasTable present, Paging.tableOf, entries]
    exact same (structures.table vaddr present).1 (vmmPtIndex_lt vaddr)
  · rw [pageEntry_of_not_hasTable fun held => present (hasTable.mp held),
      pageEntry_of_not_hasTable present]

/-- Writes to page 0 leave the page structures alone. -/
theorem of_nullPage
    (structures : PageStructures paging)
    {later : Paging}
    (directory :
      later.vmmCurrentDirectory = paging.vmmCurrentDirectory)
    (agree : AgreeOutside 0 4096 paging.memory later.memory)
    (reserved :
      ∀ block, paging.pmm.Reserved block → later.pmm.Reserved block) :
    PageStructures later ∧
      (∀ vaddr,
        later.directoryEntry vaddr = paging.directoryEntry vaddr) ∧
      ∀ vaddr, later.pageEntry vaddr = paging.pageEntry vaddr := by
  have same
      {table : PtrT}
      (page : OwnedPage paging.pmm table)
      {index : BitVec 32}
      (small : index.toNat < 1024) :
      readWord later.memory (entryAddress table index) =
        readWord paging.memory (entryAddress table index) := by
    have aligned := (pageAligned_iff table).mp page.aligned
    have notZero : table.toNat ≠ 0 :=
      fun zero => page.notNull (BitVec.eq_of_toNat_eq zero)
    have value := toNat_entryAddress page.aligned small
    have room := entryAddress_room page.aligned small
    exact readWord_of_agreeOutside agree (by omega) (Or.inr (by omega))
  obtain ⟨entries, pages⟩ :=
    structures.entries_of_ownedPages directory same
  exact ⟨structures.of_sameDirectory directory entries reserved,
    entries, pages⟩

/-- Writing the entry of a page updates the map at that page. -/
theorem writeEntry
    (structures : PageStructures paging)
    {target : AddrT}
    (present : paging.HasTable target)
    (word : BitVec 32) :
    let later : Paging :=
      { paging with
        memory :=
          writeWord paging.memory (vmmGetPage paging target) word }
    PageStructures later ∧
      (∀ vaddr, later.directoryEntry vaddr =
        paging.directoryEntry vaddr) ∧
      ∀ vaddr,
        later.pageEntry vaddr =
          if pageNumber vaddr = pageNumber target then word
          else paging.pageEntry vaddr := by
  intro later
  have targetTable := structures.table target present
  have entries :
      ∀ vaddr,
        later.directoryEntry vaddr = paging.directoryEntry vaddr := by
    intro vaddr
    have written :=
      readWord_writeWord_entry paging.memory
        (aligned_tableOf paging target) structures.directory.aligned
        (vmmPtIndex_lt target) (vmmPdIndex_lt vaddr) word
    rw [if_neg (fun same => targetTable.2 same.1)] at written
    exact written
  refine ⟨structures.of_sameDirectory rfl entries
    (fun _ held => held), entries, ?_⟩
  intro vaddr
  by_cases hasTable : paging.HasTable vaddr
  · have laterHasTable : later.HasTable vaddr := by
      rw [Paging.HasTable, entries]
      exact hasTable
    have sameTable : later.tableOf vaddr = paging.tableOf vaddr := by
      rw [Paging.tableOf, Paging.tableOf, entries]
    have written :=
      readWord_writeWord_entry paging.memory
        (aligned_tableOf paging target) (aligned_tableOf paging vaddr)
        (vmmPtIndex_lt target) (vmmPtIndex_lt vaddr) word
    rw [pageEntry_of_hasTable laterHasTable, sameTable,
      pageEntry_of_hasTable hasTable]
    refine written.trans ?_
    congr 1
    rw [pageNumber_eq_iff, eq_iff_iff]
    constructor
    · rintro ⟨table, index⟩
      exact
        ⟨structures.distinct vaddr target hasTable present table.symm,
          index.symm⟩
    · rintro ⟨directory, index⟩
      refine ⟨?_, index.symm⟩
      rw [Paging.tableOf, Paging.tableOf, Paging.directoryEntry,
        Paging.directoryEntry, Paging.directoryEntryAddress,
        Paging.directoryEntryAddress, directory]
  · have laterMissing : ¬later.HasTable vaddr := by
      rw [Paging.HasTable, entries]
      exact hasTable
    have otherPage : pageNumber vaddr ≠ pageNumber target := by
      intro same
      apply hasTable
      rw [Paging.HasTable, Paging.directoryEntry,
        Paging.directoryEntryAddress, ((pageNumber_eq_iff _ _).mp same).1]
      exact present
    rw [pageEntry_of_not_hasTable laterMissing, if_neg otherPage,
      pageEntry_of_not_hasTable hasTable]

end PageStructures

end HobbyOS
