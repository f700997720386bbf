import HobbyOS.PhysicalMemory.Manager
import HobbyOS.VirtualMemory.Entry

namespace HobbyOS

open Library

/-!
# Paging

The paging part of `virtual_memory_manager.c` over an explicit state.  The
page directory and the page tables are read and written through pointers
that hold their physical addresses, so the memory here is physical memory.
-/

/-- Physical memory, the block manager and `vmm_currentDirectory`. -/
structure Paging where
  memory : Memory
  pmm : Pmm
  vmmCurrentDirectory : PtrT

/-- Address of an entry of a page directory or a page table. -/
def entryAddress (table : PtrT) (index : BitVec 32) : PtrT :=
  table + 4 * index

/-- `&vmm_currentDirectory->entries[VMM_PD_INDEX(vaddr)]`. -/
def Paging.directoryEntryAddress
    (paging : Paging)
    (vaddr : AddrT) :
    PtrT :=
  entryAddress paging.vmmCurrentDirectory (vmmPdIndex vaddr)

/-- `vmm_get_page`. -/
def vmmGetPage (paging : Paging) (vaddr : AddrT) : PtrT :=
  let entry :=
    readWord paging.memory (paging.directoryEntryAddress vaddr)
  entryAddress (vmmPagePhysicalAddress entry) (vmmPtIndex vaddr)

/-- `vmm_allocate_page`. -/
def vmmAllocatePage (paging : Paging) (page : PtrT) : PtrT × Paging :=
  let (block, pmm) := pmmAllocateBlocks paging.pmm 1
  if block = 0 then
    (block, { paging with pmm := pmm })
  else
    let memory := modifyWord paging.memory page (vmmSetFrame block)
    let memory := modifyWord memory page (vmmSetAttribute ptePresent)
    (block, { paging with memory := memory, pmm := pmm })

/-- `vmm_free_page`. -/
def vmmFreePage (paging : Paging) (page : PtrT) : Paging :=
  let address := vmmPagePhysicalAddress (readWord paging.memory page)
  { paging with
    pmm :=
      if address = 0 then paging.pmm
      else pmmFreeBlocks paging.pmm address 1
    memory :=
      modifyWord paging.memory page (vmmClearAttribute ptePresent) }

/-- `vmm_set_page_directory`. -/
def vmmSetPageDirectory (paging : Paging) (pd : PtrT) : Bool × Paging :=
  if pd = 0 then (false, paging)
  else (true, { paging with vmmCurrentDirectory := pd })

/-- The branch of `vmm_map_page` that creates the missing page table. -/
def createTable (paging : Paging) (entry : PtrT) : Bool × Paging :=
  let (table, pmm) := pmmAllocateBlocks paging.pmm 1
  if table = 0 then
    (false, { paging with pmm := pmm })
  else
    let memory := memset paging.memory table 0 4096
    let memory := modifyWord memory entry (vmmSetAttribute ptePresent)
    let memory := modifyWord memory entry (vmmSetAttribute pteReadWrite)
    let memory := modifyWord memory entry (vmmSetFrame table)
    (true, { paging with memory := memory, pmm := pmm })

/-- The end of `vmm_map_page`, which writes the entry of the page. -/
def writePage
    (paging : Paging)
    (physicalAddress virtualAddress : PtrT) :
    Paging :=
  let page := vmmGetPage paging virtualAddress
  let memory :=
    modifyWord paging.memory page (vmmSetAttribute ptePresent)
  let memory := modifyWord memory page (vmmSetFrame physicalAddress)
  { paging with memory := memory }

/-- `vmm_map_page`. -/
def vmmMapPage
    (paging : Paging)
    (physicalAddress virtualAddress : PtrT) :
    Bool × Paging :=
  let entry := paging.directoryEntryAddress virtualAddress
  if vmmTestAttribute ptePresent (readWord paging.memory entry) then
    (true, writePage paging physicalAddress virtualAddress)
  else
    let (created, paging) := createTable paging entry
    if created then
      (true, writePage paging physicalAddress virtualAddress)
    else
      (false, paging)

/-- `vmm_unmap_page`. -/
def vmmUnmapPage (paging : Paging) (vaddr : PtrT) : Paging :=
  let page := vmmGetPage paging vaddr
  let memory := modifyWord paging.memory page (vmmSetFrame 0)
  let memory :=
    modifyWord memory page (vmmClearAttribute ptePresent)
  { paging with memory := memory }

/-- The loop that makes the first `count` directory entries not present. -/
def directoryEntries (memory : Memory) (dir : PtrT) : Nat → Memory
  | 0 => memory
  | count + 1 =>
      writeWord (directoryEntries memory dir count)
        (entryAddress dir (BitVec.ofNat 32 count)) pteReadWrite

/-- The entry that maps the `i`-th page to the frame of the same number. -/
def identityEntry (i : Nat) : BitVec 32 :=
  vmmSetFrame (BitVec.ofNat 32 (i * 4096))
    (vmmSetAttribute pteReadWrite (vmmSetAttribute ptePresent 0))

/-- The loop that maps the first `count` pages to themselves. -/
def identityEntries (memory : Memory) (table : PtrT) : Nat → Memory
  | 0 => memory
  | count + 1 =>
      writeWord (identityEntries memory table count)
        (entryAddress table (vmmPtIndex (BitVec.ofNat 32 (count * 4096))))
        (identityEntry count)

/-- The last writes of the initialization, once its blocks are allocated. -/
def fillTables
    (memory : Memory)
    (dir table table3GB : PtrT) :
    Memory :=
  let memory := memset memory table 0 4096
  let memory := memset memory table3GB 0 4096
  let memory := identityEntries memory table3GB 1024
  let entry := entryAddress dir (vmmPdIndex 0)
  let memory := modifyWord memory entry (vmmSetAttribute ptePresent)
  let memory := modifyWord memory entry (vmmSetAttribute pteReadWrite)
  modifyWord memory entry (vmmSetFrame table3GB)

/-- `initialize_virtual_memory_manager`. -/
def initializeVirtualMemoryManager (paging : Paging) : Bool × Paging :=
  let (dir, pmm) := pmmAllocateBlocks paging.pmm 3
  if dir = 0 then
    (false, { paging with pmm := pmm })
  else
    let memory := memset paging.memory dir 0 4096
    let memory := directoryEntries memory dir 1024
    let (table, pmm) := pmmAllocateBlocks pmm 1
    if table = 0 then
      (false, { paging with memory := memory, pmm := pmm })
    else
      let (table3GB, pmm) := pmmAllocateBlocks pmm 1
      if table3GB = 0 then
        (false, { paging with memory := memory, pmm := pmm })
      else
        let memory := fillTables memory dir table table3GB
        let (_, paging) :=
          vmmSetPageDirectory
            { paging with memory := memory, pmm := pmm } dir
        (true, paging)

/-- The page walk of the processor: the entry word that maps a page. -/
def Paging.pageEntry (paging : Paging) (vaddr : AddrT) : BitVec 32 :=
  if vmmTestAttribute ptePresent
      (readWord paging.memory (paging.directoryEntryAddress vaddr)) then
    readWord paging.memory (vmmGetPage paging vaddr)
  else
    0

/-- The frame that the current directory maps an address to, if any. -/
def Paging.walk (paging : Paging) (vaddr : AddrT) : Option PtrT :=
  if vmmTestAttribute ptePresent (paging.pageEntry vaddr) then
    some (vmmPagePhysicalAddress (paging.pageEntry vaddr))
  else
    none

end HobbyOS
