import HobbyOS.VirtualMemory.Paging
import HobbyOS.Heap.Block

namespace HobbyOS

open Library

/-!
# The kernel heap

The `vmm_malloc` functions of `virtual_memory_manager.c` over an explicit
state.  Block headers are accessed through virtual addresses, page tables
through physical ones, so the state has a memory of each kind.

The loops of the source may not end: the list can be circular, and the
counter `i` of the loop that maps new pages is a `uint8_t`.  They take fuel,
and a call that returns is one that returns for some fuel.
-/

/-- The heap variables, and the virtual memory that holds the headers. -/
structure Heap where
  memory : Memory
  mallocHead : PtrT
  mallocVaddr : PtrT
  totalMallocPages : SizeT

/-- The state that the heap functions work on. -/
structure Kernel where
  paging : Paging
  heap : Heap

/-- The body of the loop in `vmm_malloc_init`, for the page at `vaddr`. -/
def mallocInitPage (paging : Paging) (vaddr : PtrT) : Paging :=
  let page := vmmGetPage paging vaddr
  let (paddr, paging) := vmmAllocatePage paging page
  let memory := modifyWord paging.memory page (vmmSetAttribute pteReadWrite)
  let (_, paging) := vmmMapPage { paging with memory := memory } paddr vaddr
  paging

/-- The body of the page loop in `vmm_malloc_next_block`. -/
def mallocGrowPage (paging : Paging) (vaddr : PtrT) : Paging :=
  let page := vmmGetPage paging vaddr
  let (paddr, paging) := vmmAllocatePage paging page
  let (_, paging) := vmmMapPage paging paddr vaddr
  { paging with
    memory :=
      modifyWord paging.memory page (vmmSetAttribute pteReadWrite) }

/-- The page loop of `vmm_malloc_init`, over its first `count` pages. -/
def mallocInitPages (paging : Paging) (vaddr : PtrT) : Nat → Paging
  | 0 => paging
  | count + 1 =>
      mallocInitPage (mallocInitPages paging vaddr count)
        (vaddr + BitVec.ofNat 32 count * 4096)

/-- The page loop of `vmm_malloc_next_block`, from counter `i` on. -/
def mallocGrowPages
    (endAddress : PtrT)
    (additionalPages : SizeT) :
    Nat → BitVec 8 → Paging → Option Paging
  | 0, _, _ => none
  | fuel + 1, i, paging =>
      if i.setWidth 32 < additionalPages then
        mallocGrowPages endAddress additionalPages fuel (i + 1)
          (mallocGrowPage paging (endAddress + i.setWidth 32 * 4096))
      else
        some paging

/-- The number of pages that hold `size` bytes, as initialized. -/
def initialPages (size : SizeT) : SizeT :=
  if size % 4096 ≠ 0 then size / 4096 + 1 else size / 4096

/-- `vmm_malloc_init`. -/
def vmmMallocInit (kernel : Kernel) (size : SizeT) : Kernel :=
  let vaddr : PtrT := 0xF00000
  let pages := initialPages size
  let memory := kernel.heap.memory
  let memory := setBlockSize memory vaddr (pages * 4096 - headerSize)
  let memory := setBlockFree memory vaddr true
  let memory := setBlockNext memory vaddr 0
  { paging := mallocInitPages kernel.paging vaddr pages.toNat
    heap :=
      { memory := memory
        mallocHead := vaddr
        mallocVaddr := vaddr
        totalMallocPages := pages } }

/-- `vmm_malloc_split`. -/
def vmmMallocSplit
    (memory : Memory)
    (before : PtrT)
    (size : SizeT) :
    Memory :=
  let after := before + headerSize + size
  let memory :=
    setBlockSize memory after (blockSize memory before - size - headerSize)
  let memory := setBlockFree memory after true
  let memory := setBlockNext memory after (blockNext memory before)
  let memory := setBlockSize memory before size
  let memory := setBlockFree memory before false
  setBlockNext memory before after

/-- The search loop of `vmm_malloc_next_block`, from block `cur` on. -/
def searchBlock
    (memory : Memory)
    (size : SizeT) :
    Nat → PtrT → Option PtrT
  | 0, _ => none
  | fuel + 1, cur =>
      if (blockSize memory cur < size ∨ blockFree memory cur = false) ∧
          blockNext memory cur ≠ 0 then
        searchBlock memory size fuel (blockNext memory cur)
      else
        some cur

/-- The loops that count `additional_pages` up until `bound` is reached. -/
def countPages
    (curSize bound : SizeT) :
    Nat → SizeT → Option SizeT
  | 0, _ => none
  | fuel + 1, additionalPages =>
      if curSize + additionalPages * 4096 < bound then
        countPages curSize bound fuel (additionalPages + 1)
      else
        some additionalPages

/-- The growth branch of `vmm_malloc_next_block`, at the block `cur`. -/
def growHeap
    (fuel : Nat)
    (kernel : Kernel)
    (cur : PtrT)
    (size : SizeT) :
    Option (PtrT × Kernel) := do
  let heap := kernel.heap
  let curSize := blockSize heap.memory cur
  let free := blockFree heap.memory cur
  let additionalPages ←
    countPages curSize (if free then size else size + headerSize) fuel 1
  let endAddress := heap.mallocVaddr + heap.totalMallocPages * 4096
  let paging ←
    mallocGrowPages endAddress additionalPages fuel 0 kernel.paging
  let grown :=
    { heap with
      totalMallocPages := heap.totalMallocPages + additionalPages }
  if free then
    let memory :=
      setBlockSize heap.memory cur (curSize + additionalPages * 4096)
    let memory := vmmMallocSplit memory cur size
    return (cur, ⟨paging, { grown with memory := memory }⟩)
  else
    let memory :=
      setBlockSize heap.memory endAddress (additionalPages * 4096)
    let memory := setBlockFree memory endAddress true
    let memory := setBlockNext memory endAddress 0
    let memory := vmmMallocSplit memory endAddress size
    return (endAddress, ⟨paging, { grown with memory := memory }⟩)

/-- The rest of `vmm_malloc_next_block`, once the search stopped at `cur`. -/
def takeBlock
    (fuel : Nat)
    (kernel : Kernel)
    (cur : PtrT)
    (size : SizeT) :
    Option (PtrT × Kernel) :=
  let memory := kernel.heap.memory
  if blockSize memory cur = size then
    some (cur,
      { kernel with
        heap :=
          { kernel.heap with memory := setBlockFree memory cur false } })
  else if size + headerSize < blockSize memory cur then
    some (cur,
      { kernel with
        heap :=
          { kernel.heap with memory := vmmMallocSplit memory cur size } })
  else
    growHeap fuel kernel cur size

/-- `vmm_malloc_next_block`. -/
def vmmMallocNextBlock
    (fuel : Nat)
    (kernel : Kernel)
    (size : SizeT) :
    Option (PtrT × Kernel) :=
  if size = 0 then
    some (0, kernel)
  else do
    let kernel :=
      if blockSize kernel.heap.memory kernel.heap.mallocHead = 0 then
        vmmMallocInit kernel size
      else
        kernel
    let cur ←
      searchBlock kernel.heap.memory size fuel kernel.heap.mallocHead
    let (cur, kernel) ← takeBlock fuel kernel cur size
    return (cur + headerSize, kernel)

/-- `into` takes over the bytes of `block` and the rest of its list. -/
def mergeBlock (memory : Memory) (into block : PtrT) : Memory :=
  let memory :=
    setBlockSize memory into
      (blockSize memory into + (blockSize memory block + headerSize))
  setBlockNext memory into (blockNext memory block)

/-- The inner loops that merge the free blocks after `cur` into it. -/
def mergeFree (memory : Memory) (cur : PtrT) : Nat → Option Memory
  | 0 => none
  | fuel + 1 =>
      if blockFree memory (blockNext memory cur) then
        let memory := mergeBlock memory cur (blockNext memory cur)
        if blockNext memory cur = 0 then some memory
        else mergeFree memory cur fuel
      else
        some memory

/-- The loop of `vmm_malloc_defrag`, from block `cur` on. -/
def defragFrom : Nat → Memory → PtrT → Option Memory
  | 0, _, _ => none
  | fuel + 1, memory, cur =>
      if blockNext memory cur = 0 then
        some memory
      else do
        let memory ←
          if blockFree memory cur then mergeFree memory cur fuel
          else some memory
        defragFrom fuel memory (blockNext memory cur)

/-- `vmm_malloc_defrag`. -/
def vmmMallocDefrag (fuel : Nat) (kernel : Kernel) : Option Kernel :=
  if kernel.heap.mallocHead = 0 then
    some kernel
  else do
    let memory ←
      defragFrom fuel kernel.heap.memory kernel.heap.mallocHead
    return { kernel with heap := { kernel.heap with memory := memory } }

/-- What `vmm_malloc_free` does with the block it was looking for. -/
def releaseBlock
    (fuel : Nat)
    (memory : Memory)
    (cur prev : PtrT) :
    Option (Memory × PtrT) := do
  let memory := setBlockFree memory cur true
  let (memory, cur) :=
    if prev ≠ 0 ∧ blockFree memory prev then
      (mergeBlock memory prev cur, prev)
    else
      (memory, cur)
  if blockNext memory cur ≠ 0 then
    let memory ← mergeFree memory cur fuel
    return (memory, cur)
  else
    return (memory, cur)

/-- The loop of `vmm_malloc_free`, from block `cur` after `prev` on. -/
def freeFrom (ptr : PtrT) :
    Nat → Memory → PtrT → PtrT → Option Memory
  | 0, _, _, _ => none
  | fuel + 1, memory, cur, prev =>
      if blockNext memory cur = 0 then
        some memory
      else if cur + headerSize = ptr then do
        let (memory, cur) ← releaseBlock fuel memory cur prev
        freeFrom ptr fuel memory (blockNext memory cur) cur
      else
        freeFrom ptr fuel memory (blockNext memory cur) cur

/-- `vmm_malloc_free`. -/
def vmmMallocFree
    (fuel : Nat)
    (kernel : Kernel)
    (ptr : PtrT) :
    Option Kernel := do
  let memory ←
    freeFrom ptr fuel kernel.heap.memory kernel.heap.mallocHead 0
  return { kernel with heap := { kernel.heap with memory := memory } }

end HobbyOS
