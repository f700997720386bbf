import HobbyOS.Heap.Dereferences
import HobbyOS.Heap.Placement

namespace HobbyOS

open Library

/-!
# Well-formed heaps

The block list starts at the first page of the heap, and its blocks cover the
pages of the heap without gaps.  Where the heap lies, how many blocks it has
and which of them are free is left open.
-/

/-- The cells tile the pages of a heap above the null pointer. -/
structure WellFormedHeap (heap : Heap) (cells : List Cell) : Prop where
  nonempty : cells ≠ []
  head : heap.mallocHead = heap.mallocVaddr
  notNull : heap.mallocHead ≠ 0
  segment : Segment heap.memory 0 heap.mallocHead.toNat cells
  ends : heap.mallocHead.toNat + totalSpan cells = heap.endAddress

/-- The heap with another content of its pages. -/
def Heap.withMemory (heap : Heap) (memory : Memory) : Heap :=
  { heap with memory := memory }

/-- The same heap variables, with another content of the heap's pages. -/
def Kernel.withMemory (kernel : Kernel) (memory : Memory) : Kernel :=
  { kernel with heap := kernel.heap.withMemory memory }

namespace WellFormedHeap

variable
  {heap : Heap}
  {memory : Memory}
  {cells later : List Cell}

/-- The head as the pointer to its own address. -/
theorem pointer_head (heap : Heap) :
    pointer heap.mallocHead.toNat = heap.mallocHead := by
  rw [pointer, BitVec.ofNat_toNat, BitVec.setWidth_eq]

/-- The list starts above the null pointer. -/
theorem head_pos
    (wellFormed : WellFormedHeap heap cells) :
    0 < heap.mallocHead.toNat := by
  refine Nat.pos_of_ne_zero fun zero => wellFormed.notNull ?_
  exact BitVec.eq_of_toNat_eq zero

/-- Other cells that tile the same range. -/
theorem withMemory
    (wellFormed : WellFormedHeap heap cells)
    (nonempty : later ≠ [])
    (segment : Segment memory 0 heap.mallocHead.toNat later)
    (span : totalSpan later = totalSpan cells) :
    WellFormedHeap (heap.withMemory memory) later where
  nonempty := nonempty
  head := wellFormed.head
  notNull := wellFormed.notNull
  segment := segment
  ends := by
    rw [span]
    exact wellFormed.ends

end WellFormedHeap

/-- A list that tiles an initialized heap is well-formed. -/
theorem ListTiles.wellFormed
    {kernel : Kernel}
    {cells : List Cell}
    (tiles : ListTiles kernel cells) :
    WellFormedHeap kernel.heap cells where
  nonempty := tiles.nonempty
  head := tiles.head.trans tiles.vaddr.symm
  notNull := by
    rw [tiles.head]
    decide
  segment := by
    rw [tiles.head]
    exact tiles.segment
  ends := by
    rw [tiles.head]
    exact tiles.ends

/-! ## Heaps with given cells -/

/-- Cells that tile the pages of a heap make it well-formed. -/
theorem wellFormedHeap_cellsKernel
    {pages : SizeT}
    {cells : List Cell}
    (nonempty : cells ≠ [])
    (tiles : totalSpan cells = pages.toNat * 4096)
    (fits : heapStart + totalSpan cells ≤ 2 ^ 32) :
    WellFormedHeap (cellsKernel pages cells).heap cells where
  nonempty := nonempty
  head := rfl
  notNull := by
    show pointer heapStart ≠ 0
    decide
  segment := (segment_writeCells _ fits).1
  ends := congrArg (heapStart + ·) tiles

end HobbyOS
