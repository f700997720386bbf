import HobbyOS.Heap.SplitBounds
import HobbyOS.Heap.WellFormed

namespace HobbyOS

open Library

/-!
# Which requests end

The search of `vmm_malloc_next_block` ends on every well-formed list.  The
loops that count and map pages do not: the counter of the mapping loop is a
`uint8_t`, so it never gets through more than 255 pages.  A request ends
exactly if the block at which the search stops needs no more than these.
-/

/-- A call of `vmm_malloc_next_block` ends, that is, all of its loops do. -/
def NextBlockEnds (kernel : Kernel) (size : SizeT) : Prop :=
  ∃ fuel taken, vmmMallocNextBlock fuel kernel size = some taken

/-! ## Any memory -/

/-- The block at which the search stops needs at most 255 pages. -/
def FewPages (memory : Memory) (size : SizeT) (cur : PtrT) : Prop :=
  ∃ pages, ExtraPages memory size cur pages ∧ pages ≤ 255

/-- A call ends exactly if its search stops at a block with few pages. -/
theorem nextBlockEnds_iff
    {kernel : Kernel}
    {size : SizeT}
    (positive : 1 ≤ size.toNat) :
    NextBlockEnds kernel size ↔
      ∃ cur,
        SearchStops (initializedKernel kernel size).heap.memory size
            (initializedKernel kernel size).heap.mallocHead cur ∧
          FewPages (initializedKernel kernel size).heap.memory size cur := by
  constructor
  · rintro ⟨fuel, taken, returned⟩
    rw [vmmMallocNextBlock_eq positive] at returned
    simp only [Option.bind_eq_bind, Option.bind_eq_some_iff,
      Prod.exists] at returned
    obtain ⟨cur, found, result, later, took, _⟩ := returned
    obtain ⟨pages, extra, grew⟩ := takeBlock_grewBy took
    exact ⟨cur, searchStops_of_searchBlock found, pages, extra, grew.few⟩
  · rintro ⟨cur, stops, pages, extra, few⟩
    obtain ⟨enough, found⟩ := stops.searchBlock
    obtain ⟨result, later, took⟩ :=
      extra.takeBlock few (show pages < max enough (pages + 1) by omega)
    refine ⟨max enough (pages + 1), (result + headerSize, later), ?_⟩
    rw [vmmMallocNextBlock_eq positive, found _ (Nat.le_max_left _ _)]
    simp only [Option.bind_eq_bind, Option.bind_some, took,
      Option.pure_def]

/--
A block needs few pages if it is not grown, or if the pages that raise it to
the bound are few.
-/
theorem fewPages_iff
    {memory : Memory}
    {size : SizeT}
    {cur : PtrT} :
    FewPages memory size cur ↔
      blockSize memory cur = size ∨
        size + headerSize < blockSize memory cur ∨
        GrowthEnds (blockSize memory cur).toNat
          (growthBound memory size cur).toNat := by
  have near
      (small : ¬size + headerSize < blockSize memory cur) :
      (blockSize memory cur).toNat ≤
        (growthBound memory size cur).toNat + 12 := by
    rw [larger_iff] at small
    rw [growthBound]
    split
    · omega
    · rw [toNat_add_headerSize]
      omega
  constructor
  · rintro ⟨pages, extra, few⟩
    cases extra with
    | fits stays =>
        by_contra grows
        rw [not_or, not_or] at grows
        exact stays ⟨grows.1, grows.2.1⟩
    | grows needed least =>
        have counted :=
          (leastPages_iff (near needed.2) pages).mp ⟨least, few⟩
        exact Or.inr (Or.inr counted.1)
  · intro ends
    by_cases grows : GrowsAt memory size cur
    · have growth := (ends.resolve_left grows.1).resolve_left grows.2
      have counted := (leastPages_iff (near grows.2) _).mpr ⟨growth, rfl⟩
      exact ⟨_, .grows grows counted.1, counted.2⟩
    · exact ⟨0, .fits grows, Nat.zero_le _⟩

/-! ## Well-formed lists -/

/-- Up to 255 pages raise a block of the address space to the bound. -/
theorem growthEnds_iff
    {block bound : Nat}
    (room : block + 255 * 4096 < 2 ^ 32) :
    GrowthEnds block bound ↔ bound ≤ block + 255 * 4096 := by
  have bytes (few : pagesFor block bound ≤ 255) :
      block + pagesFor block bound * 4096 ≤ block + 255 * 4096 :=
    Nat.add_le_add_left (Nat.mul_le_mul_right 4096 few) block
  constructor
  · rintro ⟨few, _⟩
    exact Nat.le_trans (pagesFor_reaches block bound) (bytes few)
  · intro near
    have few := pagesFor_le (by decide : 1 ≤ 255) near
    exact ⟨few, Nat.lt_of_le_of_lt (bytes few) room⟩

/--
A request that stops at a block ends: the block is split as it is, in 32-bit
arithmetic, or 255 pages raise it to the size, and to a header more if it is
used.
-/
def BlockEnds (size : SizeT) (cell : Cell) : Prop :=
  (size + headerSize).toNat < cell.size ∨
    (if cell.free then size else size + headerSize).toNat ≤
      cell.size + 255 * 4096

instance (size : SizeT) (cell : Cell) : Decidable (BlockEnds size cell) :=
  inferInstanceAs (Decidable (_ ∨ _))

/-- The blocks of the heap that need few pages. -/
theorem CellHeader.fewPages_iff
    {memory : Memory}
    {address : Nat}
    {cell : Cell}
    {next : PtrT}
    {size : SizeT}
    (header : CellHeader memory address cell next)
    (above : heapStart ≤ address) :
    FewPages memory size (pointer address) ↔ BlockEnds size cell := by
  have start : heapStart = 0xF00000 := rfl
  have fits := header.1
  rw [Cell.span] at fits
  have room : cell.size + 255 * 4096 < 2 ^ 32 := by omega
  have value := header.toNat_blockSize
  have larger :
      size + headerSize < blockSize memory (pointer address) ↔
        (size + headerSize).toNat < cell.size := by
    rw [BitVec.lt_def, value]
  rw [HobbyOS.fewPages_iff, larger, value, growthEnds_iff room,
    growthBound, header.2.free, BlockEnds]
  refine or_iff_right_of_imp fun same => Or.inr ?_
  have sizeSame : cell.size = size.toNat := by
    rw [← value, same]
  split
  · omega
  · rw [toNat_add_headerSize]
    omega

/--
A request ends: at the block where its search stops, or, for a list that
starts with an empty block, on the heap that is then initialized anew.
-/
def RequestEnds (size : SizeT) (cells : List Cell) : Prop :=
  if headSize cells = 0 then
    size.toNat + 24 < 2 ^ 32 ∨ 2 ^ 32 ≤ size.toNat + 12
  else
    ∀ front cell back,
      cells = front ++ cell :: back →
      Stops size.toNat front cell back →
      BlockEnds size cell

/-- The first block of a heap needs few pages, but for twelve sizes. -/
theorem firstBlock_fewPages_iff
    {memory : Memory}
    {size : SizeT}
    (positive : 1 ≤ size.toNat)
    (header :
      Header memory (pointer heapStart)
        (initialPages size * 4096 - headerSize) true 0) :
    FewPages memory size (pointer heapStart) ↔
      size.toNat + 24 < 2 ^ 32 ∨ 2 ^ 32 ≤ size.toNat + 12 := by
  have bound := size.isLt
  have count := toNat_initialPages size
  have value := toNat_firstBlock positive
  have exactly :
      initialPages size * 4096 - headerSize = size ↔
        (initialPages size).toNat * 4096 - 12 = size.toNat := by
    rw [← value]
    exact ⟨congrArg BitVec.toNat, BitVec.eq_of_toNat_eq⟩
  rw [fewPages_iff, growthBound, header.size, header.free, if_pos rfl,
    exactly, BitVec.lt_def, toNat_add_headerSize, value]
  constructor
  · rintro (same | larger | ⟨few, room⟩)
    · omega
    · omega
    · have reaches :=
        pagesFor_reaches ((initialPages size).toNat * 4096 - 12) size.toNat
      have pages :=
        pagesFor_pos ((initialPages size).toNat * 4096 - 12) size.toNat
      omega
  · intro ends
    by_cases larger :
        (size.toNat + 12) % 2 ^ 32 <
          (initialPages size).toNat * 4096 - 12
    · exact Or.inr (Or.inl larger)
    · have onePage :
          pagesFor ((initialPages size).toNat * 4096 - 12) size.toNat = 1 :=
        if_pos (by omega)
      refine Or.inr (Or.inr ⟨?_, ?_⟩)
      · rw [onePage]
        decide
      · rw [onePage]
        omega

/-- The size of the first cell, as the source reads it. -/
theorem Segment.headSize_eq_zero_iff
    {memory : Memory}
    {address : Nat}
    {cells : List Cell}
    (segment : Segment memory 0 address cells)
    (nonempty : cells ≠ []) :
    blockSize memory (pointer address) = 0 ↔ headSize cells = 0 := by
  obtain ⟨cell, rest, rfl⟩ := List.exists_cons_of_ne_nil nonempty
  rw [headSize, ← segment.1.toNat_blockSize]
  exact BitVec.toNat_inj.symm

section Requests

variable
  {kernel : Kernel}
  {cells : List Cell}
  {size : SizeT}

/-- On a list that stays, a call ends where its search stops. -/
theorem Segment.nextBlockEnds_iff
    {memory : Memory}
    (segment : Segment memory 0 heapStart cells)
    (nonempty : cells ≠ []) :
    (∃ cur,
        SearchStops memory size (pointer heapStart) cur ∧
          FewPages memory size cur) ↔
      ∀ front cell back,
        cells = front ++ cell :: back →
        Stops size.toNat front cell back →
        BlockEnds size cell := by
  constructor
  · rintro ⟨cur, stopped, few⟩ front cell back rfl stops
    rw [stopped.unique (segment.searchStops stops)] at few
    exact (segment.from_cell.1.fewPages_iff (Nat.le_add_right _ _)).mp few
  · intro ends
    obtain ⟨front, cell, back, rfl, stops⟩ :=
      exists_stops size.toNat nonempty
    refine ⟨_, segment.searchStops stops, ?_⟩
    exact (segment.from_cell.1.fewPages_iff (Nat.le_add_right _ _)).mpr
      (ends front cell back rfl stops)

/-- A call that initializes the heap stops at its only block. -/
theorem vmmMallocInit_nextBlockEnds_iff
    (kernel : Kernel)
    (positive : 1 ≤ size.toNat) :
    (∃ cur,
        SearchStops (vmmMallocInit kernel size).heap.memory size
            (vmmMallocInit kernel size).heap.mallocHead cur ∧
          FewPages (vmmMallocInit kernel size).heap.memory size cur) ↔
      size.toNat + 24 < 2 ^ 32 ∨ 2 ^ 32 ≤ size.toNat + 12 := by
  have header := vmmMallocInit_header kernel size
  have stops :
      SearchStops (vmmMallocInit kernel size).heap.memory size
        (vmmMallocInit kernel size).heap.mallocHead
        (pointer heapStart) :=
    SearchStops.here fun passes => passes.2 header.next
  rw [← firstBlock_fewPages_iff positive header]
  constructor
  · rintro ⟨cur, stopped, few⟩
    rw [stopped.unique stops] at few
    exact few
  · intro few
    exact ⟨_, stops, few⟩

/-- A request on a list whose first block is not empty. -/
theorem WellFormedHeap.nextBlockEnds_iff
    (wellFormed : WellFormedHeap kernel.heap cells)
    (start : kernel.heap.mallocHead = pointer heapStart)
    (positive : 1 ≤ size.toNat)
    (some_ : headSize cells ≠ 0) :
    NextBlockEnds kernel size ↔
      ∀ front cell back,
        cells = front ++ cell :: back →
        Stops size.toNat front cell back →
        BlockEnds size cell := by
  have segment := wellFormed.segment
  rw [start] at segment
  have empty := segment.headSize_eq_zero_iff wellFormed.nonempty
  have stays : initializedKernel kernel size = kernel :=
    if_neg (by rw [start]; exact mt empty.mp some_)
  rw [HobbyOS.nextBlockEnds_iff positive, stays, start]
  exact segment.nextBlockEnds_iff wellFormed.nonempty

/--
A request on a well-formed list ends exactly if the block at which its search
stops is split as it is or needs at most 255 pages, whatever the physical
memory manager has to give.
-/
theorem vmmMallocNextBlock_ends_iff
    (wellFormed : WellFormedHeap kernel.heap cells)
    (start : kernel.heap.mallocHead = pointer heapStart)
    (positive : 1 ≤ size.toNat) :
    NextBlockEnds kernel size ↔ RequestEnds size cells := by
  rw [RequestEnds]
  split
  · rename_i zero
    have segment := wellFormed.segment
    rw [start] at segment
    have empty := segment.headSize_eq_zero_iff wellFormed.nonempty
    have anew : initializedKernel kernel size = vmmMallocInit kernel size :=
      if_pos (by rw [start]; exact empty.mpr zero)
    rw [HobbyOS.nextBlockEnds_iff positive, anew]
    exact vmmMallocInit_nextBlockEnds_iff kernel positive
  · rename_i some_
    exact wellFormed.nextBlockEnds_iff start positive some_

end Requests

/-- Behind three blocks, a page serves a request for 5000 bytes. -/
theorem vmmMallocNextBlock_ends_iff_onePage :
    NextBlockEnds (cellsKernel 1 threeCells) 5000 := by
  have wellFormed :=
    @wellFormedHeap_cellsKernel 1 threeCells (by decide) (by decide)
      (by decide)
  refine (vmmMallocNextBlock_ends_iff wellFormed rfl (by decide)).mpr ?_
  rw [RequestEnds, if_neg (by decide)]
  intro front cell back listed _
  have member : cell ∈ threeCells := by simp [listed]
  have ends : ∀ cell ∈ threeCells, BlockEnds 5000 cell := by decide
  exact ends cell member

/-- A request for 2 MiB on a heap of one page never ends. -/
theorem vmmMallocNextBlock_ends_fails :
    ¬∃ paging : Paging,
        ∀ (heap : Heap) (cells : List Cell) (size : SizeT),
          WellFormedHeap heap cells →
          heap.mallocHead = pointer heapStart →
          1 ≤ size.toNat →
          NextBlockEnds ⟨paging, heap⟩ size := by
  rintro ⟨paging, claimed⟩
  have wellFormed :=
    @wellFormedHeap_cellsKernel 1 [⟨4084, true⟩] (by decide) (by decide)
      (by decide)
  have ends :=
    (@WellFormedHeap.nextBlockEnds_iff
      ⟨paging, (cellsKernel 1 [⟨4084, true⟩]).heap⟩ _ 0x200000
      wellFormed rfl (by decide) (by decide)).mp
      (claimed _ _ 0x200000 wellFormed rfl (by decide))
  exact absurd (ends [] ⟨4084, true⟩ [] rfl ⟨by simp, Or.inl rfl⟩)
    (by decide)

end HobbyOS
