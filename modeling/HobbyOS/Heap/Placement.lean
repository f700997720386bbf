import HobbyOS.Heap.Exhaustion
import HobbyOS.Heap.Tiling

namespace HobbyOS

open Library

/-!
# Where a request is placed

The search stops at the first free block that is not smaller than the
request, or at the last block.  The block is taken if its size is the
request's, split if it is larger by more than a header, and otherwise the heap
is grown, which the source expects to happen at the last block only.  A free
block that is larger by at most a header is near enough to stop the search and
too small to be split, wherever it is in the list.
-/

/--
The list that starts at the first page tiles the pages of an initialized heap.
An empty first block is what the source takes for a heap without a list.
-/
structure ListTiles (kernel : Kernel) (cells : List Cell) : Prop where
  head : kernel.heap.mallocHead = pointer heapStart
  vaddr : kernel.heap.mallocVaddr = pointer heapStart
  segment : Segment kernel.heap.memory 0 heapStart cells
  initialized : 1 ≤ headSize cells
  ends : listEnd cells = kernel.heap.endAddress

/-- A block can serve a request: it is free, and of the size or splittable. -/
def Cell.Serves (size : Nat) (cell : Cell) : Prop :=
  cell.free = true ∧ (cell.size = size ∨ size + 12 < cell.size)

/--
A request that a free block can serve is served from such a block, without
adding pages and without writing outside of the block.
-/
def ServesInPlace
    (kernel : Kernel)
    (cells : List Cell)
    (size : SizeT) :
    Prop :=
  (∃ cell ∈ cells, cell.Serves size.toNat) →
    ∃ fuel result later front cell back,
      vmmMallocNextBlock fuel kernel size = some (result, later) ∧
        cells = front ++ cell :: back ∧
        cell.Serves size.toNat ∧
        result = pointer (heapStart + totalSpan front) + headerSize ∧
        later.paging = kernel.paging ∧
        later.heap.totalMallocPages = kernel.heap.totalMallocPages ∧
        AgreeOutside
          (heapStart + totalSpan front)
          (heapStart + totalSpan front + cell.span)
          kernel.heap.memory later.heap.memory

/--
A request that adds pages enlarges the last block of the list, or puts a block
of its own behind it when it is used.
-/
def GrowsAtEnd
    (kernel : Kernel)
    (cells : List Cell)
    (size : SizeT) :
    Prop :=
  ∀ fuel result later,
    vmmMallocNextBlock fuel kernel size = some (result, later) →
    later.heap.totalMallocPages ≠ kernel.heap.totalMallocPages →
    ∃ front last,
      cells = front ++ [last] ∧
        result =
          (if last.free then pointer (heapStart + totalSpan front)
            else pointer (listEnd cells)) + headerSize

/--
The first free block that is not smaller than the request serves it, or is
the last block of the list.
-/
def FirstFitServes (cells : List Cell) (size : Nat) : Prop :=
  ∀ front cell back,
    cells = front ++ cell :: back →
    (∀ earlier ∈ front, earlier.size < size ∨ earlier.free = false) →
    cell.free = true →
    size ≤ cell.size →
    cell.Serves size ∨ back = []

/-! ## The search -/

/-- Every list that is not empty has a block at which the search stops. -/
theorem exists_stops
    (size : Nat)
    {cells : List Cell}
    (nonempty : cells ≠ []) :
    ∃ front cell back,
      cells = front ++ cell :: back ∧ Stops size front cell back := by
  induction cells with
  | nil =>
      exact (nonempty rfl).elim
  | cons first rest inductionHypothesis =>
      by_cases fits : size ≤ first.size ∧ first.free = true
      · exact ⟨[], first, rest, rfl, by simp, Or.inr fits⟩
      · by_cases more : rest = []
        · exact ⟨[], first, rest, rfl, by simp, Or.inl more⟩
        · obtain ⟨front, cell, back, rfl, stops⟩ :=
            inductionHypothesis more
          refine ⟨first :: front, cell, back, rfl, ?_, stops.stopped⟩
          intro earlier member
          rcases List.mem_cons.mp member with rfl | member
          · rw [not_and_or, Nat.not_le, Bool.not_eq_true] at fits
            exact fits
          · exact stops.passed earlier member

/-- The search passes the front of the list and stops at the block. -/
theorem Segment.searchStops
    {memory : Memory}
    {size : SizeT}
    {address : Nat}
    {front back : List Cell}
    {cell : Cell}
    (segment : Segment memory 0 address (front ++ cell :: back))
    (stops : Stops size.toNat front cell back) :
    SearchStops memory size (pointer address)
      (pointer (address + totalSpan front)) :=
  searchStops_of_searchBlock
    (searchBlock_of_stops segment stops (Nat.lt_succ_self _))

namespace ListTiles

variable
  {kernel later : Kernel}
  {cells front back : List Cell}
  {cell : Cell}
  {size : SizeT}
  {fuel : Nat}
  {result : PtrT}

/-- There is at least one block. -/
theorem nonempty (tiles : ListTiles kernel cells) : cells ≠ [] := by
  rintro rfl
  exact Nat.not_lt_zero 0 tiles.initialized

/-- The heap is not initialized again. -/
theorem initializedKernel
    (tiles : ListTiles kernel cells)
    (size : SizeT) :
    HobbyOS.initializedKernel kernel size = kernel := by
  have initialized := tiles.initialized
  have segment := tiles.segment
  refine if_neg ?_
  rw [tiles.head]
  cases cells with
  | nil =>
      exact (tiles.nonempty rfl).elim
  | cons first rest =>
      intro empty
      have value := segment.1.toNat_blockSize
      rw [empty] at value
      have none : 0 = first.size := value
      have some_ : 1 ≤ first.size := initialized
      omega

/-- A call takes the block at which its search stops. -/
theorem call_eq
    (tiles : ListTiles kernel cells)
    (positive : 1 ≤ size.toNat)
    (listed : cells = front ++ cell :: back)
    (stops : Stops size.toNat front cell back) :
    ∃ enough, ∀ fuel ≥ enough,
      vmmMallocNextBlock fuel kernel size =
        (takeBlock fuel kernel (pointer (heapStart + totalSpan front))
          size).map fun taken => (taken.1 + headerSize, taken.2) := by
  have segment := tiles.segment
  rw [listed] at segment
  obtain ⟨enough, found⟩ := (segment.searchStops stops).searchBlock
  refine ⟨enough, ?_⟩
  intro fuel fueled
  rw [vmmMallocNextBlock_eq positive, tiles.initializedKernel, tiles.head,
    found fuel fueled]
  simp only [Option.bind_eq_bind, Option.bind_some, Option.pure_def]
  cases takeBlock fuel kernel (pointer (heapStart + totalSpan front))
    size with
  | none => rfl
  | some taken => rfl

/-- A call that returns has taken the block at which its search stopped. -/
theorem call
    (tiles : ListTiles kernel cells)
    (positive : 1 ≤ size.toNat)
    (returned :
      vmmMallocNextBlock fuel kernel size = some (result, later)) :
    ∃ front cell back cur,
      cells = front ++ cell :: back ∧
        Stops size.toNat front cell back ∧
        result = cur + headerSize ∧
        takeBlock fuel kernel (pointer (heapStart + totalSpan front))
            size =
          some (cur, later) := by
  rw [vmmMallocNextBlock_eq positive, tiles.initializedKernel]
    at returned
  simp only [Option.bind_eq_bind, Option.bind_eq_some_iff,
    Option.pure_def, Option.some.injEq, Prod.mk.injEq, Prod.exists]
    at returned
  obtain ⟨stop, found, cur, kernel', taken, rfl, rfl⟩ := returned
  rw [tiles.head] at found
  obtain ⟨front, cell, back, listed, rfl, stops⟩ :=
    searchBlock_stops tiles.segment tiles.nonempty found
  exact ⟨front, cell, back, cur, listed, stops, rfl, taken⟩

end ListTiles

/-! ## Blocks that are taken in place -/

section Take

variable
  {kernel later : Kernel}
  {size : SizeT}
  {fuel address : Nat}
  {cur result : PtrT}
  {cell : Cell}
  {back : List Cell}

/-- A block that serves a request is taken without growing the heap. -/
theorem takeBlock_serves
    (segment :
      Segment kernel.heap.memory 0 address (cell :: back))
    (serves : cell.Serves size.toNat)
    (fuel : Nat) :
    ∃ later,
      takeBlock fuel kernel (pointer address) size =
          some (pointer address, later) ∧
        later.paging = kernel.paging ∧
        later.heap.totalMallocPages = kernel.heap.totalMallocPages ∧
        AgreeOutside address (address + cell.span)
          kernel.heap.memory later.heap.memory := by
  have header := segment.1
  have sizeValue := header.toNat_blockSize
  rcases serves.2 with same | larger
  · have exactly :
        blockSize kernel.heap.memory (pointer address) = size := by
      apply BitVec.eq_of_toNat_eq
      rw [sizeValue, same]
    have outside :=
      setBlockFree_agreeOutside kernel.heap.memory false header.2.room
    rw [header.toNat_pointer] at outside
    refine ⟨_, if_pos exactly, rfl, rfl, ?_⟩
    refine outside.mono (Nat.le_refl _) ?_
    unfold Cell.span
    omega
  · refine ⟨_, takeBlock_larger segment larger fuel, rfl, rfl, ?_⟩
    exact (vmmMallocSplit_segment segment (Nat.le_of_lt larger)).2

/-- The block that growth hands out. -/
theorem growHeap_result
    (returned : growHeap fuel kernel cur size = some (result, later)) :
    result =
      if blockFree kernel.heap.memory cur then cur
      else kernel.heap.endPointer := by
  simp only [growHeap, Option.bind_eq_bind, Option.bind_eq_some_iff,
    Option.pure_def] at returned
  obtain ⟨_, _, _, _, finished⟩ := returned
  split at finished
  · rename_i free
    rw [Option.some.injEq, Prod.mk.injEq] at finished
    rw [if_pos free, finished.1]
  · rename_i used
    rw [Option.some.injEq, Prod.mk.injEq] at finished
    rw [if_neg used, Heap.endPointer, finished.1]

/-- A block that is taken with further pages has grown the heap. -/
theorem takeBlock_grows
    (returned : takeBlock fuel kernel cur size = some (result, later))
    (added :
      later.heap.totalMallocPages ≠ kernel.heap.totalMallocPages) :
    GrowsAt kernel.heap.memory size cur ∧
      growHeap fuel kernel cur size = some (result, later) := by
  unfold takeBlock at returned
  dsimp only at returned
  split at returned
  · rw [Option.some.injEq, Prod.mk.injEq] at returned
    obtain ⟨_, rfl⟩ := returned
    exact (added rfl).elim
  · rename_i different
    split at returned
    · rw [Option.some.injEq, Prod.mk.injEq] at returned
      obtain ⟨_, rfl⟩ := returned
      exact (added rfl).elim
    · rename_i small
      exact ⟨⟨different, small⟩, returned⟩

end Take

/-! ## The condition is enough -/

section Calls

variable
  {kernel : Kernel}
  {cells : List Cell}
  {size : SizeT}

/-- The block at which the search stops serves, if any block does. -/
theorem FirstFitServes.stop_serves
    {size : Nat}
    {front back : List Cell}
    {cell : Cell}
    (serves : FirstFitServes (front ++ cell :: back) size)
    (stops : Stops size front cell back)
    (some_ : ∃ other ∈ front ++ cell :: back, other.Serves size) :
    cell.Serves size := by
  obtain ⟨other, member, otherServes⟩ := some_
  have large : size ≤ other.size := by
    rcases otherServes.2 with same | larger <;> omega
  have notPassed : other ∉ front := by
    intro inFront
    rcases stops.passed other inFront with small | used
    · omega
    · rw [otherServes.1] at used
      contradiction
  rcases stops.stopped with last | ⟨fits, free⟩
  · subst last
    have same : other = cell := by
      simpa [notPassed] using member
    rwa [← same]
  · rcases serves front cell back rfl stops.passed free fits with
      here | last
    · exact here
    · subst last
      have same : other = cell := by
        simpa [notPassed] using member
      rwa [← same]

/-- Where the first fit serves, a request is served in place. -/
theorem ListTiles.servesInPlace
    (tiles : ListTiles kernel cells)
    (positive : 1 ≤ size.toNat)
    (serves : FirstFitServes cells size.toNat) :
    ServesInPlace kernel cells size := by
  intro some_
  obtain ⟨front, cell, back, listed, stops⟩ :=
    exists_stops size.toNat tiles.nonempty
  obtain ⟨enough, calls⟩ := tiles.call_eq positive listed stops
  subst listed
  have cellServes := serves.stop_serves stops some_
  obtain ⟨later, taken, paging, total, outside⟩ :=
    takeBlock_serves tiles.segment.from_cell cellServes enough
  refine ⟨enough, _, later, front, cell, back, ?_, rfl, cellServes, rfl,
    paging, total, outside⟩
  rw [calls enough (Nat.le_refl _), taken]
  rfl

/-- The end of the heap is the end of the list. -/
theorem ListTiles.endPointer
    (tiles : ListTiles kernel cells) :
    kernel.heap.endPointer = pointer (listEnd cells) := by
  rw [tiles.ends, Heap.endPointer, Heap.endAddress, pointer,
    BitVec.ofNat_add, BitVec.ofNat_mul, BitVec.ofNat_toNat,
    BitVec.ofNat_toNat, BitVec.setWidth_eq, BitVec.setWidth_eq]
  rfl

/-- Where the first fit serves, pages are added at the end only. -/
theorem ListTiles.growsAtEnd
    (tiles : ListTiles kernel cells)
    (positive : 1 ≤ size.toNat)
    (serves : FirstFitServes cells size.toNat) :
    GrowsAtEnd kernel cells size := by
  intro fuel result later returned added
  obtain ⟨front, cell, back, cur, listed, stops, rfl, taken⟩ :=
    tiles.call positive returned
  obtain ⟨needed, grown⟩ := takeBlock_grows taken added
  have block := growHeap_result grown
  have segment := tiles.segment
  rw [listed] at segment
  have header := segment.from_cell.1
  rw [header.2.free, tiles.endPointer] at block
  have last : back = [] := by
    rcases stops.stopped with last | ⟨fits, free⟩
    · exact last
    · rcases serves front cell back listed stops.passed free fits with
        here | last
      · -- A block that serves is taken in place.
        exfalso
        obtain ⟨inPlace, served, _, total, _⟩ :=
          takeBlock_serves segment.from_cell here fuel
        rw [taken, Option.some.injEq, Prod.mk.injEq] at served
        rw [served.2] at added
        exact added total
      · exact last
  subst last
  exact ⟨front, cell, listed, by rw [block]⟩

/-! ## The condition is needed -/

/-- A near fit in front of the last block is grown by one page. -/
theorem ListTiles.grows_nearFit
    (tiles : ListTiles kernel cells)
    (positive : 1 ≤ size.toNat)
    {front back : List Cell}
    {cell : Cell}
    (listed : cells = front ++ cell :: back)
    (stops : Stops size.toNat front cell back)
    (free : cell.free = true)
    (larger : size.toNat < cell.size)
    (near : cell.size ≤ size.toNat + 12) :
    ∃ fuel later,
      vmmMallocNextBlock fuel kernel size =
          some (pointer (heapStart + totalSpan front) + headerSize,
            later) ∧
        later.heap.totalMallocPages ≠ kernel.heap.totalMallocPages := by
  have segment := tiles.segment
  rw [listed] at segment
  have header := segment.from_cell.1
  have fits := header.1
  have start : heapStart = 0xF00000 := rfl
  unfold Cell.span at fits
  have sizeValue := header.toNat_blockSize
  have needed :
      GrowsAt kernel.heap.memory size
        (pointer (heapStart + totalSpan front)) := by
    refine ⟨?_, ?_⟩
    · intro same
      rw [same] at sizeValue
      omega
    · have sum : (size + headerSize).toNat = size.toNat + 12 :=
        toNat_add_ofNat 12 (by omega)
      rw [BitVec.lt_def, sum, sizeValue]
      omega
  have onePage :
      pagesFor
          (blockSize kernel.heap.memory
            (pointer (heapStart + totalSpan front))).toNat
          size.toNat = 1 := by
    rw [pagesFor, if_pos (by omega)]
  have least :
      LeastPages
        (blockSize kernel.heap.memory
          (pointer (heapStart + totalSpan front)))
        size 1 := by
    rw [← onePage]
    refine leastPages_pagesFor ?_
    rw [onePage, sizeValue]
    omega
  have bound :
      growthBound kernel.heap.memory size
          (pointer (heapStart + totalSpan front)) = size := by
    rw [growthBound, header.2.free, if_pos free]
  have extra :
      ExtraPages kernel.heap.memory size
        (pointer (heapStart + totalSpan front)) 1 := by
    refine .grows needed ?_
    rw [bound]
    exact least
  obtain ⟨enough, calls⟩ := tiles.call_eq positive listed stops
  obtain ⟨cur, later, taken⟩ :=
    extra.takeBlock (by omega) (show 1 < enough + 2 by omega)
  obtain ⟨pages, extraPages, grew⟩ := takeBlock_grewBy taken
  have added :
      later.heap.totalMallocPages ≠ kernel.heap.totalMallocPages := by
    rw [grew.total, extraPages.unique extra]
    intro same
    have value := congrArg BitVec.toNat same
    rw [BitVec.toNat_add, BitVec.toNat_ofNat] at value
    have bounded := kernel.heap.totalMallocPages.isLt
    omega
  have block := growHeap_result (takeBlock_grows taken added).2
  rw [header.2.free, if_pos free] at block
  refine ⟨enough + 2, later, ?_, added⟩
  rw [calls _ (by omega), taken, block]
  rfl

/-- If requests are served in place or at the end, the first fit serves. -/
theorem ListTiles.firstFitServes
    (tiles : ListTiles kernel cells)
    (positive : 1 ≤ size.toNat)
    (atEnd : GrowsAtEnd kernel cells size) :
    FirstFitServes cells size.toNat := by
  intro front cell back listed passed free fits
  by_contra neither
  rw [not_or] at neither
  have different : cell.size ≠ size.toNat :=
    fun same => neither.1 ⟨free, Or.inl same⟩
  have near : cell.size ≤ size.toNat + 12 := by
    by_contra larger
    exact neither.1 ⟨free, Or.inr (by omega)⟩
  have stops : Stops size.toNat front cell back :=
    ⟨passed, Or.inr ⟨fits, free⟩⟩
  obtain ⟨fuel, later, returned, added⟩ :=
    tiles.grows_nearFit positive listed stops free (by omega) near
  obtain ⟨before, last, ends, block⟩ :=
    atEnd fuel _ later returned added
  have same := (BitVec.add_left_inj headerSize).mp block
  -- The enlarged block lies in front of the last one and of the end.
  have behind :
      totalSpan front + cell.span ≤ totalSpan before ∧
        totalSpan before + last.span = totalSpan cells := by
    obtain ⟨rest, final, rfl⟩ :=
      (List.eq_nil_or_concat back).resolve_left neither.2
    have both :
        before ++ [last] = (front ++ cell :: rest) ++ [final] := by
      rw [← ends, listed]
      simp
    obtain ⟨rfl, _⟩ := List.append_inj' both rfl
    rw [ends]
    simp only [totalSpan_append, totalSpan_cons, totalSpan_nil]
    omega
  have segment := tiles.segment
  rw [ends] at segment
  have limit := segment.from_cell.1.1
  have start : heapStart = 0xF00000 := rfl
  unfold Cell.span at behind limit
  have value := congrArg BitVec.toNat same
  rw [toNat_pointer (by omega)] at value
  split at value
  · rw [toNat_pointer (by omega)] at value
    omega
  · rw [pointer, BitVec.toNat_ofNat, listEnd] at value
    omega

/--
A request is served in place when a free block can serve it, and adds pages at
the end of the list only, exactly when the first free block that is not
smaller than the request serves it or is the last one.
-/
theorem vmmMallocNextBlock_placement_iff
    (tiles : ListTiles kernel cells)
    (positive : 1 ≤ size.toNat) :
    (ServesInPlace kernel cells size ∧ GrowsAtEnd kernel cells size) ↔
      FirstFitServes cells size.toNat := by
  constructor
  · rintro ⟨_, atEnd⟩
    exact tiles.firstFitServes positive atEnd
  · intro serves
    exact ⟨tiles.servesInPlace positive serves,
      tiles.growsAtEnd positive serves⟩

end Calls

/-- A layout that reaches the end of the heap is a list that tiles it. -/
theorem HeapLayout.listTiles
    {client : HeapClient}
    {cells : List Cell}
    (layout : HeapLayout tiling client cells) :
    ListTiles client.kernel cells where
  head := layout.head
  vaddr := layout.vaddr
  segment := layout.segment
  initialized := layout.positive
  ends := layout.reaches.resolve_left id

/-! ## Heaps with given cells -/

/-- A header with the given fields, written into a memory. -/
def writeHeader
    (memory : Memory)
    (block : PtrT)
    (size : SizeT)
    (free : Bool)
    (next : PtrT) :
    Memory :=
  setBlockNext (setBlockFree (setBlockSize memory block size) block free)
    block next

/-- The headers of a list of cells, written into a memory. -/
def writeCells (memory : Memory) : Nat → List Cell → Memory
  | _, [] => memory
  | address, cell :: rest =>
      writeHeader (writeCells memory (address + cell.span) rest)
        (pointer address) (BitVec.ofNat 32 cell.size) cell.free
        (if rest = [] then 0 else pointer (address + cell.span))

/-- The cells whose headers were written. -/
theorem segment_writeCells
    (memory : Memory)
    {address : Nat}
    {cells : List Cell}
    (fits : address + totalSpan cells ≤ 2 ^ 32) :
    Segment (writeCells memory address cells) 0 address cells ∧
      AgreeOutside address (address + totalSpan cells) memory
        (writeCells memory address cells) := by
  induction cells generalizing address with
  | nil =>
      exact ⟨trivial, AgreeOutside.refl _ _ _⟩
  | cons cell rest inductionHypothesis =>
      rw [totalSpan_cons, ← Nat.add_assoc] at fits
      obtain ⟨behind, behindOutside⟩ := inductionHypothesis fits
      have room : address + 12 ≤ 2 ^ 32 := by
        unfold Cell.span at fits
        omega
      have position : (pointer address).toNat = address :=
        toNat_pointer (by omega)
      obtain ⟨header, outside⟩ :=
        @Header.written (pointer address)
          (writeCells memory (address + cell.span) rest)
          (BitVec.ofNat 32 cell.size) cell.free
          (if rest = [] then 0 else pointer (address + cell.span))
          (by rw [position]; exact room)
      rw [position] at outside
      refine ⟨⟨⟨by omega, header⟩, behind.congr ?_⟩, ?_⟩
      · exact outside.agreeOn (Or.inr (by unfold Cell.span; omega))
      · rw [totalSpan_cons, ← Nat.add_assoc]
        exact (behindOutside.mono (by omega) (Nat.le_refl _)).trans
          (outside.mono (Nat.le_refl _) (by unfold Cell.span; omega))

/-- A heap of some pages that is cut into the given cells. -/
def cellsKernel (pages : SizeT) (cells : List Cell) : Kernel where
  paging := bootedPaging
  heap :=
    { memory := writeCells (fun _ => 0) heapStart cells
      mallocHead := pointer heapStart
      mallocVaddr := pointer heapStart
      totalMallocPages := pages }

/-- Cells that tile the pages of a heap are its list. -/
theorem listTiles_cellsKernel
    {pages : SizeT}
    {cells : List Cell}
    (initialized : 1 ≤ headSize cells)
    (tiles : totalSpan cells = pages.toNat * 4096)
    (fits : heapStart + totalSpan cells ≤ 2 ^ 32) :
    ListTiles (cellsKernel pages cells) cells where
  head := rfl
  vaddr := rfl
  segment := (segment_writeCells _ fits).1
  initialized := initialized
  ends := congrArg (heapStart + ·) tiles

/-- A page with a used block in front of two free ones. -/
def threeCells : List Cell :=
  [⟨100, false⟩, ⟨200, true⟩, ⟨3760, true⟩]

/--
The second of three blocks serves 150 bytes, and the last one grows for 5000
bytes.
-/
theorem vmmMallocNextBlock_placement_iff_fresh :
    ServesInPlace (cellsKernel 1 threeCells) threeCells 150 ∧
      GrowsAtEnd (cellsKernel 1 threeCells) threeCells 5000 := by
  have tiles :=
    @listTiles_cellsKernel 1 threeCells (by decide) (by decide) (by decide)
  refine
    ⟨((vmmMallocNextBlock_placement_iff tiles (by decide)).mpr ?_).1,
      ((vmmMallocNextBlock_placement_iff tiles (by decide)).mpr ?_).2⟩
  · intro front cell back listed _ free fits
    rcases front with _ | ⟨first, _ | ⟨second, _ | ⟨third, front⟩⟩⟩
    · cases listed
      cases free
    · cases listed
      exact Or.inl ⟨rfl, by decide⟩
    · cases listed
      exact Or.inr rfl
    · simp [threeCells] at listed
  · intro front cell back listed _ _ fits
    have member : cell ∈ threeCells := by simp [listed]
    have small : ∀ cell ∈ threeCells, cell.size < 5000 := by decide
    exact (Nat.not_le_of_lt (small cell member) fits).elim

/-- A page with a free block of 100 bytes in front of a used one. -/
def nearFitKernel : Kernel where
  paging := bootedPaging
  heap :=
    { memory :=
        writeHeader
          (writeHeader (fun _ => 0) (pointer heapStart) 100 true
            (pointer (heapStart + 112)))
          (pointer (heapStart + 112)) 3972 false 0
      mallocHead := pointer heapStart
      mallocVaddr := pointer heapStart
      totalMallocPages := 1 }

/-- The two blocks tile the page. -/
theorem listTiles_nearFitKernel :
    ListTiles nearFitKernel [⟨100, true⟩, ⟨3972, false⟩] := by
  obtain ⟨first, _⟩ :=
    Header.written (fun _ => 0) 100 true (pointer (heapStart + 112))
      (show (pointer heapStart).toNat + 12 ≤ 2 ^ 32 by decide)
  obtain ⟨second, outside⟩ :=
    Header.written
      (writeHeader (fun _ => 0) (pointer heapStart) 100 true
        (pointer (heapStart + 112)))
      3972 false 0
      (show (pointer (heapStart + 112)).toNat + 12 ≤ 2 ^ 32 by decide)
  have kept := first.congr (outside.agreeOn (Or.inl (by decide)))
  exact
    { head := rfl
      vaddr := rfl
      segment := ⟨⟨by decide, kept⟩, ⟨by decide, second⟩, trivial⟩
      initialized := by decide
      ends := rfl }

/-- The near fit of 100 bytes is grown for a request of 95 bytes. -/
theorem vmmMallocNextBlock_placement_fails :
    ¬∀ (kernel : Kernel) (cells : List Cell) (size : SizeT),
      ListTiles kernel cells →
      1 ≤ size.toNat →
      ServesInPlace kernel cells size ∧ GrowsAtEnd kernel cells size := by
  intro placed
  have atEnd :=
    (placed nearFitKernel _ 95 listTiles_nearFitKernel (by decide)).2
  have serves :=
    listTiles_nearFitKernel.firstFitServes (by decide) atEnd
  rcases serves [] ⟨100, true⟩ [⟨3972, false⟩] rfl (by simp) rfl
    (by decide) with here | last
  · rcases here.2 with same | larger
    · revert same
      decide
    · revert larger
      decide
  · cases last

end HobbyOS
