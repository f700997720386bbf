import HobbyOS.Library.TransitionSystem
import HobbyOS.Heap.Growth
import HobbyOS.Heap.Layout

namespace HobbyOS

open Library

/-!
# Runs of the heap

A client calls the heap functions and keeps the allocations it holds.  The
layout of the heap is kept by the calls that meet a condition on the state in
front of them, one clause for each branch of the source that goes wrong
otherwise.
-/

/-- The heap together with the allocations its clients hold. -/
structure HeapClient where
  kernel : Kernel
  live : List Allocation

/-- The calls of a client. -/
inductive HeapCall where
  | malloc : SizeT → HeapCall
  | free : Allocation → HeapCall
  | defrag : HeapCall
  deriving DecidableEq

/-- The physical memory manager has another block. -/
def Kernel.CanServe (kernel : Kernel) : Prop :=
  (pmmAllocateBlocks kernel.paging.pmm 1).1 ≠ 0

instance (kernel : Kernel) : Decidable kernel.CanServe :=
  inferInstanceAs (Decidable (_ ≠ _))

/-- Changes to the heap leave the physical memory manager alone. -/
theorem Kernel.CanServe.withHeap
    {kernel : Kernel}
    (served : kernel.CanServe)
    (heap : Heap) :
    { kernel with heap := heap : Kernel }.CanServe :=
  served

/-- A client keeps a non-null result of `vmm_malloc_next_block`. -/
def HeapClient.keep
    (client : HeapClient)
    (kernel : Kernel)
    (allocation : Allocation) :
    HeapClient where
  kernel := kernel
  live :=
    if allocation.pointer = 0 then client.live
    else allocation :: client.live

/--
Calls that return, with positive sizes and live pointers, while the physical
memory manager has blocks left.
-/
inductive HeapStep : HeapCall → HeapClient → HeapClient → Prop where
  | malloc
      {size : SizeT}
      {client : HeapClient}
      {fuel : Nat}
      {pointer : PtrT}
      {kernel : Kernel}
      (positive : 1 ≤ size.toNat)
      (returned :
        vmmMallocNextBlock fuel client.kernel size =
          some (pointer, kernel))
      (served : kernel.CanServe) :
      HeapStep (.malloc size) client
        (client.keep kernel ⟨pointer, size⟩)
  | free
      {allocation : Allocation}
      {client : HeapClient}
      {fuel : Nat}
      {kernel : Kernel}
      (held : allocation ∈ client.live)
      (returned :
        vmmMallocFree fuel client.kernel allocation.pointer =
          some kernel) :
      HeapStep (.free allocation) client
        ⟨kernel, client.live.erase allocation⟩
  | defrag
      {client : HeapClient}
      {fuel : Nat}
      {kernel : Kernel}
      (returned : vmmMallocDefrag fuel client.kernel = some kernel) :
      HeapStep .defrag client ⟨kernel, client.live⟩

/-- A freshly initialized heap. -/
def freshHeap (kernel : Kernel) (size : SizeT) : HeapClient where
  kernel := vmmMallocInit kernel size
  live := []

/-- The end of the heap's pages. -/
def Heap.endAddress (heap : Heap) : Nat :=
  heap.mallocVaddr.toNat + heap.totalMallocPages.toNat * 4096

/--
What a property of the heap tolerates: two holders of the last block, and
blocks behind the end of the list.
-/
structure Tolerance where
  sharing : Prop
  detached : Prop

/-- The block list tiles the heap, with the live allocations placed in it. -/
structure HeapLayout
    (tolerance : Tolerance)
    (client : HeapClient)
    (cells : List Cell) :
    Prop where
  head : client.kernel.heap.mallocHead = pointer heapStart
  vaddr : client.kernel.heap.mallocVaddr = pointer heapStart
  segment : Segment client.kernel.heap.memory 0 heapStart cells
  positive : 1 ≤ headSize cells
  behind : listEnd cells ≤ client.kernel.heap.endAddress
  reaches :
    tolerance.detached ∨ listEnd cells = client.kernel.heap.endAddress
  fits : client.kernel.heap.endAddress ≤ 2 ^ 32
  live :
    LivePlaced tolerance.sharing cells client.kernel.heap.endAddress
      client.live

/-! ## The condition -/

/-- A request neither takes a cell as it is nor splits it. -/
def Grows (size : Nat) (cell : Cell) : Prop :=
  cell.size ≠ size ∧ cell.size ≤ size + 12

/--
The condition on a request whose search stops at `cell`.  A used cell may be
split only if nobody holds it, and taken as it is only where sharing is
tolerated.  A free cell may grow only at the end of a list, into pages that
hold nothing, by as many pages as the rest of the split needs.  A block
behind a used cell must fit on the pages that are counted for it.
-/
structure RequestKeeps
    (tolerance : Tolerance)
    (client : HeapClient)
    (size : Nat)
    (front : List Cell)
    (cell : Cell)
    (back : List Cell) :
    Prop where
  exactly :
    cell.size = size →
    tolerance.sharing ∨
      NoneAt client.live (heapStart + totalSpan front + 12)
  split :
    size + 12 < cell.size →
    NoneAt client.live (heapStart + totalSpan front + 12)
  extend :
    Grows size cell →
    cell.free = true →
    back = [] ∧
      size + 12 ≤ cell.size + pagesFor cell.size size * 4096 ∧
      client.kernel.heap.endAddress + pagesFor cell.size size * 4096 ≤
        2 ^ 32 ∧
      ∀ allocation ∈ client.live,
        allocation.pointer.toNat < listEnd (front ++ [cell]) ∨
          listEnd (front ++ [cell]) + pagesFor cell.size size * 4096 ≤
            allocation.pointer.toNat
  append :
    Grows size cell →
    cell.free = false →
    tolerance.detached ∧
      size + 12 ≤ pagesFor cell.size (size + 12) * 4096 ∧
      client.kernel.heap.endAddress +
          pagesFor cell.size (size + 12) * 4096 + 12 ≤
        2 ^ 32

/--
The condition on a call.  A free or a defragmentation may join the last block
to its predecessor only if the link at the null pointer, where the loops go
on, is null.
-/
def KeepsLayout
    (tolerance : Tolerance) :
    HeapCall → HeapClient → Prop
  | .malloc size, client =>
      ∀ front cell back,
        Segment client.kernel.heap.memory 0 heapStart
          (front ++ cell :: back) →
        Stops size.toNat front cell back →
        RequestKeeps tolerance client size.toNat front cell back
  | .free allocation, client =>
      ∀ front cell back,
        Segment client.kernel.heap.memory 0 heapStart
          (front ++ cell :: back) →
        allocation.pointer.toNat = heapStart + totalSpan front + 12 →
        back = [] ∨
          blockNext client.kernel.heap.memory 0 = 0 ∨
          ∃ used ∈ back, used.free = false
  | .defrag, client =>
      ∀ cells,
        Segment client.kernel.heap.memory 0 heapStart cells →
        blockNext client.kernel.heap.memory 0 = 0 ∨ TailKept cells

/-- The condition on the initialization: pages, which fit below 4 GiB. -/
def KeepsFresh (size : SizeT) : Prop :=
  1 ≤ size.toNat ∧
    heapStart + (initialPages size).toNat * 4096 ≤ 2 ^ 32

instance (size : SizeT) : Decidable (KeepsFresh size) :=
  inferInstanceAs (Decidable (_ ∧ _))

/-! ## The initial layout -/

/-- The pages of the initialization hold the size, and not a page more. -/
theorem toNat_initialPages (size : SizeT) :
    (initialPages size).toNat = (size.toNat + 4095) / 4096 := by
  have page : (4096 : SizeT).toNat = 4096 := rfl
  have bound := size.isLt
  have quotient : (size / 4096).toNat = size.toNat / 4096 := by
    rw [BitVec.toNat_udiv, page]
  have rest : (size % 4096).toNat = size.toNat % 4096 := by
    rw [BitVec.toNat_umod, page]
  unfold initialPages
  split
  · rename_i partly
    have next : (size / 4096 + 1).toNat = (size / 4096).toNat + 1 :=
      toNat_add_ofNat 1 (by omega)
    have some_ : size.toNat % 4096 ≠ 0 := by
      rw [← rest]
      exact fun zero => partly (BitVec.eq_of_toNat_eq zero)
    omega
  · rename_i exactly
    rw [not_not] at exactly
    have zero : size.toNat % 4096 = 0 := by
      rw [← rest, exactly]
      rfl
    omega

/-- A positive size needs at least one page. -/
theorem initialPages_pos
    {size : SizeT}
    (positive : 1 ≤ size.toNat) :
    1 ≤ (initialPages size).toNat := by
  rw [toNat_initialPages]
  omega

/-- The first block has the bytes of the pages, without its header. -/
theorem toNat_firstBlock
    {size : SizeT}
    (positive : 1 ≤ size.toNat) :
    (initialPages size * 4096 - headerSize).toNat =
      (initialPages size).toNat * 4096 - 12 := by
  have page : (4096 : SizeT).toNat = 4096 := rfl
  have twelve : headerSize.toNat = 12 := rfl
  have bound := size.isLt
  have count := toNat_initialPages size
  rw [BitVec.toNat_sub, BitVec.toNat_mul, page, twelve]
  omega

/-- The first header after the initialization. -/
theorem vmmMallocInit_header (kernel : Kernel) (size : SizeT) :
    Header (vmmMallocInit kernel size).heap.memory (pointer heapStart)
      (initialPages size * 4096 - headerSize) true 0 := by
  have room : (pointer heapStart).toNat + 12 ≤ 2 ^ 32 := by decide
  exact (Header.written kernel.heap.memory _ true 0 room).1

/-- A fresh heap is one free cell. -/
theorem HeapLayout.fresh
    (tolerance : Tolerance)
    (kernel : Kernel)
    {size : SizeT}
    (keeps : KeepsFresh size) :
    HeapLayout tolerance (freshHeap kernel size)
      [⟨(initialPages size).toNat * 4096 - 12, true⟩] := by
  obtain ⟨positive, fits⟩ := keeps
  have some_ := initialPages_pos positive
  have start : heapStart = 0xF00000 := rfl
  have ends :
      listEnd [⟨(initialPages size).toNat * 4096 - 12, true⟩] =
        (freshHeap kernel size).kernel.heap.endAddress := by
    have value :
        (freshHeap kernel size).kernel.heap.endAddress =
          heapStart + (initialPages size).toNat * 4096 :=
      rfl
    rw [value, listEnd, totalSpan_cons, totalSpan_nil, Cell.span]
    dsimp only
    omega
  have sizeSame :
      initialPages size * 4096 - headerSize =
        BitVec.ofNat 32 ((initialPages size).toNat * 4096 - 12) := by
    apply BitVec.eq_of_toNat_eq
    rw [toNat_firstBlock positive, BitVec.toNat_ofNat,
      Nat.mod_eq_of_lt (by omega)]
  refine
    { head := rfl
      vaddr := rfl
      segment := ⟨⟨?_, ?_⟩, trivial⟩
      positive := ?_
      behind := Nat.le_of_eq ends
      reaches := Or.inr ends
      fits := fits
      live := LivePlaced.nil }
  · simp only [Cell.span]
    omega
  · rw [← sizeSame]
    exact vmmMallocInit_header kernel size
  · show 1 ≤ (initialPages size).toNat * 4096 - 12
    omega

/-! ## Requests -/

/-- The end of the heap after some pages were added. -/
theorem Took.endAddress
    {kernel later : Kernel}
    {cells : List Cell}
    {pages : Nat}
    (took : Took kernel later heapStart cells pages)
    (fits : kernel.heap.endAddress + pages * 4096 ≤ 2 ^ 32) :
    later.heap.endAddress = kernel.heap.endAddress + pages * 4096 := by
  unfold Heap.endAddress at fits ⊢
  have total := took.total
  have sum :
      later.heap.totalMallocPages.toNat =
        kernel.heap.totalMallocPages.toNat + pages := by
    rw [total]
    exact toNat_add_ofNat pages (by omega)
  rw [took.vaddr, sum]
  omega

/-- The head of a list, when a cell behind the front is replaced. -/
theorem headSize_replace
    {front back later : List Cell}
    {cell taken : Cell}
    (positive : 1 ≤ headSize (front ++ cell :: back))
    (size : 1 ≤ taken.size) :
    1 ≤ headSize (front ++ taken :: later) := by
  cases front with
  | nil =>
      exact size
  | cons first rest =>
      exact positive

/-- The pointer that is returned for a block. -/
theorem toNat_payload
    {address size : Nat}
    (positive : 1 ≤ size)
    (fits : address + 12 + size ≤ 2 ^ 32) :
    (pointer address + headerSize).toNat = address + 12 := by
  rw [pointer_add_headerSize]
  exact toNat_pointer (by omega)

namespace HeapLayout

variable
  {tolerance : Tolerance}
  {client : HeapClient}
  {cells : List Cell}

/-- The first block has a size, so the heap is not initialized again. -/
theorem blockSize_head
    (layout : HeapLayout tolerance client cells) :
    blockSize client.kernel.heap.memory client.kernel.heap.mallocHead ≠
      0 := by
  have positive := layout.positive
  have segment := layout.segment
  rw [layout.head]
  cases cells with
  | nil =>
      exact (Nat.not_lt_zero 0 positive).elim
  | cons cell rest =>
      intro zero
      have value := segment.1.toNat_blockSize
      rw [zero] at value
      have none : 0 = cell.size := value
      have some_ : 1 ≤ cell.size := positive
      omega

/-- There is at least one cell. -/
theorem nonempty
    (layout : HeapLayout tolerance client cells) :
    cells ≠ [] := by
  rintro rfl
  exact Nat.not_lt_zero 0 layout.positive

/-- A request searches the list and takes the block it stopped at. -/
theorem request
    (layout : HeapLayout tolerance client cells)
    {size : SizeT}
    (positive : 1 ≤ size.toNat)
    {fuel : Nat}
    {result : PtrT}
    {later : Kernel}
    (returned :
      vmmMallocNextBlock fuel client.kernel size =
        some (result, later)) :
    ∃ front cell back cur,
      cells = front ++ cell :: back ∧
        Stops size.toNat front cell back ∧
        result = cur + headerSize ∧
        takeBlock fuel client.kernel
            (pointer (heapStart + totalSpan front)) size =
          some (cur, later) := by
  have notZero : size ≠ 0 := by
    rintro rfl
    exact Nat.not_lt_zero 0 positive
  simp only [vmmMallocNextBlock, if_neg notZero,
    if_neg layout.blockSize_head, Option.bind_eq_bind,
    Option.bind_eq_some_iff, Option.pure_def, Option.some.injEq,
    Prod.mk.injEq, Prod.exists] at returned
  obtain ⟨stop, found, cur, kernel, taken, rfl, rfl⟩ := returned
  rw [layout.head] at found
  obtain ⟨front, cell, back, rfl, rfl, stops⟩ :=
    searchBlock_stops layout.segment layout.nonempty found
  exact ⟨front, cell, back, cur, rfl, stops, rfl, taken⟩

/-- The layout after a block was taken. -/
theorem took
    (layout : HeapLayout tolerance client cells)
    {later : Kernel}
    {cells' : List Cell}
    {pages : Nat}
    (taken : Took client.kernel later heapStart cells' pages)
    (fits : client.kernel.heap.endAddress + pages * 4096 ≤ 2 ^ 32)
    (positive : 1 ≤ headSize cells')
    (behind :
      listEnd cells' ≤ client.kernel.heap.endAddress + pages * 4096)
    (reaches :
      tolerance.detached ∨
        listEnd cells' =
          client.kernel.heap.endAddress + pages * 4096)
    {allocation : Allocation}
    (low : heapStart ≤ allocation.pointer.toNat)
    (live :
      LivePlaced tolerance.sharing cells'
        (client.kernel.heap.endAddress + pages * 4096)
        (allocation :: client.live)) :
    HeapLayout tolerance (client.keep later allocation) cells' := by
  have ends := taken.endAddress fits
  have notNull : allocation.pointer ≠ 0 := by
    intro null
    rw [null] at low
    exact absurd low (by decide)
  refine
    { head := taken.head.trans layout.head
      vaddr := taken.vaddr.trans layout.vaddr
      segment := taken.segment
      positive := positive
      behind := ?_
      reaches := ?_
      fits := ?_
      live := ?_ }
  · show _ ≤ later.heap.endAddress
    rw [ends]
    exact behind
  · show _ ∨ _ = later.heap.endAddress
    rw [ends]
    exact reaches
  · show later.heap.endAddress ≤ _
    rw [ends]
    exact fits
  · show LivePlaced _ _ later.heap.endAddress (if _ then _ else _)
    rw [ends, if_neg notNull]
    exact live

section Request

variable
  {front back : List Cell}
  {cell : Cell}
  {size : SizeT}
  {fuel : Nat}
  {cur : PtrT}
  {later : Kernel}

/-- A block of exactly the requested size. -/
theorem exactly
    (layout :
      HeapLayout tolerance client (front ++ cell :: back))
    (positive : 1 ≤ size.toNat)
    (stops : Stops size.toNat front cell back)
    (keeps :
      RequestKeeps tolerance client size.toNat front cell back)
    (same : cell.size = size.toNat)
    (taken :
      takeBlock fuel client.kernel
          (pointer (heapStart + totalSpan front)) size =
        some (cur, later)) :
    HeapLayout tolerance (client.keep later ⟨cur + headerSize, size⟩)
      (front ++ ⟨size.toNat, false⟩ :: back) := by
  obtain ⟨rfl, took⟩ := takeBlock_exact layout.segment same taken
  have header := layout.segment.from_cell.1
  have fits := header.1
  simp only [Cell.span] at fits
  have payload :
      (pointer (heapStart + totalSpan front) + headerSize).toNat =
        heapStart + totalSpan front + 12 :=
    toNat_payload positive (by omega)
  have ends :
      listEnd (front ++ ⟨size.toNat, false⟩ :: back) =
        listEnd (front ++ cell :: back) := by
    simp [listEnd, Cell.span, same]
  have marked := layout.live.mark
  rw [same] at marked
  refine layout.took took (Nat.le_trans (by simp) layout.fits)
    (headSize_replace layout.positive positive) ?_ ?_ ?_
    (marked.holdCell positive
      ⟨_, payload, cellAt_middle heapStart front _ back⟩ ?_)
  · rw [ends]
    simpa using layout.behind
  · rw [ends]
    simpa using layout.reaches
  · rw [payload]
    omega
  · -- Only the last cell is taken while somebody may hold it.
    rw [payload]
    rcases keeps.exactly same with shares | dead
    · by_cases last : back = []
      · right
        refine ⟨shares, ?_⟩
        subst last
        simp only [Allocation.endAddress, payload, listEnd,
          totalSpan_append, totalSpan_cons, totalSpan_nil, Cell.span]
        omega
      · have free := (stops.stopped.resolve_left last).2
        exact Or.inl (layout.live.noneAt_free (by omega) free)
    · exact Or.inl dead

/-- A larger block that nobody holds. -/
theorem split
    (layout :
      HeapLayout tolerance client (front ++ cell :: back))
    (positive : 1 ≤ size.toNat)
    (keeps :
      RequestKeeps tolerance client size.toNat front cell back)
    (larger : size.toNat + 12 < cell.size)
    (taken :
      takeBlock fuel client.kernel
          (pointer (heapStart + totalSpan front)) size =
        some (cur, later)) :
    HeapLayout tolerance (client.keep later ⟨cur + headerSize, size⟩)
      (front ++ ⟨size.toNat, false⟩ ::
        ⟨cell.size - size.toNat - 12, true⟩ :: back) := by
  obtain ⟨rfl, took⟩ := takeBlock_split layout.segment larger taken
  have dead := keeps.split larger
  have fits := layout.segment.from_cell.1.1
  simp only [Cell.span] at fits
  have payload :
      (pointer (heapStart + totalSpan front) + headerSize).toNat =
        heapStart + totalSpan front + 12 :=
    toNat_payload positive (by omega)
  have span :
      totalSpan
          [⟨size.toNat, false⟩, ⟨cell.size - size.toNat - 12, true⟩] =
        cell.span := by
    simp only [totalSpan_cons, totalSpan_nil, Cell.span]
    omega
  have ends :
      listEnd
          (front ++ ⟨size.toNat, false⟩ ::
            ⟨cell.size - size.toNat - 12, true⟩ :: back) =
        listEnd (front ++ cell :: back) := by
    simp only [listEnd, totalSpan_append, totalSpan_cons, Cell.span]
    omega
  refine layout.took took (Nat.le_trans (by simp) layout.fits)
    (headSize_replace layout.positive positive) ?_ ?_ ?_
    ((layout.live.replace dead span).holdCell positive
      ⟨_, payload, cellAt_middle heapStart front _ _⟩
      (Or.inl (by rw [payload]; exact dead)))
  · rw [ends]
    simpa using layout.behind
  · rw [ends]
    simpa using layout.reaches
  · rw [payload]
    omega

/-- A free last block that grows. -/
theorem extend
    (layout :
      HeapLayout tolerance client (front ++ cell :: back))
    (positive : 1 ≤ size.toNat)
    (keeps :
      RequestKeeps tolerance client size.toNat front cell back)
    (grows : Grows size.toNat cell)
    (free : cell.free = true)
    (taken :
      takeBlock fuel client.kernel
          (pointer (heapStart + totalSpan front)) size =
        some (cur, later)) :
    ∃ cells',
      HeapLayout tolerance (client.keep later ⟨cur + headerSize, size⟩)
        cells' := by
  obtain ⟨rfl, enough, room, clear⟩ := keeps.extend grows free
  generalize pagesSame : pagesFor cell.size size.toNat = pages
    at enough room clear
  have some_ : 1 ≤ pages := by
    rw [← pagesSame]
    exact pagesFor_pos cell.size size.toNat
  have behind := layout.behind
  have ends :
      listEnd (front ++ [cell]) =
        heapStart + totalSpan front + 12 + cell.size := by
    simp only [listEnd, totalSpan_append, totalSpan_cons, totalSpan_nil,
      Cell.span]
    omega
  have low : heapStart = 0xF00000 := rfl
  rw [takeBlock_growHeap layout.segment grows.1 grows.2 (by omega)]
    at taken
  obtain ⟨rfl, took⟩ :=
    growHeap_free layout.segment free pagesSame.symm enough
      (by simp only [listEnd] at behind; omega) taken
  have payload :
      (pointer (heapStart + totalSpan front) + headerSize).toNat =
        heapStart + totalSpan front + 12 :=
    toNat_payload positive (by omega)
  have grown := layout.live.extend free clear
  have dead := grown.noneAt_free (by dsimp only; omega) rfl
  have span :
      totalSpan
          [⟨size.toNat, false⟩,
            ⟨cell.size + pages * 4096 - size.toNat - 12, true⟩] =
        (⟨cell.size + pages * 4096, true⟩ : Cell).span := by
    simp only [totalSpan_cons, totalSpan_nil, Cell.span]
    omega
  have ends' :
      listEnd
          (front ++ [⟨size.toNat, false⟩,
            ⟨cell.size + pages * 4096 - size.toNat - 12, true⟩]) =
        listEnd (front ++ [cell]) + pages * 4096 := by
    rw [ends, listEnd, totalSpan_append, span, Cell.span]
    dsimp only
    omega
  refine ⟨_, layout.took took room
    (headSize_replace layout.positive positive) ?_ ?_ ?_
    ((((grown.replace dead span).growEnd (Nat.le_add_right _ _))).holdCell
      positive ⟨_, payload, cellAt_middle heapStart front _ _⟩
      (Or.inl (by rw [payload]; exact dead)))⟩
  · rw [ends']
    omega
  · rw [ends']
    exact layout.reaches.imp_right fun same => by rw [same]
  · rw [payload]
    omega

/-- A block of its own behind a used last block. -/
theorem append
    (layout :
      HeapLayout tolerance client (front ++ cell :: back))
    (positive : 1 ≤ size.toNat)
    (keeps :
      RequestKeeps tolerance client size.toNat front cell back)
    (grows : Grows size.toNat cell)
    (used : cell.free = false)
    (taken :
      takeBlock fuel client.kernel
          (pointer (heapStart + totalSpan front)) size =
        some (cur, later)) :
    HeapLayout tolerance (client.keep later ⟨cur + headerSize, size⟩)
      (front ++ cell :: back) := by
  obtain ⟨detached, enough, room⟩ := keeps.append grows used
  generalize pagesSame : pagesFor cell.size (size.toNat + 12) = pages
    at enough room
  have behind := layout.behind
  have low : heapStart ≤ listEnd (front ++ cell :: back) :=
    Nat.le_add_right _ _
  have start : (pointer heapStart).toNat = heapStart := rfl
  have endSame :
      client.kernel.heap.mallocVaddr +
          client.kernel.heap.totalMallocPages * 4096 =
        pointer client.kernel.heap.endAddress := by
    rw [layout.vaddr, Heap.endAddress, layout.vaddr, start, pointer,
      pointer, BitVec.ofNat_add, BitVec.ofNat_mul, BitVec.ofNat_toNat,
      BitVec.setWidth_eq]
    rfl
  rw [takeBlock_growHeap layout.segment grows.1 grows.2 (by omega)]
    at taken
  obtain ⟨rfl, took⟩ :=
    growHeap_used layout.segment used pagesSame.symm endSame behind
      enough room taken
  have payload :
      (pointer client.kernel.heap.endAddress + headerSize).toNat =
        client.kernel.heap.endAddress + 12 :=
    toNat_payload positive (by omega)
  refine layout.took took (by omega) layout.positive (by omega)
    (Or.inl detached) ?_ (layout.live.holdBehind behind positive ⟨?_, ?_⟩)
  · rw [payload]
    omega
  · rw [payload]
    omega
  · rw [Allocation.endAddress, payload]
    dsimp only
    omega

end Request

/-- A request that meets the condition keeps the layout. -/
theorem malloc
    (layout : HeapLayout tolerance client cells)
    {size : SizeT}
    (positive : 1 ≤ size.toNat)
    (keeps : KeepsLayout tolerance (.malloc size) client)
    {fuel : Nat}
    {result : PtrT}
    {later : Kernel}
    (returned :
      vmmMallocNextBlock fuel client.kernel size =
        some (result, later)) :
    ∃ cells',
      HeapLayout tolerance (client.keep later ⟨result, size⟩) cells' := by
  obtain ⟨front, cell, back, cur, rfl, stops, rfl, taken⟩ :=
    layout.request positive returned
  have request := keeps front cell back layout.segment stops
  by_cases same : cell.size = size.toNat
  · exact ⟨_, layout.exactly positive stops request same taken⟩
  · by_cases larger : size.toNat + 12 < cell.size
    · exact ⟨_, layout.split positive request larger taken⟩
    · have grows : Grows size.toNat cell := ⟨same, by omega⟩
      cases mark : cell.free with
      | true =>
          exact layout.extend positive request grows mark taken
      | false =>
          exact ⟨_, layout.append positive request grows mark taken⟩

/-! ## Releases -/

/-- The layout after cells were released. -/
theorem released
    (layout : HeapLayout tolerance client cells)
    {memory : Memory}
    {freed : Nat}
    {cells' : List Cell}
    (segment : Segment memory 0 heapStart cells')
    (released' : Released heapStart freed cells cells')
    {live : List Allocation}
    (placed :
      LivePlaced tolerance.sharing cells'
        client.kernel.heap.endAddress live) :
    HeapLayout tolerance
      ⟨{ client.kernel with
          heap := { client.kernel.heap with memory := memory } }, live⟩
      cells' := by
  have ends : listEnd cells' = listEnd cells := by
    rw [listEnd, released'.span, listEnd]
  refine
    { head := layout.head
      vaddr := layout.vaddr
      segment := segment
      positive := Nat.le_trans layout.positive released'.head
      behind := ?_
      reaches := ?_
      fits := layout.fits
      live := placed }
  · rw [ends]
    exact layout.behind
  · rw [ends]
    exact layout.reaches

/-- A free whose block is not linked, or is the last one, does nothing. -/
theorem free_other
    (layout : HeapLayout tolerance client cells)
    {allocation : Allocation}
    (held : allocation ∈ client.live)
    (other :
      ∀ front cell back,
        cells = front ++ cell :: back →
        back ≠ [] →
        allocation.pointer.toNat ≠ heapStart + totalSpan front + 12)
    {fuel : Nat}
    {memory : Memory}
    (returned :
      freeFrom allocation.pointer fuel client.kernel.heap.memory
          (pointer heapStart) 0 =
        some memory) :
    HeapLayout tolerance
      ⟨{ client.kernel with
          heap := { client.kernel.heap with memory := memory } },
        client.live.erase allocation⟩
      cells := by
  have inside := layout.live.inside layout.behind held
  have low : heapStart = 0xF00000 := rfl
  have above := inside.1
  have bound := allocation.pointer.isLt
  have target :
      allocation.pointer =
        pointer (allocation.pointer.toNat - 12 + 12) := by
    rw [Nat.sub_add_cancel (by omega), pointer, BitVec.ofNat_toNat,
      BitVec.setWidth_eq]
  rw [target] at returned
  have same : memory = client.kernel.heap.memory := by
    refine freeFrom_other layout.segment layout.nonempty (by omega) ?_
      returned
    intro front cell back split more here
    exact other front cell back split more (by omega)
  rw [same]
  have unchanged : Released heapStart 0 cells cells :=
    Released.refl layout.nonempty
  exact layout.released layout.segment unchanged
    (layout.live.erase allocation)

/-- A free that meets the condition keeps the layout. -/
theorem free
    (layout : HeapLayout tolerance client cells)
    {allocation : Allocation}
    (held : allocation ∈ client.live)
    (keeps : KeepsLayout tolerance (.free allocation) client)
    {fuel : Nat}
    {later : Kernel}
    (returned :
      vmmMallocFree fuel client.kernel allocation.pointer =
        some later) :
    ∃ cells',
      HeapLayout tolerance ⟨later, client.live.erase allocation⟩
        cells' := by
  simp only [vmmMallocFree, Option.bind_eq_bind,
    Option.bind_eq_some_iff, Option.pure_def, Option.some.injEq]
    at returned
  obtain ⟨memory, freed, rfl⟩ := returned
  rw [layout.head] at freed
  by_cases linked :
      ∃ front cell back,
        cells = front ++ cell :: back ∧
          back ≠ [] ∧
          allocation.pointer.toNat = heapStart + totalSpan front + 12
  · obtain ⟨front, cell, back, rfl, more, position⟩ := linked
    have target :
        allocation.pointer =
          pointer (heapStart + totalSpan front + 12) := by
      rw [← position, pointer, BitVec.ofNat_toNat, BitVec.setWidth_eq]
    have ends :=
      (keeps front cell back layout.segment position).resolve_left more
    rw [target] at freed
    obtain ⟨cells', segment, released, _⟩ :=
      freeFrom_segment layout.segment (by decide) more ends freed
    refine ⟨cells', layout.released segment released
      ((layout.live.erase allocation).release released ?_)⟩
    -- Another holder of the cell would end where the list does.
    intro other member here
    rcases layout.live.compatible_of_erase held member with
      apart | ⟨_, rfl, last⟩
    · have size := layout.live.positive allocation held
      have otherSize :=
        layout.live.positive other (List.mem_of_mem_erase member)
      unfold Allocation.Apart Allocation.endAddress at apart
      omega
    · rcases layout.live.placed allocation held with
        ⟨address, there, located⟩ | ⟨low, _⟩
      · have same : address = heapStart + totalSpan front := by omega
        subst same
        obtain ⟨next, rest, rfl⟩ := List.exists_cons_of_ne_nil more
        have cellSame := located.eq_middle
        rw [← cellSame] at last
        simp only [Allocation.endAddress, listEnd, totalSpan_append,
          totalSpan_cons, Cell.span] at last
        omega
      · obtain ⟨next, rest, rfl⟩ := List.exists_cons_of_ne_nil more
        simp only [listEnd, totalSpan_append, totalSpan_cons, Cell.span]
          at low
        omega
  · refine ⟨cells, layout.free_other held ?_ freed⟩
    intro front cell back split more position
    exact linked ⟨front, cell, back, split, more, position⟩

/-- A defragmentation that meets the condition keeps the layout. -/
theorem defrag
    (layout : HeapLayout tolerance client cells)
    (keeps : KeepsLayout tolerance .defrag client)
    {fuel : Nat}
    {later : Kernel}
    (returned : vmmMallocDefrag fuel client.kernel = some later) :
    ∃ cells', HeapLayout tolerance ⟨later, client.live⟩ cells' := by
  have notNull : client.kernel.heap.mallocHead ≠ 0 := by
    rw [layout.head]
    decide
  simp only [vmmMallocDefrag, if_neg notNull, Option.bind_eq_bind,
    Option.bind_eq_some_iff, Option.pure_def, Option.some.injEq]
    at returned
  obtain ⟨memory, defragged, rfl⟩ := returned
  rw [layout.head] at defragged
  obtain ⟨cells', segment, released, _⟩ :=
    defragFrom_segment 0 layout.segment layout.nonempty (by decide)
      (keeps cells layout.segment) defragged
  refine ⟨cells', layout.released segment released
    (layout.live.release released ?_)⟩
  intro allocation member here
  have above := (layout.live.inside layout.behind member).1
  have low : heapStart = 0xF00000 := rfl
  omega

end HeapLayout

/-- A step that meets the condition keeps the layout. -/
theorem HeapLayout.step
    {tolerance : Tolerance}
    {call : HeapCall}
    {before after : HeapClient}
    (laid : ∃ cells, HeapLayout tolerance before cells)
    (stepped :
      Guarded (KeepsLayout tolerance) HeapStep call before after) :
    ∃ cells, HeapLayout tolerance after cells := by
  obtain ⟨cells, layout⟩ := laid
  obtain ⟨keeps, called⟩ := stepped
  cases called with
  | malloc positive returned _ =>
      exact layout.malloc positive keeps returned
  | free held returned =>
      exact layout.free held keeps returned
  | defrag returned =>
      exact layout.defrag keeps returned

/-- On a list of one block, the search stops there. -/
theorem vmmMallocNextBlock_single
    {kernel : Kernel}
    {size : SizeT}
    (positive : 1 ≤ size.toNat)
    (initialized :
      blockSize kernel.heap.memory kernel.heap.mallocHead ≠ 0)
    (last : blockNext kernel.heap.memory kernel.heap.mallocHead = 0)
    (fuel : Nat) :
    vmmMallocNextBlock (fuel + 1) kernel size =
      (takeBlock (fuel + 1) kernel kernel.heap.mallocHead size).map
        fun (cur, later) => (cur + headerSize, later) := by
  have notZero : size ≠ 0 := by
    rintro rfl
    exact Nat.not_lt_zero 0 positive
  have stops :
      searchBlock kernel.heap.memory size (fuel + 1)
          kernel.heap.mallocHead =
        some kernel.heap.mallocHead := by
    rw [searchBlock]
    exact if_neg fun passes => passes.2 last
  simp only [vmmMallocNextBlock, if_neg notZero, if_neg initialized,
    stops, Option.bind_eq_bind, Option.bind_some, Option.pure_def,
    Option.map_eq_bind]
  rfl

/-- A single block of the requested size is handed out, used or not. -/
theorem vmmMallocNextBlock_exactly
    {kernel : Kernel}
    {size : SizeT}
    {free : Bool}
    (positive : 1 ≤ size.toNat)
    (header :
      Header kernel.heap.memory kernel.heap.mallocHead size free 0)
    (fuel : Nat) :
    vmmMallocNextBlock (fuel + 1) kernel size =
      some (kernel.heap.mallocHead + headerSize,
        { kernel with
          heap :=
            { kernel.heap with
              memory :=
                setBlockFree kernel.heap.memory kernel.heap.mallocHead
                  false } }) := by
  have initialized :
      blockSize kernel.heap.memory kernel.heap.mallocHead ≠ 0 := by
    rw [header.size]
    rintro rfl
    exact Nat.not_lt_zero 0 positive
  rw [vmmMallocNextBlock_single positive initialized header.next,
    takeBlock, if_pos header.size]
  rfl

/-- A larger single block is split, used or not. -/
theorem vmmMallocNextBlock_splits
    {kernel : Kernel}
    {size whole : SizeT}
    {free : Bool}
    (positive : 1 ≤ size.toNat)
    (header :
      Header kernel.heap.memory kernel.heap.mallocHead whole free 0)
    (other : whole ≠ size)
    (larger : size + headerSize < whole)
    (fuel : Nat) :
    vmmMallocNextBlock (fuel + 1) kernel size =
      some (kernel.heap.mallocHead + headerSize,
        { kernel with
          heap :=
            { kernel.heap with
              memory :=
                vmmMallocSplit kernel.heap.memory kernel.heap.mallocHead
                  size } }) := by
  have initialized :
      blockSize kernel.heap.memory kernel.heap.mallocHead ≠ 0 := by
    rw [header.size]
    rintro rfl
    exact Nat.not_lt_zero _ (BitVec.lt_def.mp larger)
  rw [vmmMallocNextBlock_single positive initialized header.next,
    takeBlock, if_neg (by rw [header.size]; exact other),
    if_pos (by rw [header.size]; exact larger)]
  rfl

/-- A free that returns. -/
theorem vmmMallocFree_of_freeFrom
    {kernel : Kernel}
    {ptr : PtrT}
    {fuel : Nat}
    {memory : Memory}
    (returned :
      freeFrom ptr fuel kernel.heap.memory kernel.heap.mallocHead 0 =
        some memory) :
    vmmMallocFree fuel kernel ptr =
      some
        { kernel with heap := { kernel.heap with memory := memory } } := by
  rw [vmmMallocFree, returned]
  rfl

namespace HeapLayout

variable
  {tolerance : Tolerance}
  {client : HeapClient}

/-- A request that splits a free block meets the condition. -/
theorem keepsLayout_splits
    {front back : List Cell}
    {cell : Cell}
    (layout : HeapLayout tolerance client (front ++ cell :: back))
    {size : SizeT}
    (stops : Stops size.toNat front cell back)
    (free : cell.free = true)
    (larger : size.toNat + 12 < cell.size) :
    KeepsLayout tolerance (.malloc size) client := by
  intro others other later segment otherStops
  have same :=
    layout.segment.unique layout.nonempty segment (by simp)
  obtain ⟨rfl, rfl, rfl⟩ := stops.unique otherStops same
  have dead := layout.live.noneAt_free (by omega) free
  exact
    { exactly := fun _ => Or.inr dead
      split := fun _ => dead
      extend := fun grows => absurd grows.2 (by omega)
      append := fun grows => absurd grows.2 (by omega) }

/-- A request whose search stops at a larger block splits it. -/
theorem vmmMallocNextBlock_larger
    {front back : List Cell}
    {cell : Cell}
    (layout : HeapLayout tolerance client (front ++ cell :: back))
    {size : SizeT}
    (positive : 1 ≤ size.toNat)
    (stops : Stops size.toNat front cell back)
    (larger : size.toNat + 12 < cell.size) :
    vmmMallocNextBlock (front.length + 1) client.kernel size =
      some (pointer (heapStart + totalSpan front) + headerSize,
        { client.kernel with
          heap :=
            { client.kernel.heap with
              memory :=
                vmmMallocSplit client.kernel.heap.memory
                  (pointer (heapStart + totalSpan front)) size } }) := by
  have notZero : size ≠ 0 := by
    rintro rfl
    exact Nat.not_lt_zero 0 positive
  have found :=
    searchBlock_of_stops layout.segment stops
      (Nat.lt_add_one front.length)
  rw [← layout.head] at found
  have taken :=
    takeBlock_larger layout.segment.from_cell larger (front.length + 1)
  simp only [vmmMallocNextBlock, if_neg notZero,
    if_neg layout.blockSize_head, found, taken, Option.bind_eq_bind,
    Option.bind_some, Option.pure_def]

/-- A request that splits a free block is a step that meets the condition. -/
theorem splits
    {front back : List Cell}
    {cell : Cell}
    (layout : HeapLayout tolerance client (front ++ cell :: back))
    {size : SizeT}
    (positive : 1 ≤ size.toNat)
    (stops : Stops size.toNat front cell back)
    (free : cell.free = true)
    (larger : size.toNat + 12 < cell.size)
    (served : client.kernel.CanServe) :
    ∃ after,
      Guarded (KeepsLayout tolerance) HeapStep (.malloc size) client
          after ∧
        HeapLayout tolerance after
          (front ++ ⟨size.toNat, false⟩ ::
            ⟨cell.size - size.toNat - 12, true⟩ :: back) ∧
        after.kernel.CanServe ∧
        after.live =
          ⟨pointer (heapStart + totalSpan front + 12), size⟩ ::
            client.live := by
  have keeps := layout.keepsLayout_splits stops free larger
  have taken :=
    takeBlock_larger layout.segment.from_cell larger (front.length + 1)
  have returned := layout.vmmMallocNextBlock_larger positive stops larger
  have later :=
    layout.split positive (keeps front cell back layout.segment stops)
      larger taken
  have notNull :
      pointer (heapStart + totalSpan front) + headerSize ≠ 0 := by
    have fits := layout.segment.from_cell.1.1
    unfold Cell.span at fits
    rw [pointer_add_headerSize]
    exact pointer_ne_zero (by omega) (by omega)
  refine ⟨_, ⟨keeps, HeapStep.malloc positive returned
    (served.withHeap _)⟩, later, served, ?_⟩
  rw [HeapClient.keep, if_neg notNull, pointer_add_headerSize]

/-- A free of the first block, in front of a used one. -/
theorem freesFirst
    {cell next : Cell}
    {rest : List Cell}
    (layout : HeapLayout tolerance client (cell :: next :: rest))
    (used : next.free = false)
    {allocation : Allocation}
    (held : allocation ∈ client.live)
    (first : allocation.pointer = pointer (heapStart + 12)) :
    ∃ after,
      Guarded (KeepsLayout tolerance) HeapStep (.free allocation) client
          after ∧
        after.live = client.live.erase allocation := by
  have freed :=
    freeFrom_first layout.segment used (Nat.le_refl _)
  rw [← layout.head, ← first] at freed
  refine ⟨_, ⟨?_, HeapStep.free held (vmmMallocFree_of_freeFrom freed)⟩,
    rfl⟩
  intro front other back segment position
  have room : heapStart + 12 < 2 ^ 32 := by decide
  rw [first, toNat_pointer room] at position
  cases front with
  | nil =>
      have same :=
        layout.segment.unique layout.nonempty segment (by simp)
      rw [List.nil_append, List.cons.injEq] at same
      rw [← same.2]
      exact Or.inr (Or.inr ⟨next, List.mem_cons_self, used⟩)
  | cons earlier front =>
      simp only [totalSpan_cons, Cell.span] at position
      omega

/-- Three requests split a fresh heap, and the first block is freed. -/
theorem splitsAndFrees
    (tolerance : Tolerance)
    {kernel : Kernel}
    {size first second third : SizeT}
    (fresh : KeepsFresh size)
    (positive :
      1 ≤ first.toNat ∧ 1 ≤ second.toNat ∧ 1 ≤ third.toNat)
    (room :
      first.toNat + second.toNat + third.toNat + 48 <
        (initialPages size).toNat * 4096)
    (served : (vmmMallocInit kernel size).CanServe) :
    ∃ client,
      Run (Guarded (KeepsLayout tolerance) HeapStep)
          (freshHeap kernel size)
          [.malloc first, .malloc second, .malloc third,
            .free ⟨pointer (heapStart + 12), first⟩]
          client ∧
        client.live =
          [⟨pointer (heapStart + (first.toNat + second.toNat + 36)), third⟩,
            ⟨pointer (heapStart + (first.toNat + 24)), second⟩,
            ⟨pointer (heapStart + 12), first⟩].erase
            ⟨pointer (heapStart + 12), first⟩ := by
  have layout := HeapLayout.fresh tolerance kernel fresh
  obtain ⟨one, firstStep, oneLayout, oneServed, oneLive⟩ :=
    @splits _ _ [] [] _ layout first positive.1 (.behindUsed (by simp))
      rfl (by dsimp only; omega) served
  obtain ⟨two, secondStep, twoLayout, twoServed, twoLive⟩ :=
    @splits _ _ [⟨first.toNat, false⟩] [] _ oneLayout second positive.2.1
      (.behindUsed (by simp)) rfl (by dsimp only; omega) oneServed
  obtain ⟨three, thirdStep, threeLayout, _, threeLive⟩ :=
    @splits _ _ [⟨first.toNat, false⟩, ⟨second.toNat, false⟩] [] _
      twoLayout third positive.2.2 (.behindUsed (by simp)) rfl
      (by dsimp only; omega) twoServed
  have secondAt :
      heapStart + totalSpan [⟨first.toNat, false⟩] + 12 =
        heapStart + (first.toNat + 24) := by
    simp only [totalSpan_cons, totalSpan_nil, Cell.span]
    omega
  have thirdAt :
      heapStart +
            totalSpan [⟨first.toNat, false⟩, ⟨second.toNat, false⟩] +
          12 =
        heapStart + (first.toNat + second.toNat + 36) := by
    simp only [totalSpan_cons, totalSpan_nil, Cell.span]
    omega
  rw [twoLive, oneLive, secondAt, thirdAt] at threeLive
  obtain ⟨after, freeStep, live⟩ :=
    @freesFirst _ _ _ _ _ threeLayout rfl
      ⟨pointer (heapStart + 12), first⟩
      (by rw [threeLive]; exact List.mem_of_mem_getLast? rfl) rfl
  refine ⟨after, (((Run.nil.snoc firstStep).snoc secondStep).snoc
    thirdStep).snoc freeStep, ?_⟩
  rw [live, threeLive]
  rfl

end HeapLayout

/-- A run whose calls meet the condition keeps the layout. -/
theorem heapRun_layout
    {tolerance : Tolerance}
    {kernel : Kernel}
    {size : SizeT}
    (fresh : KeepsFresh size)
    {calls : List HeapCall}
    {client : HeapClient}
    (run :
      Run (Guarded (KeepsLayout tolerance) HeapStep)
        (freshHeap kernel size) calls client) :
    ∃ cells, HeapLayout tolerance client cells :=
  run.invariant (fun client => ∃ cells, HeapLayout tolerance client cells)
    HeapLayout.step ⟨_, HeapLayout.fresh tolerance kernel fresh⟩

end HobbyOS
