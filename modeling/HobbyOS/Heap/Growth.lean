import HobbyOS.Heap.BlockList
import HobbyOS.Heap.PageCount

namespace HobbyOS

open Library

/-!
# Taking a block

What `vmm_malloc_next_block` does with the cell at which its search stopped:
it takes the whole cell, splits it, or grows the heap.  A free cell at the
end of the heap is enlarged; behind a used one a block of its own is put on
the new pages, which is not linked to the list.
-/

/-- A segment whose tail is replaced by writes behind its front. -/
theorem Segment.replaceTail
    {memory later : Memory}
    {address high : Nat}
    {front tail tail' : List Cell}
    (segment : Segment memory 0 address (front ++ tail))
    (nonempty : tail ≠ [])
    (nonempty' : tail' ≠ [])
    (agree :
      AgreeOutside (address + totalSpan front) high memory later)
    (replaced : Segment later 0 (address + totalSpan front) tail') :
    Segment later 0 address (front ++ tail') := by
  have kept := ((segment_append nonempty).mp segment).1
  exact (segment_append nonempty').mpr
    ⟨kept.congr (agree.agreeOn (Or.inl (Nat.le_refl _))), replaced⟩

/-- The segment from a cell on. -/
theorem Segment.from_cell
    {memory : Memory}
    {address : Nat}
    {front back : List Cell}
    {cell : Cell}
    (segment : Segment memory 0 address (front ++ cell :: back)) :
    Segment memory 0 (address + totalSpan front) (cell :: back) :=
  ((segment_append (List.cons_ne_nil cell back)).mp segment).2

/-- The heap after a call of `vmm_malloc_next_block`. -/
structure Took
    (kernel later : Kernel)
    (address : Nat)
    (cells : List Cell)
    (pages : Nat) :
    Prop where
  head : later.heap.mallocHead = kernel.heap.mallocHead
  vaddr : later.heap.mallocVaddr = kernel.heap.mallocVaddr
  total :
    later.heap.totalMallocPages =
      kernel.heap.totalMallocPages + BitVec.ofNat 32 pages
  segment : Segment later.heap.memory 0 address cells

section Take

variable
  {kernel later : Kernel}
  {size : SizeT}
  {fuel address : Nat}
  {cur : PtrT}
  {front back : List Cell}
  {cell : Cell}

/-- A cell of the size that is asked for is marked as used. -/
theorem takeBlock_exact
    (segment :
      Segment kernel.heap.memory 0 address (front ++ cell :: back))
    (exact_ : cell.size = size.toNat)
    (returned :
      takeBlock fuel kernel (pointer (address + totalSpan front)) size =
        some (cur, later)) :
    cur = pointer (address + totalSpan front) ∧
      Took kernel later address
        (front ++ ⟨size.toNat, false⟩ :: back) 0 := by
  have here := segment.from_cell
  have header := here.1
  have same :
      blockSize kernel.heap.memory (pointer (address + totalSpan front)) =
        size := by
    apply BitVec.eq_of_toNat_eq
    rw [header.toNat_blockSize, exact_]
  rw [takeBlock, if_pos same, Option.some.injEq, Prod.mk.injEq]
    at returned
  obtain ⟨rfl, rfl⟩ := returned
  have outside :=
    setBlockFree_agreeOutside kernel.heap.memory false header.2.room
  rw [header.toNat_pointer] at outside
  refine ⟨rfl, rfl, rfl, (BitVec.add_zero _).symm, ?_⟩
  refine segment.replaceTail (List.cons_ne_nil _ _)
    (List.cons_ne_nil _ _) outside ?_
  rw [← exact_]
  refine ⟨⟨header.1, header.2.setFree false⟩, ?_⟩
  refine here.2.congr (outside.agreeOn (Or.inr ?_))
  unfold Cell.span
  omega

/-- A cell that is split keeps the cells behind it. -/
theorem vmmMallocSplit_segment
    {memory : Memory}
    (segment : Segment memory 0 address (cell :: back))
    (enough : size.toNat + 12 ≤ cell.size) :
    let later := vmmMallocSplit memory (pointer address) size
    Segment later 0 address
        (⟨size.toNat, false⟩ ::
          ⟨cell.size - size.toNat - 12, true⟩ :: back) ∧
      AgreeOutside address (address + cell.span) memory later := by
  intro later
  obtain ⟨before, after, outside⟩ :=
    vmmMallocSplit_cells segment.1 enough
  have behind : address + cell.span ≤ address + cell.span :=
    Nat.le_refl _
  have rest := segment.2.congr (outside.agreeOn (Or.inr behind))
  have firstSpan :
      address + (⟨size.toNat, false⟩ : Cell).span =
        address + 12 + size.toNat := by
    simp only [Cell.span]
    omega
  have secondSpan :
      address + 12 + size.toNat +
          (⟨cell.size - size.toNat - 12, true⟩ : Cell).span =
        address + cell.span := by
    simp only [Cell.span]
    omega
  refine ⟨⟨?_, ?_⟩, outside⟩
  · rw [if_neg (List.cons_ne_nil _ _), firstSpan]
    exact before
  · rw [firstSpan]
    refine ⟨?_, ?_⟩
    · rw [secondSpan]
      exact after
    · rw [secondSpan]
      exact rest

/-- A cell with room for another header is split at once. -/
theorem takeBlock_larger
    (segment : Segment kernel.heap.memory 0 address (cell :: back))
    (larger : size.toNat + 12 < cell.size)
    (fuel : Nat) :
    takeBlock fuel kernel (pointer address) size =
      some (pointer address,
        { kernel with
          heap :=
            { kernel.heap with
              memory :=
                vmmMallocSplit kernel.heap.memory (pointer address)
                  size } }) := by
  have sizeValue := segment.1.toNat_blockSize
  have cellSize := segment.1.size_lt
  have different :
      blockSize kernel.heap.memory (pointer address) ≠ size := by
    intro same
    rw [same] at sizeValue
    omega
  have splits :
      size + headerSize <
        blockSize kernel.heap.memory (pointer address) := by
    have sum : (size + headerSize).toNat = size.toNat + 12 :=
      toNat_add_ofNat 12 (by omega)
    rw [BitVec.lt_def, sum, sizeValue]
    exact larger
  rw [takeBlock, if_neg different, if_pos splits]

/-- A cell with room for another header becomes two cells. -/
theorem takeBlock_split
    (segment :
      Segment kernel.heap.memory 0 address (front ++ cell :: back))
    (larger : size.toNat + 12 < cell.size)
    (returned :
      takeBlock fuel kernel (pointer (address + totalSpan front)) size =
        some (cur, later)) :
    cur = pointer (address + totalSpan front) ∧
      Took kernel later address
        (front ++ ⟨size.toNat, false⟩ ::
          ⟨cell.size - size.toNat - 12, true⟩ :: back) 0 := by
  rw [takeBlock_larger segment.from_cell larger, Option.some.injEq,
    Prod.mk.injEq] at returned
  obtain ⟨rfl, rfl⟩ := returned
  obtain ⟨tail, outside⟩ :=
    vmmMallocSplit_segment segment.from_cell (Nat.le_of_lt larger)
  exact ⟨rfl, rfl, rfl, (BitVec.add_zero _).symm,
    segment.replaceTail (List.cons_ne_nil _ _) (List.cons_ne_nil _ _)
      outside tail⟩

/-- A call that neither takes the cell as it is nor splits it grows. -/
theorem takeBlock_growHeap
    (segment :
      Segment kernel.heap.memory 0 address (front ++ cell :: back))
    (different : cell.size ≠ size.toNat)
    (small : cell.size ≤ size.toNat + 12)
    (room : size.toNat + 12 < 2 ^ 32) :
    takeBlock fuel kernel (pointer (address + totalSpan front)) size =
      growHeap fuel kernel (pointer (address + totalSpan front)) size := by
  have sizeValue := segment.from_cell.1.toNat_blockSize
  have notSame :
      blockSize kernel.heap.memory (pointer (address + totalSpan front)) ≠
        size := by
    intro same
    rw [same] at sizeValue
    exact different sizeValue.symm
  have notLess :
      ¬size + headerSize <
        blockSize kernel.heap.memory
          (pointer (address + totalSpan front)) := by
    have sum : (size + headerSize).toNat = size.toNat + 12 :=
      toNat_add_ofNat 12 room
    rw [BitVec.lt_def, sum, sizeValue]
    omega
  rw [takeBlock, if_neg notSame, if_neg notLess]

/-- A free cell at the end of the list is enlarged and split. -/
theorem growHeap_free
    (segment :
      Segment kernel.heap.memory 0 address (front ++ [cell]))
    (free : cell.free = true)
    {pages : Nat}
    (pagesSame : pages = pagesFor cell.size size.toNat)
    (enough : size.toNat + 12 ≤ cell.size + pages * 4096)
    (room :
      address + totalSpan (front ++ [cell]) + pages * 4096 ≤ 2 ^ 32)
    (returned :
      growHeap fuel kernel (pointer (address + totalSpan front)) size =
        some (cur, later)) :
    cur = pointer (address + totalSpan front) ∧
      Took kernel later address
        (front ++ [⟨size.toNat, false⟩,
          ⟨cell.size + pages * 4096 - size.toNat - 12, true⟩])
        pages := by
  have here := segment.from_cell
  have header := here.1
  have sizeValue := header.toNat_blockSize
  rw [totalSpan_append, totalSpan_cons, totalSpan_nil, Cell.span] at room
  rw [growHeap] at returned
  simp only [header.2.free, free, ↓reduceIte, Option.bind_eq_bind,
    Option.bind_eq_some_iff, Option.pure_def, Option.some.injEq,
    Prod.mk.injEq] at returned
  obtain ⟨additional, counted, paging, _, rfl, rfl⟩ := returned
  have additionalValue : additional.toNat = pages := by
    rw [pagesSame, ← sizeValue]
    refine countPages_eq ?_ counted
    rw [sizeValue, ← pagesSame]
    omega
  have additionalSame : additional = BitVec.ofNat 32 pages := by
    rw [← additionalValue, BitVec.ofNat_toNat, BitVec.setWidth_eq]
  -- The enlarged cell, before it is split.
  have grownSize :
      BitVec.ofNat 32 cell.size + additional * 4096 =
        BitVec.ofNat 32 (cell.size + pages * 4096) := by
    rw [additionalSame, BitVec.ofNat_add, BitVec.ofNat_mul]
    rfl
  have outside :=
    setBlockSize_agreeOutside kernel.heap.memory
      (BitVec.ofNat 32 (cell.size + pages * 4096)) header.2.room
  have grown :
      Segment
        (setBlockSize kernel.heap.memory
          (pointer (address + totalSpan front))
          (BitVec.ofNat 32 (cell.size + pages * 4096)))
        0 (address + totalSpan front)
        [⟨cell.size + pages * 4096, true⟩] := by
    refine ⟨⟨?_, ?_⟩, trivial⟩
    · simp only [Cell.span]
      omega
    · have resized :=
        header.2.setSize (BitVec.ofNat 32 (cell.size + pages * 4096))
      rw [free] at resized
      exact resized
  obtain ⟨tail, splitOutside⟩ := vmmMallocSplit_segment grown enough
  rw [header.toNat_pointer] at outside
  have both :=
    (outside.mono (Nat.le_refl _)
      (show address + totalSpan front + 12 ≤
          address + totalSpan front +
            (⟨cell.size + pages * 4096, true⟩ : Cell).span by
        simp only [Cell.span]
        omega)).trans splitOutside
  refine ⟨rfl, rfl, rfl, ?_, ?_⟩
  · rw [additionalSame]
  · rw [header.2.size, grownSize]
    exact segment.replaceTail (List.cons_ne_nil _ _)
      (List.cons_ne_nil _ _) both tail

/-- Behind a used cell a block of its own is put on the new pages. -/
theorem growHeap_used
    (segment :
      Segment kernel.heap.memory 0 address (front ++ cell :: back))
    (used : cell.free = false)
    {pages heapEnd : Nat}
    (pagesSame : pages = pagesFor cell.size (size.toNat + 12))
    (endSame :
      kernel.heap.mallocVaddr + kernel.heap.totalMallocPages * 4096 =
        pointer heapEnd)
    (behind :
      address + totalSpan (front ++ cell :: back) ≤ heapEnd)
    (enough : size.toNat + 12 ≤ pages * 4096)
    (room : heapEnd + pages * 4096 + 12 ≤ 2 ^ 32)
    (returned :
      growHeap fuel kernel (pointer (address + totalSpan front)) size =
        some (cur, later)) :
    cur = pointer heapEnd ∧
      Took kernel later address (front ++ cell :: back) pages := by
  have here := segment.from_cell
  have header := here.1
  have sizeValue := header.toNat_blockSize
  have inside :
      address + totalSpan front + cell.span ≤
        address + totalSpan (front ++ cell :: back) := by
    simp only [totalSpan_append, totalSpan_cons]
    omega
  unfold Cell.span at inside
  have bound : (size + headerSize).toNat = size.toNat + 12 :=
    toNat_add_ofNat 12 (by omega)
  rw [growHeap] at returned
  simp only [header.2.free, used, Bool.false_eq_true, ↓reduceIte,
    Option.bind_eq_bind, Option.bind_eq_some_iff, Option.pure_def,
    Option.some.injEq, Prod.mk.injEq, endSame] at returned
  obtain ⟨additional, counted, paging, _, rfl, rfl⟩ := returned
  have additionalValue : additional.toNat = pages := by
    rw [pagesSame, ← sizeValue, ← bound]
    refine countPages_eq ?_ counted
    rw [sizeValue, bound, ← pagesSame]
    omega
  have additionalSame : additional = BitVec.ofNat 32 pages := by
    rw [← additionalValue, BitVec.ofNat_toNat, BitVec.setWidth_eq]
  have newSize :
      additional * 4096 = BitVec.ofNat 32 (pages * 4096) := by
    rw [additionalSame, BitVec.ofNat_mul]
    rfl
  have position : (pointer heapEnd).toNat = heapEnd :=
    toNat_pointer (by omega)
  have newRoom : (pointer heapEnd).toNat + 12 ≤ 2 ^ 32 := by omega
  -- The header of the new block, before it is split.
  obtain ⟨newHeader, outside⟩ :=
    Header.written kernel.heap.memory (BitVec.ofNat 32 (pages * 4096))
      true 0 newRoom
  rw [position] at outside
  have newFits :
      heapEnd + (⟨pages * 4096, true⟩ : Cell).span ≤ 2 ^ 32 := by
    simp only [Cell.span]
    omega
  obtain ⟨_, _, splitOutside⟩ :=
    vmmMallocSplit_cells ⟨newFits, newHeader⟩ enough
  have both :=
    (outside.mono (Nat.le_refl _)
      (show heapEnd + 12 ≤
          heapEnd + (⟨pages * 4096, true⟩ : Cell).span by
        simp only [Cell.span]
        omega)).trans splitOutside
  refine ⟨rfl, rfl, rfl, ?_, ?_⟩
  · rw [additionalSame]
  · rw [newSize]
    exact segment.congr (both.agreeOn (Or.inl behind))

end Take

end HobbyOS
