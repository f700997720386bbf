import HobbyOS.Heap.PageCount
import HobbyOS.Heap.PageLoop

namespace HobbyOS

open Library

/-!
# Pages that a call requests

A call of `vmm_malloc_next_block` searches the list, and where the block it
stops at neither fits nor is split, it counts pages and requests them behind
the end of the heap.
-/

/-- The search moves on from a block. -/
def Passes (memory : Memory) (size : SizeT) (cur : PtrT) : Prop :=
  (blockSize memory cur < size ∨ blockFree memory cur = false) ∧
    blockNext memory cur ≠ 0

/-- The blocks from one on are passed, up to one where the search stops. -/
inductive SearchStops (memory : Memory) (size : SizeT) :
    PtrT → PtrT → Prop where
  | here
      {cur : PtrT}
      (stops : ¬Passes memory size cur) :
      SearchStops memory size cur cur
  | pass
      {cur last : PtrT}
      (passes : Passes memory size cur) :
      SearchStops memory size (blockNext memory cur) last →
      SearchStops memory size cur last

/-- The block is neither taken as it is nor split. -/
def GrowsAt (memory : Memory) (size : SizeT) (cur : PtrT) : Prop :=
  blockSize memory cur ≠ size ∧
    ¬size + headerSize < blockSize memory cur

/-- The size that the counting loops raise a block to. -/
def growthBound (memory : Memory) (size : SizeT) (cur : PtrT) : SizeT :=
  if blockFree memory cur then size else size + headerSize

/-- The pages that are requested to grow the heap at a block. -/
inductive ExtraPages (memory : Memory) (size : SizeT) (cur : PtrT) :
    Nat → Prop where
  | fits
      (stays : ¬GrowsAt memory size cur) :
      ExtraPages memory size cur 0
  | grows
      {pages : Nat}
      (needed : GrowsAt memory size cur)
      (least :
        LeastPages (blockSize memory cur) (growthBound memory size cur)
          pages) :
      ExtraPages memory size cur pages

/-- The end of the heap, where further pages are put. -/
def Heap.endPointer (heap : Heap) : PtrT :=
  heap.mallocVaddr + heap.totalMallocPages * 4096

/-- The page at the end of the heap is the one after its pages. -/
theorem Heap.endPointer_eq (heap : Heap) :
    heap.endPointer =
      pageAt heap.mallocVaddr heap.totalMallocPages.toNat := by
  rw [endPointer, pageAt, BitVec.ofNat_toNat, BitVec.setWidth_eq]

/-- A call has requested the pages behind the end of the heap. -/
structure GrewBy (kernel later : Kernel) (pages : Nat) : Prop where
  few : pages ≤ 255
  paging :
    later.paging =
      grownPages kernel.paging kernel.heap.endPointer pages
  total :
    later.heap.totalMallocPages =
      kernel.heap.totalMallocPages + BitVec.ofNat 32 pages
  vaddr : later.heap.mallocVaddr = kernel.heap.mallocVaddr

/-! ## The search -/

section Search

variable
  {memory : Memory}
  {size : SizeT}
  {cur : PtrT}

/-- A search that ends has passed the blocks before the last one. -/
theorem searchStops_of_searchBlock
    {fuel : Nat}
    {last : PtrT}
    (found : searchBlock memory size fuel cur = some last) :
    SearchStops memory size cur last := by
  induction fuel generalizing cur with
  | zero =>
      exact absurd found (by simp [searchBlock])
  | succ fuel inductionHypothesis =>
      rw [searchBlock] at found
      split at found
      · rename_i passes
        exact .pass passes (inductionHypothesis found)
      · rename_i stops
        rw [← Option.some.inj found]
        exact .here stops

/-- A search that stops ends, given the fuel. -/
theorem SearchStops.searchBlock
    {last : PtrT}
    (stops : SearchStops memory size cur last) :
    ∃ enough, ∀ fuel ≥ enough,
      HobbyOS.searchBlock memory size fuel cur = some last := by
  induction stops with
  | here stops =>
      refine ⟨1, ?_⟩
      intro fuel fueled
      obtain ⟨rest, rfl⟩ := Nat.exists_eq_add_of_le' fueled
      rw [HobbyOS.searchBlock]
      exact if_neg stops
  | pass passes _ inductionHypothesis =>
      obtain ⟨enough, ends⟩ := inductionHypothesis
      refine ⟨enough + 1, ?_⟩
      intro fuel fueled
      obtain ⟨rest, rfl⟩ :=
        Nat.exists_eq_add_of_le' (show 1 ≤ fuel by omega)
      rw [HobbyOS.searchBlock]
      exact (if_pos passes).trans (ends rest (by omega))

/-- The search stops at one block at most. -/
theorem SearchStops.unique
    {first second : PtrT}
    (firstStops : SearchStops memory size cur first)
    (secondStops : SearchStops memory size cur second) :
    first = second := by
  induction firstStops with
  | here stops =>
      cases secondStops with
      | here =>
          rfl
      | pass passes =>
          exact (stops passes).elim
  | pass passes _ inductionHypothesis =>
      cases secondStops with
      | here stops =>
          exact (stops passes).elim
      | pass _ rest =>
          exact inductionHypothesis rest

/-- A block grows by one number of pages. -/
theorem ExtraPages.unique
    {first second : Nat}
    (firstPages : ExtraPages memory size cur first)
    (secondPages : ExtraPages memory size cur second) :
    first = second := by
  cases firstPages with
  | fits stays =>
      cases secondPages with
      | fits =>
          rfl
      | grows needed =>
          exact (stays needed).elim
  | grows needed least =>
      cases secondPages with
      | fits stays =>
          exact (stays needed).elim
      | grows _ otherLeast =>
          exact least.unique otherLeast

end Search

/-! ## Growth -/

section Growth

variable
  {fuel : Nat}
  {kernel later : Kernel}
  {cur result : PtrT}
  {size : SizeT}

/-- Without growth, no page is requested. -/
theorem GrewBy.none
    (paging : later.paging = kernel.paging)
    (total : later.heap.totalMallocPages = kernel.heap.totalMallocPages)
    (vaddr : later.heap.mallocVaddr = kernel.heap.mallocVaddr) :
    GrewBy kernel later 0 :=
  ⟨Nat.zero_le _, paging, total.trans (BitVec.add_zero _).symm, vaddr⟩

/-- Growing requests the pages that were counted. -/
theorem growHeap_grewBy
    (returned : growHeap fuel kernel cur size = some (result, later)) :
    ∃ pages,
      LeastPages (blockSize kernel.heap.memory cur)
          (growthBound kernel.heap.memory size cur) pages ∧
        GrewBy kernel later pages := by
  simp only [growHeap, Option.bind_eq_bind, Option.bind_eq_some_iff,
    Option.pure_def] at returned
  obtain ⟨additional, counted, paging, grown, finished⟩ := returned
  obtain ⟨few, rfl⟩ := mallocGrowPages_eq grown
  have total :
      kernel.heap.totalMallocPages + additional =
        kernel.heap.totalMallocPages +
          BitVec.ofNat 32 additional.toNat := by
    rw [BitVec.ofNat_toNat, BitVec.setWidth_eq]
  refine ⟨additional.toNat, leastPages_of_countPages counted, ?_⟩
  split at finished
  · rw [Option.some.injEq, Prod.mk.injEq] at finished
    obtain ⟨_, rfl⟩ := finished
    exact ⟨few, rfl, total, rfl⟩
  · rw [Option.some.injEq, Prod.mk.injEq] at finished
    obtain ⟨_, rfl⟩ := finished
    exact ⟨few, rfl, total, rfl⟩

/-- Taking a block requests pages only to grow. -/
theorem takeBlock_grewBy
    (returned : takeBlock fuel kernel cur size = some (result, later)) :
    ∃ pages,
      ExtraPages kernel.heap.memory size cur pages ∧
        GrewBy kernel later pages := by
  unfold takeBlock at returned
  dsimp only at returned
  split at returned
  · rename_i same
    rw [Option.some.injEq, Prod.mk.injEq] at returned
    obtain ⟨_, rfl⟩ := returned
    exact ⟨0, .fits fun grows => grows.1 same, GrewBy.none rfl rfl rfl⟩
  · rename_i different
    split at returned
    · rename_i larger
      rw [Option.some.injEq, Prod.mk.injEq] at returned
      obtain ⟨_, rfl⟩ := returned
      exact ⟨0, .fits fun grows => grows.2 larger,
        GrewBy.none rfl rfl rfl⟩
    · rename_i small
      obtain ⟨pages, least, grew⟩ := growHeap_grewBy returned
      exact ⟨pages, .grows ⟨different, small⟩ least, grew⟩

/-- The loops of the growth branch end, given the fuel. -/
theorem growthLoops_end
    {curSize bound : SizeT}
    {pages : Nat}
    (least : LeastPages curSize bound pages)
    (few : pages ≤ 255)
    (fueled : pages < fuel)
    (paging : Paging)
    (endAddress : PtrT) :
    countPages curSize bound fuel 1 = some (BitVec.ofNat 32 pages) ∧
      mallocGrowPages endAddress (BitVec.ofNat 32 pages) fuel 0 paging =
        some (grownPages paging endAddress pages) := by
  have value : (BitVec.ofNat 32 pages).toNat = pages :=
    Nat.mod_eq_of_lt (by omega)
  have counted :
      countPages curSize bound fuel 1 = _ :=
    countPages_of_least least fuel (Nat.le_refl 1) least.positive
  have grown :
      mallocGrowPages endAddress (BitVec.ofNat 32 pages) fuel 0 paging =
        _ :=
    mallocGrowPages_of_le (by omega) (Nat.zero_le _)
  rw [if_pos (by omega)] at counted
  rw [if_pos (by rw [value]; exact fueled), value] at grown
  exact ⟨counted, grown⟩

/-- Taking a block ends if it grows by at most 255 pages. -/
theorem ExtraPages.takeBlock
    {pages : Nat}
    (extra : ExtraPages kernel.heap.memory size cur pages)
    (few : pages ≤ 255)
    (fueled : pages < fuel) :
    ∃ result later,
      HobbyOS.takeBlock fuel kernel cur size = some (result, later) := by
  cases extra with
  | fits stays =>
      unfold HobbyOS.takeBlock
      dsimp only
      split
      · exact ⟨_, _, rfl⟩
      · rename_i different
        split
        · exact ⟨_, _, rfl⟩
        · rename_i small
          exact (stays ⟨different, small⟩).elim
  | grows needed least =>
      obtain ⟨counted, grown⟩ :=
        growthLoops_end least few fueled kernel.paging
          kernel.heap.endPointer
      unfold HobbyOS.takeBlock
      dsimp only
      rw [if_neg needed.1, if_neg needed.2, growHeap]
      unfold growthBound at counted
      unfold Heap.endPointer at grown
      simp only [counted, grown, Option.bind_eq_bind, Option.bind_some,
        Option.pure_def]
      split
      · exact ⟨_, _, rfl⟩
      · exact ⟨_, _, rfl⟩

/-- A call that does not initialize the heap anew. -/
theorem vmmMallocNextBlock_grewBy
    (positive : 1 ≤ size.toNat)
    (initialized :
      blockSize kernel.heap.memory kernel.heap.mallocHead ≠ 0)
    (returned :
      vmmMallocNextBlock fuel kernel size = some (result, later)) :
    ∃ cur pages,
      SearchStops kernel.heap.memory size kernel.heap.mallocHead cur ∧
        ExtraPages kernel.heap.memory size cur pages ∧
        GrewBy kernel later pages := by
  have notZero : size ≠ 0 := by
    rintro rfl
    exact Nat.not_lt_zero 0 positive
  simp only [vmmMallocNextBlock, if_neg notZero, if_neg initialized,
    Option.bind_eq_bind, Option.bind_eq_some_iff, Option.pure_def,
    Option.some.injEq, Prod.mk.injEq, Prod.exists] at returned
  obtain ⟨cur, found, _, _, taken, _, rfl⟩ := returned
  obtain ⟨pages, extra, grew⟩ := takeBlock_grewBy taken
  exact ⟨cur, pages, searchStops_of_searchBlock found, extra, grew⟩

end Growth

end HobbyOS
