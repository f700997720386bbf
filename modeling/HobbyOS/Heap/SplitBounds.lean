import HobbyOS.Heap.Client
import HobbyOS.Heap.Exhaustion

namespace HobbyOS

open Library

/-!
# Splits with room for a second header

`vmm_malloc_split` subtracts the size and a header from the size of the block
it is given, in 32 bits.  `vmm_malloc_next_block` calls it last, from three
places: for a block that its 32-bit test takes for larger, for a free block
that was grown, and for a new block behind a used one.  The three guards
differ, and only some sizes leave room for the second header.
-/

/-! ## The calls of `vmm_malloc_split` -/

/--
The last thing `vmm_malloc_next_block` does: take the block `cur` as it is, or
call `vmm_malloc_split(before, size)`.
-/
inductive LastStep where
  | exactly (kernel : Kernel) (cur : PtrT) : LastStep
  | split (kernel : Kernel) (before : PtrT) : LastStep

/-- The growth branch, up to its call of `vmm_malloc_split`. -/
def growBlock
    (fuel : Nat)
    (kernel : Kernel)
    (cur : PtrT)
    (size : SizeT) :
    Option LastStep := do
  let heap := kernel.heap
  let curSize := blockSize heap.memory cur
  let free := blockFree heap.memory cur
  let additionalPages ←
    countPages curSize (if free then size else size + headerSize) fuel 1
  let endAddress := heap.mallocVaddr + heap.totalMallocPages * 4096
  let paging ←
    mallocGrowPages endAddress additionalPages fuel 0 kernel.paging
  let grown :=
    { heap with
      totalMallocPages := heap.totalMallocPages + additionalPages }
  if free then
    let memory :=
      setBlockSize heap.memory cur (curSize + additionalPages * 4096)
    return .split ⟨paging, { grown with memory := memory }⟩ cur
  else
    let memory :=
      setBlockSize heap.memory endAddress (additionalPages * 4096)
    let memory := setBlockFree memory endAddress true
    let memory := setBlockNext memory endAddress 0
    return .split ⟨paging, { grown with memory := memory }⟩ endAddress

/-- What is done with the block that the search stopped at. -/
def pickBlock
    (fuel : Nat)
    (kernel : Kernel)
    (cur : PtrT)
    (size : SizeT) :
    Option LastStep :=
  if blockSize kernel.heap.memory cur = size then
    some (.exactly kernel cur)
  else if size + headerSize < blockSize kernel.heap.memory cur then
    some (.split kernel cur)
  else
    growBlock fuel kernel cur size

/-- The last step of a call, if the call reaches it. -/
def lastStep
    (fuel : Nat)
    (kernel : Kernel)
    (size : SizeT) :
    Option LastStep :=
  if size = 0 then
    none
  else do
    let kernel := initializedKernel kernel size
    let cur ←
      searchBlock kernel.heap.memory size fuel kernel.heap.mallocHead
    pickBlock fuel kernel cur size

/-- The block and the state after the last step. -/
def LastStep.run (size : SizeT) : LastStep → PtrT × Kernel
  | .exactly kernel cur =>
      (cur,
        { kernel with
          heap :=
            { kernel.heap with
              memory := setBlockFree kernel.heap.memory cur false } })
  | .split kernel before =>
      (before,
        { kernel with
          heap :=
            { kernel.heap with
              memory :=
                vmmMallocSplit kernel.heap.memory before size } })

/-- Taking a block ends with its last step. -/
theorem takeBlock_eq_pickBlock
    (fuel : Nat)
    (kernel : Kernel)
    (cur : PtrT)
    (size : SizeT) :
    takeBlock fuel kernel cur size =
      (pickBlock fuel kernel cur size).map (LastStep.run size) := by
  unfold takeBlock pickBlock
  dsimp only
  split
  · rfl
  · split
    · rfl
    · unfold growHeap growBlock
      simp only [Option.bind_eq_bind, Option.pure_def, Option.map_bind]
      congr 1
      funext additional
      simp only [Function.comp_apply, Option.map_bind]
      congr 1
      funext paging
      split
      · rfl
      · rfl

/-- A call ends with its last step, and returns the payload of its block. -/
theorem vmmMallocNextBlock_eq_lastStep
    (fuel : Nat)
    (kernel : Kernel)
    {size : SizeT}
    (positive : 1 ≤ size.toNat) :
    vmmMallocNextBlock fuel kernel size =
      (lastStep fuel kernel size).map fun step =>
        ((step.run size).1 + headerSize, (step.run size).2) := by
  have notZero : size ≠ 0 := by
    rintro rfl
    exact Nat.not_lt_zero 0 positive
  rw [vmmMallocNextBlock_eq positive, lastStep, if_neg notZero]
  simp only [takeBlock_eq_pickBlock, Option.bind_eq_bind,
    Option.pure_def, Option.map_bind]
  congr 1
  funext cur
  rw [Function.comp_apply]
  cases pickBlock fuel (initializedKernel kernel size) cur size with
  | none => rfl
  | some step => rfl

/-- The size of the block that a call hands to `vmm_malloc_split`. -/
inductive SplitSize (memory : Memory) (size : SizeT) (cur : PtrT) :
    SizeT → Prop where
  | larger
      (different : blockSize memory cur ≠ size)
      (larger : size + headerSize < blockSize memory cur) :
      SplitSize memory size cur (blockSize memory cur)
  | grown
      {pages : Nat}
      (needed : GrowsAt memory size cur)
      (free : blockFree memory cur = true)
      (least : LeastPages (blockSize memory cur) size pages)
      (few : pages ≤ 255) :
      SplitSize memory size cur
        (blockSize memory cur + BitVec.ofNat 32 pages * 4096)
  | appended
      {pages : Nat}
      (needed : GrowsAt memory size cur)
      (used : blockFree memory cur = false)
      (least :
        LeastPages (blockSize memory cur) (size + headerSize) pages)
      (few : pages ≤ 255) :
      SplitSize memory size cur (BitVec.ofNat 32 pages * 4096)

/-- Marking a block does not change its size. -/
theorem blockSize_setBlockFree
    (memory : Memory)
    (block : PtrT)
    (free : Bool) :
    blockSize (setBlockFree memory block free) block =
      blockSize memory block := by
  have apart (offset : BitVec 32) (below : offset.toNat < 4) :
      block + offset ≠ block + 4 := by
    bv_omega
  have first : block ≠ block + 4 := by bv_omega
  simp only [blockSize, setBlockFree, readWord, writeByte,
    Function.update_of_ne first,
    Function.update_of_ne (apart 1 (by decide)),
    Function.update_of_ne (apart 2 (by decide)),
    Function.update_of_ne (apart 3 (by decide))]

/-- Linking a block does not change its size. -/
theorem blockSize_setBlockNext
    (memory : Memory)
    (block next : PtrT) :
    blockSize (setBlockNext memory block next) block =
      blockSize memory block := by
  have apart
      (offset further : BitVec 32)
      (below : offset.toNat < 4)
      (inside : further.toNat < 4) :
      block + offset ≠ block + 8 + further := by
    bv_omega
  have same (offset : BitVec 32) (below : offset.toNat < 4) :
      setBlockNext memory block next (block + offset) =
        memory (block + offset) := by
    have zero : block + offset ≠ block + 8 := by bv_omega
    simp only [setBlockNext, writeWord, writeByte,
      Function.update_of_ne zero,
      Function.update_of_ne (apart offset 1 below (by decide)),
      Function.update_of_ne (apart offset 2 below (by decide)),
      Function.update_of_ne (apart offset 3 below (by decide))]
  have first : setBlockNext memory block next block = memory block := by
    simpa using same 0 (by decide)
  simp only [blockSize, readWord, first, same 1 (by decide),
    same 2 (by decide), same 3 (by decide)]

section Pick

variable
  {kernel after : Kernel}
  {cur before : PtrT}
  {size : SizeT}

/-- The block that the growth branch splits has the size it was grown to. -/
theorem splitSize_of_growBlock
    {fuel : Nat}
    (needed : GrowsAt kernel.heap.memory size cur)
    (reached :
      growBlock fuel kernel cur size = some (.split after before)) :
    SplitSize kernel.heap.memory size cur
      (blockSize after.heap.memory before) := by
  simp only [growBlock, Option.bind_eq_bind, Option.bind_eq_some_iff,
    Option.pure_def] at reached
  obtain ⟨additional, counted, paging, grown, finished⟩ := reached
  obtain ⟨few, _⟩ := mallocGrowPages_eq grown
  have least := leastPages_of_countPages counted
  have value : BitVec.ofNat 32 additional.toNat = additional := by
    rw [BitVec.ofNat_toNat, BitVec.setWidth_eq]
  split at finished
  · rename_i free
    rw [if_pos free] at least
    rw [Option.some.injEq, LastStep.split.injEq] at finished
    obtain ⟨rfl, rfl⟩ := finished
    have size := SplitSize.grown needed free least few
    rw [value] at size
    dsimp only
    rw [blockSize, setBlockSize, readWord_writeWord_self]
    exact size
  · rename_i used
    rw [if_neg used] at least
    rw [Option.some.injEq, LastStep.split.injEq] at finished
    obtain ⟨rfl, rfl⟩ := finished
    have size :=
      SplitSize.appended needed (Bool.eq_false_iff.mpr used) least few
    rw [value] at size
    dsimp only
    rw [blockSize_setBlockNext, blockSize_setBlockFree, blockSize,
      setBlockSize, readWord_writeWord_self]
    exact size

/-- The size of a block that is split, at each of the three call sites. -/
theorem splitSize_of_pickBlock
    {fuel : Nat}
    (reached :
      pickBlock fuel kernel cur size = some (.split after before)) :
    SplitSize kernel.heap.memory size cur
      (blockSize after.heap.memory before) := by
  unfold pickBlock at reached
  split at reached
  · cases reached
  · rename_i different
    split at reached
    · rename_i larger
      rw [Option.some.injEq, LastStep.split.injEq] at reached
      obtain ⟨rfl, rfl⟩ := reached
      exact .larger different larger
    · rename_i small
      exact splitSize_of_growBlock ⟨different, small⟩ reached

/-- The growth branch reaches its split, given the fuel. -/
theorem growBlock_reaches
    {pages : Nat}
    (least :
      LeastPages (blockSize kernel.heap.memory cur)
        (growthBound kernel.heap.memory size cur) pages)
    (few : pages ≤ 255)
    {fuel : Nat}
    (fueled : pages < fuel) :
    ∃ after before,
      growBlock fuel kernel cur size = some (.split after before) := by
  obtain ⟨counted, grown⟩ :=
    growthLoops_end least few fueled kernel.paging kernel.heap.endPointer
  unfold growthBound at counted
  unfold Heap.endPointer at grown
  simp only [growBlock, counted, grown, Option.bind_eq_bind,
    Option.bind_some, Option.pure_def]
  split
  · exact ⟨_, _, rfl⟩
  · exact ⟨_, _, rfl⟩

/-- Every size a split can meet is met, given the fuel. -/
theorem SplitSize.pickBlock
    {available : SizeT}
    (met : SplitSize kernel.heap.memory size cur available) :
    ∃ enough, ∀ fuel ≥ enough, ∃ after before,
      HobbyOS.pickBlock fuel kernel cur size =
          some (.split after before) ∧
        blockSize after.heap.memory before = available := by
  have grows
      {pages : Nat}
      (needed : GrowsAt kernel.heap.memory size cur)
      (least :
        LeastPages (blockSize kernel.heap.memory cur)
          (growthBound kernel.heap.memory size cur) pages)
      (few : pages ≤ 255)
      (fuel : Nat)
      (fueled : fuel ≥ pages + 1) :
      ∃ after before,
        HobbyOS.pickBlock fuel kernel cur size =
          some (.split after before) := by
    rw [HobbyOS.pickBlock, if_neg needed.1, if_neg needed.2]
    exact growBlock_reaches least few fueled
  cases met with
  | larger different larger =>
      refine ⟨0, ?_⟩
      intro fuel _
      refine ⟨kernel, cur, ?_, rfl⟩
      rw [HobbyOS.pickBlock, if_neg different, if_pos larger]
  | @grown pages needed free least few =>
      refine ⟨pages + 1, ?_⟩
      intro fuel fueled
      obtain ⟨after, before, reached⟩ :=
        grows needed (by rw [growthBound, if_pos free]; exact least) few
          fuel fueled
      refine ⟨after, before, reached, ?_⟩
      have other := splitSize_of_pickBlock reached
      generalize blockSize after.heap.memory before = found at other ⊢
      cases other with
      | larger _ larger =>
          exact (needed.2 larger).elim
      | grown _ _ otherLeast _ =>
          rw [otherLeast.unique least]
      | appended _ used _ _ =>
          rw [free] at used
          contradiction
  | @appended pages needed used least few =>
      refine ⟨pages + 1, ?_⟩
      intro fuel fueled
      have bound :
          growthBound kernel.heap.memory size cur = size + headerSize := by
        rw [growthBound, if_neg (Bool.eq_false_iff.mp used)]
      obtain ⟨after, before, reached⟩ :=
        grows needed (by rw [bound]; exact least) few fuel fueled
      refine ⟨after, before, reached, ?_⟩
      have other := splitSize_of_pickBlock reached
      generalize blockSize after.heap.memory before = found at other ⊢
      cases other with
      | larger _ larger =>
          exact (needed.2 larger).elim
      | grown _ free _ _ =>
          rw [used] at free
          contradiction
      | appended _ _ otherLeast _ =>
          rw [otherLeast.unique least]

end Pick

/-! ## The condition -/

/--
The heap can be grown at a block: the 32-bit sums of the counting loop reach
the bound, and the `uint8_t` loop gets through the pages.
-/
def GrowthEnds (block bound : Nat) : Prop :=
  pagesFor block bound ≤ 255 ∧
    block + pagesFor block bound * 4096 < 2 ^ 32

instance (block bound : Nat) : Decidable (GrowthEnds block bound) :=
  inferInstanceAs (Decidable (_ ∧ _))

/--
A block at which the search stops leaves room for the second header: it is
split as it is only for sizes whose sum with a header fits in 32 bits; a free
block grows by whole pages up to the size and a header; and the whole pages of
a new block behind a used one hold the size and a header.
-/
structure RoomToSplit (block : Nat) (free : Bool) (size : Nat) : Prop where
  larger :
    (size + 12) % 2 ^ 32 < block →
    size + 12 < 2 ^ 32
  grown :
    block ≤ (size + 12) % 2 ^ 32 →
    free = true →
    GrowthEnds block size →
    size + 12 ≤ block + pagesFor block size * 4096
  appended :
    block ≤ (size + 12) % 2 ^ 32 →
    free = false →
    size + 12 < 2 ^ 32 ∧
      (GrowthEnds block (size + 12) →
        size + 12 ≤ pagesFor block (size + 12) * 4096)

/-- Few pages are counted exactly if the heap can be grown. -/
theorem leastPages_iff
    {curSize bound : SizeT}
    (near : curSize.toNat ≤ bound.toNat + 12)
    (pages : Nat) :
    (LeastPages curSize bound pages ∧ pages ≤ 255) ↔
      GrowthEnds curSize.toNat bound.toNat ∧
        pages = pagesFor curSize.toNat bound.toNat := by
  constructor
  · rintro ⟨least, few⟩
    have page : (4096 : SizeT).toNat = 4096 := rfl
    have sum :
        (curSize + BitVec.ofNat 32 pages * 4096).toNat =
          (curSize.toNat + pages * 4096) % 2 ^ 32 := by
      rw [BitVec.toNat_add, BitVec.toNat_mul, BitVec.toNat_ofNat, page]
      omega
    have reaches := least.reaches
    rw [BitVec.lt_def, sum] at reaches
    have bounded := curSize.isLt
    have reached :
        bound.toNat ≤ curSize.toNat + pages * 4096 ∧
          curSize.toNat + pages * 4096 < 2 ^ 32 := by
      omega
    have fewer := pagesFor_le least.positive reached.1
    have room :
        curSize.toNat + pagesFor curSize.toNat bound.toNat * 4096 <
          2 ^ 32 := by
      omega
    have same := least.unique (leastPages_pagesFor room)
    exact ⟨⟨by omega, room⟩, same⟩
  · rintro ⟨ends, rfl⟩
    exact ⟨leastPages_pagesFor ends.2, ends.1⟩

/-- A sum with the header's size, as a natural number. -/
theorem toNat_add_headerSize (size : SizeT) :
    (size + headerSize).toNat = (size.toNat + 12) % 2 ^ 32 :=
  BitVec.toNat_add size headerSize

/-- A sum of a size and some pages, when it does not wrap. -/
theorem toNat_add_pages
    (size : SizeT)
    {pages : Nat}
    (fits : size.toNat + pages * 4096 < 2 ^ 32) :
    (size + BitVec.ofNat 32 pages * 4096).toNat =
      size.toNat + pages * 4096 := by
  have page : (4096 : SizeT).toNat = 4096 := rfl
  rw [BitVec.toNat_add, BitVec.toNat_mul, BitVec.toNat_ofNat, page]
  omega

/-- The bytes of a few pages. -/
theorem toNat_pages
    {pages : Nat}
    (few : pages ≤ 255) :
    (BitVec.ofNat 32 pages * 4096).toNat = pages * 4096 := by
  have page : (4096 : SizeT).toNat = 4096 := rfl
  rw [BitVec.toNat_mul, BitVec.toNat_ofNat, page]
  omega

/-- A block is larger than the size and a header in 32-bit arithmetic. -/
theorem larger_iff (size block : SizeT) :
    size + headerSize < block ↔
      (size.toNat + 12) % 2 ^ 32 < block.toNat := by
  rw [BitVec.lt_def, toNat_add_headerSize]

section Arithmetic

variable
  {memory : Memory}
  {size : SizeT}
  {cur : PtrT}

/-- With room for the second header, every split subtracts exactly. -/
theorem RoomToSplit.splitSize
    {available : SizeT}
    (room :
      RoomToSplit (blockSize memory cur).toNat (blockFree memory cur)
        size.toNat)
    (met : SplitSize memory size cur available) :
    size.toNat + 12 ≤ available.toNat := by
  have bounded := size.isLt
  cases met with
  | larger different larger =>
      have exact_ := room.larger ((larger_iff _ _).mp larger)
      have above := (larger_iff _ _).mp larger
      omega
  | @grown pages needed free least few =>
      have small := mt (larger_iff _ _).mpr needed.2
      have near : (blockSize memory cur).toNat ≤ size.toNat + 12 := by
        omega
      obtain ⟨ends, rfl⟩ := (leastPages_iff near pages).mp ⟨least, few⟩
      rw [toNat_add_pages _ ends.2]
      exact room.grown (by omega) free ends
  | @appended pages needed used least few =>
      have small := mt (larger_iff _ _).mpr needed.2
      obtain ⟨fits, enough⟩ := room.appended (by omega) used
      have bound : (size + headerSize).toNat = size.toNat + 12 := by
        rw [toNat_add_headerSize, Nat.mod_eq_of_lt fits]
      have near :
          (blockSize memory cur).toNat ≤
            (size + headerSize).toNat + 12 := by
        omega
      have counted := leastPages_iff near pages
      rw [bound] at counted
      obtain ⟨ends, rfl⟩ := counted.mp ⟨least, few⟩
      rw [toNat_pages few]
      exact enough ends

/-- If every split subtracts exactly, there is room for the second header. -/
theorem roomToSplit_of_splitSize
    (different : blockSize memory cur ≠ size)
    (exact_ :
      ∀ available,
        SplitSize memory size cur available →
        size.toNat + 12 ≤ available.toNat) :
    RoomToSplit (blockSize memory cur).toNat (blockFree memory cur)
      size.toNat := by
  have sizeBounded := size.isLt
  have bounded := (blockSize memory cur).isLt
  have grows
      (small :
        (blockSize memory cur).toNat ≤ (size.toNat + 12) % 2 ^ 32) :
      GrowsAt memory size cur := by
    refine ⟨different, ?_⟩
    rw [larger_iff]
    omega
  refine ⟨?_, ?_, ?_⟩
  · intro larger
    have enough :=
      exact_ _ (.larger different ((larger_iff _ _).mpr larger))
    omega
  · intro small free ends
    obtain ⟨least, few⟩ :=
      (leastPages_iff (by omega) _).mpr ⟨ends, rfl⟩
    have enough := exact_ _ (.grown (grows small) free least few)
    rwa [toNat_add_pages _ ends.2] at enough
  · intro small used
    have fits : size.toNat + 12 < 2 ^ 32 := by
      by_contra wraps
      -- The wrapped bound is reached by a single page.
      have bound : (size + headerSize).toNat < 12 := by
        rw [toNat_add_headerSize]
        omega
      have near :
          (blockSize memory cur).toNat ≤
            (size + headerSize).toNat + 12 := by
        rw [toNat_add_headerSize]
        omega
      have one :
          pagesFor (blockSize memory cur).toNat
              (size + headerSize).toNat = 1 := by
        rw [pagesFor, if_pos (by omega)]
      have ends :
          GrowthEnds (blockSize memory cur).toNat
            (size + headerSize).toNat := by
        rw [GrowthEnds, one]
        omega
      obtain ⟨least, few⟩ := (leastPages_iff near _).mpr ⟨ends, rfl⟩
      have enough := exact_ _ (.appended (grows small) used least few)
      rw [toNat_pages few, one] at enough
      omega
    refine ⟨fits, ?_⟩
    intro ends
    have bound : (size + headerSize).toNat = size.toNat + 12 := by
      rw [toNat_add_headerSize, Nat.mod_eq_of_lt fits]
    rw [← bound] at ends
    obtain ⟨least, few⟩ :=
      (leastPages_iff (by omega) _).mpr ⟨ends, rfl⟩
    have enough := exact_ _ (.appended (grows small) used least few)
    rwa [toNat_pages few, bound] at enough

end Arithmetic

/-! ## Calls and runs -/

/--
Each call of `vmm_malloc_split` that a request makes gets a block with room
for the size and a second header, so the subtraction does not wrap.
-/
def SplitsExactly (kernel : Kernel) (size : SizeT) : Prop :=
  ∀ fuel after before,
    lastStep fuel kernel size = some (.split after before) →
    size.toNat + headerSize.toNat ≤
      (blockSize after.heap.memory before).toNat

/-- The search stops at a block of the size, or one with room to split. -/
def SplitFits (kernel : Kernel) (size : SizeT) : Prop :=
  ∀ cur,
    SearchStops (initializedKernel kernel size).heap.memory size
        (initializedKernel kernel size).heap.mallocHead cur →
    blockSize (initializedKernel kernel size).heap.memory cur ≠ size →
    RoomToSplit
      (blockSize (initializedKernel kernel size).heap.memory cur).toNat
      (blockFree (initializedKernel kernel size).heap.memory cur)
      size.toNat

/-- The splits of a request are exact exactly when there is room. -/
theorem splitsExactly_iff
    (kernel : Kernel)
    {size : SizeT}
    (positive : 1 ≤ size.toNat) :
    SplitsExactly kernel size ↔ SplitFits kernel size := by
  have notZero : size ≠ 0 := by
    rintro rfl
    exact Nat.not_lt_zero 0 positive
  constructor
  · intro splits cur stops different
    refine roomToSplit_of_splitSize different ?_
    intro available met
    obtain ⟨enoughSearch, found⟩ := stops.searchBlock
    obtain ⟨enoughPick, picked⟩ := met.pickBlock
    obtain ⟨after, before, reached, rfl⟩ :=
      picked (max enoughSearch enoughPick) (Nat.le_max_right _ _)
    refine splits (max enoughSearch enoughPick) after before ?_
    rw [lastStep, if_neg notZero]
    simp only [Option.bind_eq_bind,
      found (max enoughSearch enoughPick) (Nat.le_max_left _ _),
      Option.bind_some]
    exact reached
  · intro fits fuel after before reached
    simp only [lastStep, if_neg notZero, Option.bind_eq_bind,
      Option.bind_eq_some_iff] at reached
    obtain ⟨cur, found, picked⟩ := reached
    have met := splitSize_of_pickBlock picked
    refine (fits cur (searchStops_of_searchBlock found) ?_).splitSize met
    intro same
    rw [pickBlock, if_pos same] at picked
    cases picked

/--
The calls of a client that return, whether or not the physical memory manager
has blocks left.
-/
inductive HeapTransition : HeapCall → HeapClient → HeapClient → Prop where
  | malloc
      {size : SizeT}
      {client : HeapClient}
      {fuel : Nat}
      {pointer : PtrT}
      {kernel : Kernel}
      (positive : 1 ≤ size.toNat)
      (returned :
        vmmMallocNextBlock fuel client.kernel size =
          some (pointer, kernel)) :
      HeapTransition (.malloc size) client
        (client.keep kernel ⟨pointer, size⟩)
  | free
      {allocation : Allocation}
      {client : HeapClient}
      {fuel : Nat}
      {kernel : Kernel}
      (held : allocation ∈ client.live)
      (returned :
        vmmMallocFree fuel client.kernel allocation.pointer =
          some kernel) :
      HeapTransition (.free allocation) client
        ⟨kernel, client.live.erase allocation⟩
  | defrag
      {client : HeapClient}
      {fuel : Nat}
      {kernel : Kernel}
      (returned : vmmMallocDefrag fuel client.kernel = some kernel) :
      HeapTransition .defrag client ⟨kernel, client.live⟩

/-- The splits of a call, if it is a request, subtract exactly. -/
def CallSplitsExactly : HeapCall → HeapClient → Prop
  | .malloc size, client => SplitsExactly client.kernel size
  | _, _ => True

/-- A call, if it is a request, meets a block with room to split. -/
def CallSplitFits : HeapCall → HeapClient → Prop
  | .malloc size, client => SplitFits client.kernel size
  | _, _ => True

/--
The runs from a fresh heap in which no split wraps are exactly those in which
every request meets a block with room to split.
-/
theorem heapRun_splitsExactly_iff
    (kernel : Kernel)
    (size : SizeT)
    (calls : List HeapCall)
    (client : HeapClient) :
    Run (Guarded CallSplitsExactly HeapTransition)
        (freshHeap kernel size) calls client ↔
      Run (Guarded CallSplitFits HeapTransition)
        (freshHeap kernel size) calls client := by
  refine Run.guarded_congr ?_
  intro call before after stepped
  cases stepped with
  | malloc positive _ =>
      exact splitsExactly_iff before.kernel positive
  | free _ _ =>
      exact Iff.rfl
  | defrag _ =>
      exact Iff.rfl

/-- A first page of 4084 bytes is grown for 8175 bytes by one page only. -/
theorem heapRun_splitsExactly_fails :
    ¬∀ (kernel : Kernel)
        (size : SizeT)
        (calls : List HeapCall)
        (client : HeapClient),
      Run HeapTransition (freshHeap kernel size) calls client →
      ∀ request : SizeT,
        1 ≤ request.toNat →
        SplitsExactly client.kernel request := by
  intro splits
  have exact_ :=
    splits bootedKernel 1 [] (freshHeap bootedKernel 1) .nil 8175
      (by decide)
  have fits := (splitsExactly_iff _ (by decide)).mp exact_
  have header := vmmMallocInit_header bootedKernel 1
  have size :
      initialPages 1 * 4096 - headerSize = (4084 : SizeT) := by
    decide
  rw [size] at header
  have initialized :
      initializedKernel (freshHeap bootedKernel 1).kernel 8175 =
        vmmMallocInit bootedKernel 1 := by
    have head :
        blockSize (vmmMallocInit bootedKernel 1).heap.memory
          (vmmMallocInit bootedKernel 1).heap.mallocHead ≠ 0 := by
      rw [show
        (vmmMallocInit bootedKernel 1).heap.mallocHead =
          pointer heapStart from rfl, header.size]
      decide
    exact if_neg head
  unfold SplitFits at fits
  rw [initialized] at fits
  have stops :
      SearchStops (vmmMallocInit bootedKernel 1).heap.memory 8175
        (vmmMallocInit bootedKernel 1).heap.mallocHead
        (pointer heapStart) := by
    refine .here ?_
    rintro ⟨_, linked⟩
    exact linked header.next
  have room := fits _ stops (by rw [header.size]; decide)
  rw [header.size, header.free] at room
  have short := room.grown (by decide) rfl (by decide)
  revert short
  decide

end HobbyOS
