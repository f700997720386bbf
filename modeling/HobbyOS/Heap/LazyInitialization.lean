import HobbyOS.Heap.Termination

namespace HobbyOS

open Library

/-!
# The first call on the heap

`vmm_malloc_next_block` takes the heap for uninitialized if the size field of
`*malloc_head` is 0.  Before the first call `malloc_head` is null, so this
depends on the word at address 0.  The lists here name the block headers that
a call reads or writes, in order, each with the heap at that time.
-/

/-! ## Accesses to headers -/

/-- An access to the header of a block, with the heap at that time. -/
structure HeaderAccess where
  heap : Heap
  block : PtrT

/-- Every byte of the header lies on the pages of the heap. -/
def HeaderAccess.Inside (access : HeaderAccess) : Prop :=
  ∀ offset < 12,
    access.heap.mallocVaddr.toNat ≤
        (access.block + BitVec.ofNat 32 offset).toNat ∧
      (access.block + BitVec.ofNat 32 offset).toNat <
        access.heap.endAddress

/-- Headers that the search looks at. -/
def searchAccesses (heap : Heap) (size : SizeT) :
    Nat → PtrT → List HeaderAccess
  | 0, _ => []
  | fuel + 1, cur =>
      ⟨heap, cur⟩ ::
        if (blockSize heap.memory cur < size ∨
              blockFree heap.memory cur = false) ∧
            blockNext heap.memory cur ≠ 0 then
          searchAccesses heap size fuel (blockNext heap.memory cur)
        else
          []

/-- Headers that the end of a call writes: one, or the two of a split. -/
def LastStep.accesses (size : SizeT) : LastStep → List HeaderAccess
  | .exactly kernel cur => [⟨kernel.heap, cur⟩]
  | .split kernel before =>
      [⟨kernel.heap, before + headerSize + size⟩, ⟨kernel.heap, before⟩]

/-- The heap when the end of a call is reached. -/
def LastStep.heap : LastStep → Heap
  | .exactly kernel _ => kernel.heap
  | .split kernel _ => kernel.heap

/-- Headers that a call accesses once the search has stopped at `cur`. -/
def pickAccesses
    (fuel : Nat)
    (kernel : Kernel)
    (cur : PtrT)
    (size : SizeT) :
    List HeaderAccess :=
  ⟨kernel.heap, cur⟩ ::
    match pickBlock fuel kernel cur size with
    | some step => ⟨step.heap, cur⟩ :: step.accesses size
    | none => []

/-- Headers that a call accesses after its test of `malloc_head->size`. -/
def walkAccesses (kernel : Kernel) (size : SizeT) (fuel : Nat) :
    List HeaderAccess :=
  let initialized := initializedKernel kernel size
  let head := initialized.heap.mallocHead
  (if blockSize kernel.heap.memory kernel.heap.mallocHead = 0 then
      [⟨initialized.heap, head⟩]
    else
      []) ++
    (searchAccesses initialized.heap size fuel head ++
      match searchBlock initialized.heap.memory size fuel head with
      | some cur => pickAccesses fuel initialized cur size
      | none => [])

/-- Headers that a call of `vmm_malloc_next_block` accesses. -/
def nextBlockAccesses (kernel : Kernel) (size : SizeT) (fuel : Nat) :
    List HeaderAccess :=
  if size = 0 then []
  else
    ⟨kernel.heap, kernel.heap.mallocHead⟩ :: walkAccesses kernel size fuel

/-- All accesses stay inside the heap, however long the call runs. -/
def HeadersInside (accesses : Nat → List HeaderAccess) : Prop :=
  ∀ fuel, ∀ access ∈ accesses fuel, access.Inside

/-- The heap variables before the first call. -/
structure Uninitialized (heap : Heap) : Prop where
  head : heap.mallocHead = 0
  vaddr : heap.mallocVaddr = 0
  total : heap.totalMallocPages = 0

/-- Before the first call, no header is inside the heap. -/
theorem Uninitialized.not_inside
    {heap : Heap}
    (uninitialized : Uninitialized heap)
    (block : PtrT) :
    ¬HeaderAccess.Inside ⟨heap, block⟩ := by
  intro inside
  have first := (inside 0 (by omega)).2
  rw [Heap.endAddress, uninitialized.vaddr, uninitialized.total] at first
  exact Nat.not_lt_zero _ first

/-- A header is inside a heap that starts at the first page. -/
theorem HeaderAccess.inside_iff
    {heap : Heap}
    (start : heap.mallocVaddr = pointer heapStart)
    (block : PtrT) :
    HeaderAccess.Inside ⟨heap, block⟩ ↔
      heapStart ≤ block.toNat ∧
        block.toNat + 12 ≤ 2 ^ 32 ∧
        block.toNat + 12 ≤ heap.endAddress := by
  have low : heap.mallocVaddr.toNat = heapStart := by
    rw [start]
    rfl
  have above : heapStart = 0xF00000 := rfl
  constructor
  · intro inside
    have first := inside 0 (by omega)
    dsimp only at first
    rw [low, BitVec.add_zero] at first
    have room : block.toNat + 12 ≤ 2 ^ 32 := by
      by_contra wraps
      have bound := block.isLt
      have last := (inside (2 ^ 32 - block.toNat) (by omega)).1
      dsimp only at last
      rw [low, BitVec.toNat_add, BitVec.toNat_ofNat] at last
      omega
    have last := (inside 11 (by omega)).2
    dsimp only at last
    rw [toNat_add_ofNat 11 (by omega)] at last
    exact ⟨first.1, room, last⟩
  · rintro ⟨behind, room, before⟩ offset small
    dsimp only
    rw [low, toNat_add_ofNat offset (by omega)]
    omega

/-! ## The walk of the first call -/

/--
The header behind the first block lies below 4 GiB, or is not needed: the
block is taken as it is, or the size is so near 4 GiB that the header wraps
into the first block, or that no page count ends.
-/
def FirstBlockFits (size : SizeT) : Prop :=
  4096 ∣ size.toNat + 12 ∨
    heapStart + size.toNat + 24 ≤ 2 ^ 32 ∨
    2 ^ 32 ≤ size.toNat + 24

instance (size : SizeT) : Decidable (FirstBlockFits size) :=
  inferInstanceAs (Decidable (_ ∨ _ ∨ _))

/-- The end of a call that was reached is that of taking the block. -/
theorem takeBlock_of_pickBlock
    {fuel : Nat}
    {kernel : Kernel}
    {cur : PtrT}
    {size : SizeT}
    {step : LastStep}
    (picked : pickBlock fuel kernel cur size = some step) :
    takeBlock fuel kernel cur size =
      some ((step.run size).1, (step.run size).2) := by
  rw [takeBlock_eq_pickBlock, picked]
  rfl

/-- A block that is picked as it is has the size. -/
theorem pickBlock_exactly
    {fuel : Nat}
    {kernel other : Kernel}
    {cur block : PtrT}
    {size : SizeT}
    (picked :
      pickBlock fuel kernel cur size = some (.exactly other block)) :
    blockSize kernel.heap.memory cur = size ∧
      other = kernel ∧
      block = cur := by
  unfold pickBlock at picked
  split at picked
  · rename_i same
    cases picked
    exact ⟨same, rfl, rfl⟩
  · split at picked
    · cases picked
    · simp only [growBlock, Option.bind_eq_bind, Option.bind_eq_some_iff,
        Option.pure_def] at picked
      obtain ⟨_, _, _, _, finished⟩ := picked
      split at finished
      · cases finished
      · cases finished

/-- A block of the size is not split. -/
theorem pickBlock_split_ne
    {fuel : Nat}
    {kernel after : Kernel}
    {cur before : PtrT}
    {size : SizeT}
    (picked :
      pickBlock fuel kernel cur size = some (.split after before)) :
    blockSize kernel.heap.memory cur ≠ size := by
  intro same
  rw [pickBlock, if_pos same] at picked
  cases picked

section First

variable
  {kernel : Kernel}
  {size : SizeT}

/-- The search on a heap with one block looks at that block. -/
theorem searchAccesses_first
    (kernel : Kernel)
    (size : SizeT)
    (fuel : Nat) :
    ∀ access ∈
        searchAccesses (vmmMallocInit kernel size).heap size fuel
          (pointer heapStart),
      access = ⟨(vmmMallocInit kernel size).heap, pointer heapStart⟩ := by
  have header := vmmMallocInit_header kernel size
  cases fuel with
  | zero =>
      exact nofun
  | succ fuel =>
      intro access member
      rw [searchAccesses, if_neg fun passes => passes.2 header.next]
        at member
      exact List.mem_singleton.mp member

/-- The search on a heap with one block stops at that block. -/
theorem searchBlock_first
    (kernel : Kernel)
    (size : SizeT)
    (fuel : Nat) :
    searchBlock (vmmMallocInit kernel size).heap.memory size (fuel + 1)
        (pointer heapStart) =
      some (pointer heapStart) := by
  have header := vmmMallocInit_header kernel size
  rw [searchBlock, if_neg fun passes => passes.2 header.next]

/-- A split of the first block, and the pages of the heap by then. -/
structure FirstSplit (size : SizeT) (after : Kernel) (before : PtrT) :
    Prop where
  block : before = pointer heapStart
  vaddr : after.heap.mallocVaddr = pointer heapStart
  inexact : ¬4096 ∣ size.toNat + 12
  few : size.toNat + 24 < 2 ^ 32 ∨ 2 ^ 32 ≤ size.toNat + 12
  pages :
    heapStart + (initialPages size).toNat * 4096 ≤ after.heap.endAddress
  room :
    size.toNat + 12 < 2 ^ 32 →
    heapStart + size.toNat + 24 ≤ after.heap.endAddress

/-- The first block is split where it is, on enough pages. -/
theorem firstSplit_of_pickBlock
    {fuel : Nat}
    {after : Kernel}
    {before : PtrT}
    (positive : 1 ≤ size.toNat)
    (picked :
      pickBlock fuel (vmmMallocInit kernel size) (pointer heapStart)
          size =
        some (.split after before)) :
    FirstSplit size after before := by
  have header := vmmMallocInit_header kernel size
  have count := toNat_initialPages size
  have value := toNat_firstBlock positive
  have bound := size.isLt
  have taken := takeBlock_of_pickBlock picked
  obtain ⟨pages, extra, grew⟩ := takeBlock_grewBy taken
  have total :
      after.heap.totalMallocPages =
        initialPages size + BitVec.ofNat 32 pages :=
    grew.total
  have vaddr : after.heap.mallocVaddr = pointer heapStart := grew.vaddr
  have few := grew.few
  have added :
      after.heap.totalMallocPages.toNat =
        (initialPages size).toNat + pages := by
    rw [total]
    exact toNat_add_ofNat pages (by omega)
  have ends :
      after.heap.endAddress =
        heapStart + ((initialPages size).toNat + pages) * 4096 := by
    rw [Heap.endAddress, vaddr, added]
    rfl
  have different := pickBlock_split_ne picked
  rw [header.size] at different
  have inexact :
      (initialPages size).toNat * 4096 - 12 ≠ size.toNat := by
    intro same
    exact different (BitVec.eq_of_toNat_eq (value.trans same))
  refine ⟨takeBlock_free header.free taken, vaddr, ?_, ?_, ?_, ?_⟩
  · omega
  · exact (firstBlock_fewPages_iff positive header).mp ⟨pages, extra, few⟩
  · rw [ends]
    omega
  · intro small
    rw [ends]
    cases extra with
    | fits stays =>
        rw [GrowsAt, not_and_not_right] at stays
        have larger := (larger_iff _ _).mp
          (stays (by rw [header.size]; exact different))
        rw [header.size, value, Nat.mod_eq_of_lt small] at larger
        omega
    | grows _ least =>
        have some_ := least.positive
        omega

/-- The first header is inside a heap of one page or more. -/
theorem inside_head
    {heap : Heap}
    (start : heap.mallocVaddr = pointer heapStart)
    (positive : 1 ≤ size.toNat)
    (pages :
      heapStart + (initialPages size).toNat * 4096 ≤ heap.endAddress) :
    HeaderAccess.Inside ⟨heap, pointer heapStart⟩ := by
  have some_ := initialPages_pos positive
  have low : (pointer heapStart).toNat = heapStart := rfl
  rw [HeaderAccess.inside_iff start, low]
  refine ⟨Nat.le_refl _, by decide, ?_⟩
  omega

/-- The address of the header behind the first block. -/
theorem toNat_firstAfter (size : SizeT) :
    (pointer heapStart + headerSize + size).toNat =
      (heapStart + 12 + size.toNat) % 2 ^ 32 := by
  rw [BitVec.toNat_add]
  rfl

/-- The header behind a split first block is inside if the block fits. -/
theorem FirstSplit.inside_iff
    {after : Kernel}
    {before : PtrT}
    (split : FirstSplit size after before) :
    HeaderAccess.Inside
        ⟨after.heap, pointer heapStart + headerSize + size⟩ ↔
      FirstBlockFits size := by
  have bound := size.isLt
  have start : heapStart = 0xF00000 := rfl
  have count := toNat_initialPages size
  have pages := split.pages
  have room := split.room
  have few := split.few
  rw [HeaderAccess.inside_iff split.vaddr, toNat_firstAfter,
    FirstBlockFits, or_iff_right split.inexact]
  omega

/-- The first call stays inside if all the splits it can reach do. -/
theorem walkAccesses_first_iff
    (zero : blockSize kernel.heap.memory kernel.heap.mallocHead = 0)
    (positive : 1 ≤ size.toNat) :
    HeadersInside (walkAccesses kernel size) ↔
      ∀ fuel after before,
        pickBlock (fuel + 1) (vmmMallocInit kernel size)
            (pointer heapStart) size =
          some (.split after before) →
        HeaderAccess.Inside
          ⟨after.heap, pointer heapStart + headerSize + size⟩ := by
  have anew : initializedKernel kernel size = vmmMallocInit kernel size :=
    if_pos zero
  have head :
      (vmmMallocInit kernel size).heap.mallocHead = pointer heapStart :=
    rfl
  have inside :=
    @inside_head size (vmmMallocInit kernel size).heap rfl positive
      (Nat.le_refl _)
  constructor
  · intro walk fuel after before picked
    have split := firstSplit_of_pickBlock positive picked
    refine walk (fuel + 1) _ ?_
    rw [walkAccesses, anew, head, searchBlock_first]
    dsimp only
    rw [pickAccesses, picked]
    refine List.mem_append_right _ (List.mem_append_right _ ?_)
    simp [LastStep.accesses, split.block]
  · intro splits fuel access member
    rw [walkAccesses, anew, head, if_pos zero, List.mem_append,
      List.mem_singleton, List.mem_append] at member
    rcases member with rfl | searched | picked
    · exact inside
    · rw [searchAccesses_first kernel size fuel access searched]
      exact inside
    · cases fuel with
      | zero =>
          exact (List.not_mem_nil picked).elim
      | succ fuel =>
          rw [searchBlock_first] at picked
          dsimp only at picked
          rw [pickAccesses, List.mem_cons] at picked
          rcases picked with rfl | picked
          · exact inside
          · generalize reached :
              pickBlock (fuel + 1) (vmmMallocInit kernel size)
                (pointer heapStart) size = result at picked
            cases result with
            | none =>
                exact (List.not_mem_nil picked).elim
            | some step =>
                cases step with
                | exactly other block =>
                    obtain ⟨_, rfl, rfl⟩ := pickBlock_exactly reached
                    simp only [LastStep.heap, LastStep.accesses,
                      List.mem_cons, List.not_mem_nil, or_false,
                      or_self] at picked
                    rw [picked]
                    exact inside
                | split after before =>
                    have split := firstSplit_of_pickBlock positive reached
                    have first :=
                      inside_head split.vaddr positive split.pages
                    simp only [LastStep.heap, LastStep.accesses,
                      List.mem_cons, List.not_mem_nil, or_false,
                      split.block] at picked
                    rcases picked with rfl | rfl | rfl
                    · exact first
                    · exact splits fuel after before reached
                    · exact first

/-- A first block that does not fit is split for some fuel. -/
theorem exists_firstSplit
    (kernel : Kernel)
    (positive : 1 ≤ size.toNat)
    (large : ¬FirstBlockFits size) :
    ∃ fuel after before,
      pickBlock (fuel + 1) (vmmMallocInit kernel size)
          (pointer heapStart) size =
        some (.split after before) := by
  have header := vmmMallocInit_header kernel size
  have value := toNat_firstBlock positive
  have some_ := initialPages_pos positive
  rw [FirstBlockFits, not_or, not_or] at large
  obtain ⟨inexact, _, window⟩ := large
  obtain ⟨pages, extra, few⟩ :=
    (firstBlock_fewPages_iff positive header).mpr (Or.inl (by omega))
  obtain ⟨result, later, taken⟩ :=
    extra.takeBlock few (Nat.lt_succ_self pages)
  rw [takeBlock_eq_pickBlock, Option.map_eq_some_iff] at taken
  obtain ⟨step, picked, _⟩ := taken
  cases step with
  | exactly other block =>
      obtain ⟨same, _, _⟩ := pickBlock_exactly picked
      rw [header.size] at same
      have sizes := congrArg BitVec.toNat same
      rw [value] at sizes
      refine (inexact ⟨(initialPages size).toNat, ?_⟩).elim
      omega
  | split after before =>
      exact ⟨pages, after, before, picked⟩

/--
The test of `malloc_head->size` is itself an access outside of the heap.
Behind it, the first call stays inside the heap exactly if the word at
address 0 is 0 and the header behind the first block lies below 4 GiB, or is
not needed.
-/
theorem vmmMallocNextBlock_headersInside_iff
    (uninitialized : Uninitialized kernel.heap)
    (positive : 1 ≤ size.toNat) :
    ¬HeadersInside (nextBlockAccesses kernel size) ∧
      (HeadersInside (walkAccesses kernel size) ↔
        readWord kernel.heap.memory 0 = 0 ∧ FirstBlockFits size) := by
  have notZero : size ≠ 0 := by
    rintro rfl
    exact Nat.not_lt_zero 0 positive
  have null : blockSize kernel.heap.memory kernel.heap.mallocHead =
      readWord kernel.heap.memory 0 := by
    rw [uninitialized.head, blockSize]
  constructor
  · intro inside
    refine uninitialized.not_inside kernel.heap.mallocHead
      (inside 0 _ ?_)
    rw [nextBlockAccesses, if_neg notZero]
    exact List.mem_cons_self
  · by_cases zero : readWord kernel.heap.memory 0 = 0
    · rw [and_iff_right zero,
        walkAccesses_first_iff (null.trans zero) positive]
      constructor
      · intro splits
        by_contra large
        obtain ⟨fuel, after, before, picked⟩ :=
          exists_firstSplit kernel positive large
        have split := firstSplit_of_pickBlock positive picked
        exact large (split.inside_iff.mp (splits fuel after before picked))
      · intro fits fuel after before picked
        exact (firstSplit_of_pickBlock positive picked).inside_iff.mpr fits
    · refine iff_of_false (fun inside => ?_) (fun both => zero both.1)
      have stays : initializedKernel kernel size = kernel :=
        if_neg (by rw [null]; exact zero)
      refine uninitialized.not_inside _
        (inside 1 ⟨kernel.heap, kernel.heap.mallocHead⟩ ?_)
      rw [walkAccesses, stays, searchAccesses]
      simp

end First

/-- On zeroed memory, the walk for 100 bytes stays inside the first page. -/
theorem vmmMallocNextBlock_headersInside_iff_zeroed :
    ¬HeadersInside (nextBlockAccesses ⟨bootedPaging, noHeap⟩ 100) ∧
      HeadersInside (walkAccesses ⟨bootedPaging, noHeap⟩ 100) := by
  have both :=
    @vmmMallocNextBlock_headersInside_iff ⟨bootedPaging, noHeap⟩ 100
      ⟨rfl, rfl, rfl⟩ (by decide)
  exact ⟨both.1, both.2.mpr (by decide)⟩

/-- With a word at address 0 that is not 0, the walk starts there. -/
theorem vmmMallocNextBlock_headersInside_fails :
    ¬∀ (kernel : Kernel) (size : SizeT),
        Uninitialized kernel.heap →
        1 ≤ size.toNat →
        HeadersInside (walkAccesses kernel size) := by
  intro claimed
  have uninitialized :
      Uninitialized { noHeap with memory := fun _ => 0xFF } :=
    ⟨rfl, rfl, rfl⟩
  have inside :=
    claimed ⟨bootedPaging, { noHeap with memory := fun _ => 0xFF }⟩ 100
      uninitialized (by decide)
  refine uninitialized.not_inside 0 (inside 1 _ ?_)
  have stays :
      initializedKernel
          ⟨bootedPaging, { noHeap with memory := fun _ => 0xFF }⟩ 100 =
        ⟨bootedPaging, { noHeap with memory := fun _ => 0xFF }⟩ :=
    if_neg (by decide)
  rw [walkAccesses, stays, searchAccesses]
  exact List.mem_append_right _
    (List.mem_append_left _ List.mem_cons_self)

end HobbyOS
