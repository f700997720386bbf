import HobbyOS.Heap.PageMapping

namespace HobbyOS

open Library

/-!
# Requests when memory runs out

`vmm_malloc_next_block` never looks at the results of `vmm_allocate_page` and
`vmm_map_page`.  So a request that needs pages is right only if every one of
them is granted a block, and every table that they need another one.
Otherwise it writes its headers all the same, to frame 0 or to a page that is
not mapped.
-/

/-! ## Pages with a block -/

/-- A page is translated to a frame other than 0. -/
def Paging.Backs (paging : Paging) (vaddr : AddrT) : Prop :=
  ∃ frame, paging.walk vaddr = some frame ∧ frame ≠ 0

/-- An entry keeps the bits of the block it is mapped to. -/
theorem frame_mappedEntry_ne_zero
    {block : Nat}
    (notZero : block ≠ 0)
    (small : block < 2 ^ 20)
    (entry : BitVec 32) :
    vmmPagePhysicalAddress (mappedEntry (blockAddress block) entry) ≠ 0 := by
  intro null
  have aligned : vmmPagePhysicalAddress (blockAddress block) = _ :=
    pageAligned_blockAddress small
  rw [mappedEntry, vmmSetFrame, vmmPagePhysicalAddress,
    BitVec.and_or_distrib_right] at null
  have kept := (BitVec.or_eq_zero_iff.mp null).2
  exact blockAddress_ne_zero notZero small (aligned.symm.trans kept)

/-- A page whose request is granted its blocks has a block of its own. -/
theorem PageRequest.backs_self
    {paging later : Paging}
    {vaddr : AddrT}
    (request : PageRequest paging vaddr later)
    (supplied : 1 ≤ paging.pmm.supply)
    (possible : paging.HasTable vaddr ∨ paging.pmm.afterOne.Grants) :
    later.Backs vaddr := by
  obtain ⟨block, next, small, allocation, _⟩ :=
    Pmm.allocate_of_supply supplied
  have entry := request.entries possible vaddr
  rw [if_pos rfl, allocation] at entry
  refine ⟨vmmPagePhysicalAddress (later.pageEntry vaddr), if_pos ?_, ?_⟩
  · rw [entry, vmmTestAttribute_ptePresent]
    split
    · rw [(requestedEntry_bits _ _).2]
      exact getLsbD_zero_mappedEntry _ _
    · exact getLsbD_zero_mappedEntry _ _
  · rw [entry]
    split
    · rw [(requestedEntry_bits _ _).1]
      exact frame_mappedEntry_ne_zero next.notZero small _
    · exact frame_mappedEntry_ne_zero next.notZero small _

/-- A request that is granted its blocks leaves the other pages theirs. -/
theorem PageRequest.backs
    {paging later : Paging}
    {vaddr other : AddrT}
    (request : PageRequest paging vaddr later)
    (supplied : 1 ≤ paging.pmm.supply)
    (possible : paging.HasTable vaddr ∨ paging.pmm.afterOne.Grants)
    (backs : paging.Backs other) :
    later.Backs other := by
  by_cases same : pageNumber other = pageNumber vaddr
  · have self := request.backs_self supplied possible
    have entries := request.entries possible
    have entry : later.pageEntry other = later.pageEntry vaddr := by
      rw [entries, entries vaddr, if_pos same, if_pos rfl]
    rwa [Paging.Backs, Paging.walk, entry]
  · have entry : later.pageEntry other = paging.pageEntry other := by
      rw [request.entries possible, if_neg same]
    rwa [Paging.Backs, Paging.walk, entry]

/-- Pages that were requested within the supply have blocks. -/
theorem Requested.backs
    {start paging : Paging}
    {base : PtrT}
    {count : Nat}
    (requested : Requested start base count paging)
    (structures : PageStructures start)
    (enough : blocksFor start base count ≤ start.pmm.supply)
    {i : Nat}
    (below : i < count) :
    paging.Backs (pageAt base i) := by
  induction requested with
  | none =>
      exact (Nat.not_lt_zero i below).elim
  | @next count paging later earlier requests inductionHypothesis =>
      have less := blocksFor_lt_succ start base count
      have supplied := earlier.supplied structures (by omega)
      obtain ⟨_, request⟩ := supplied.next requests enough
      have supply := supplied.supply
      have possible := supplied.possible enough
      rcases Nat.lt_succ_iff_lt_or_eq.mp below with before | rfl
      · exact request.backs (by omega) possible
          (inductionHypothesis (by omega) before)
      · exact request.backs_self (by omega) possible

/-- A page without a table has no block. -/
theorem not_backs_of_not_hasTable
    {paging : Paging}
    {vaddr : AddrT}
    (missing : ¬paging.HasTable vaddr) :
    ¬paging.Backs vaddr := by
  rintro ⟨frame, walked, _⟩
  rw [Paging.walk, PageStructures.pageEntry_of_not_hasTable missing,
    if_neg (by decide)] at walked
  exact absurd walked (by simp)

/--
A last page that was granted its block, and has one, left enough of the
supply for its table.
-/
theorem Requested.enough
    {start paging later : Paging}
    {base : PtrT}
    {count : Nat}
    (earlier : Requested start base count paging)
    (requests : RequestsPage paging (pageAt base count) later)
    (structures : PageStructures start)
    (low : start.pmm.FreeBelow4GiB)
    (granted : paging.pmm.Grants)
    (backs : later.Backs (pageAt base count)) :
    blocksFor start base (count + 1) ≤ start.pmm.supply := by
  obtain ⟨middle, stillLow⟩ := earlier.pageStructures structures low
  have block := (earlier.grants_iff structures low).mp granted
  have supplied := earlier.supplied structures (by omega)
  rw [blocksFor]
  split
  · rename_i needed
    have missing := supplied.tables.needsTable_iff.mp needed
    -- Without a block for its table, the page would not be mapped.
    have second : paging.pmm.afterOne.Grants := by
      by_contra refused
      exact not_backs_of_not_hasTable
        (middle.not_hasTable_requestsPage stillLow requests missing refused)
        backs
    have left := (Pmm.grants_iff_supply stillLow.afterOne).mp second
    have taken := Pmm.supply_afterOne stillLow
    have supply := supplied.supply
    omega
  · omega

/-! ## The claim about a call -/

/-- The kernel after the initialization that a call may start with. -/
def initializedKernel (kernel : Kernel) (size : SizeT) : Kernel :=
  if blockSize kernel.heap.memory kernel.heap.mallocHead = 0 then
    vmmMallocInit kernel size
  else
    kernel

/--
Every page that a call requests is granted a block, and is mapped to one when
the call returns.
-/
structure ObtainsPages (kernel : Kernel) (size : SizeT) (later : Kernel) :
    Prop where
  initial :
    blockSize kernel.heap.memory kernel.heap.mallocHead = 0 →
    ∀ i < (initialPages size).toNat,
      (mallocInitPages kernel.paging (pointer heapStart) i).pmm.Grants ∧
        later.paging.Backs (pageAt (pointer heapStart) i)
  additional :
    ∀ {cur pages},
      SearchStops (initializedKernel kernel size).heap.memory size
          (initializedKernel kernel size).heap.mallocHead cur →
      ExtraPages (initializedKernel kernel size).heap.memory size cur
          pages →
      ∀ i < pages,
        (grownPages (initializedKernel kernel size).paging
            (initializedKernel kernel size).heap.endPointer i).pmm.Grants ∧
          later.paging.Backs
            (pageAt (initializedKernel kernel size).heap.endPointer i)

/-- A call returns 0 and leaves the heap as it was. -/
structure Refuses (kernel : Kernel) (result : PtrT) (later : Kernel) :
    Prop where
  null : result = 0
  head : later.heap.mallocHead = kernel.heap.mallocHead
  list :
    ∀ cells,
      Segment kernel.heap.memory 0 kernel.heap.mallocHead.toNat cells →
      Segment later.heap.memory 0 kernel.heap.mallocHead.toNat cells
  total : later.heap.totalMallocPages = kernel.heap.totalMallocPages
  mapped :
    ∀ i < later.heap.totalMallocPages.toNat,
      later.paging.walk (later.heap.page i) ≠ some 0

/-- A call returns, with all the pages it requested or without effect. -/
def ServesOrRefuses (kernel : Kernel) (size : SizeT) : Prop :=
  ∃ fuel result later,
    vmmMallocNextBlock fuel kernel size = some (result, later) ∧
      (ObtainsPages kernel size later ∨ Refuses kernel result later)

/-! ## The condition -/

/-- The pages that an initialization requests at the start of the call. -/
def initialRequests (kernel : Kernel) (size : SizeT) : Nat :=
  if blockSize kernel.heap.memory kernel.heap.mallocHead = 0 then
    (initialPages size).toNat
  else
    0

/-- The first page that the call requests. -/
def requestBase (kernel : Kernel) : PtrT :=
  if blockSize kernel.heap.memory kernel.heap.mallocHead = 0 then
    pointer heapStart
  else
    kernel.heap.endPointer

/--
The search stops, the heap is to grow by at most 255 pages, and the supply
has a block for every requested page and for every table that they need.
-/
def Affords (kernel : Kernel) (size : SizeT) : Prop :=
  ∃ cur pages,
    SearchStops (initializedKernel kernel size).heap.memory size
        (initializedKernel kernel size).heap.mallocHead cur ∧
      ExtraPages (initializedKernel kernel size).heap.memory size cur
        pages ∧
      pages ≤ 255 ∧
      blocksFor kernel.paging (requestBase kernel)
          (initialRequests kernel size + pages) ≤
        kernel.paging.pmm.supply

/-! ## Calls that end -/

section Call

variable
  {kernel : Kernel}
  {size : SizeT}

/-- The call after its initialization. -/
theorem vmmMallocNextBlock_eq
    (positive : 1 ≤ size.toNat)
    (fuel : Nat) :
    vmmMallocNextBlock fuel kernel size =
      (do
        let cur ←
          searchBlock (initializedKernel kernel size).heap.memory size fuel
            (initializedKernel kernel size).heap.mallocHead
        let (cur, kernel) ←
          takeBlock fuel (initializedKernel kernel size) cur size
        return (cur + headerSize, kernel)) := by
  have notZero : size ≠ 0 := by
    rintro rfl
    exact Nat.not_lt_zero 0 positive
  rw [vmmMallocNextBlock, if_neg notZero]
  rfl

/-- The first page after the requests of the initialization. -/
theorem endPointer_initializedKernel
    (kernel : Kernel)
    (size : SizeT) :
    (initializedKernel kernel size).heap.endPointer =
      pageAt (requestBase kernel) (initialRequests kernel size) := by
  unfold initializedKernel requestBase initialRequests
  split
  · exact (vmmMallocInit kernel size).heap.endPointer_eq
  · have zero : BitVec.ofNat 32 0 * 4096 = 0 := by decide
    rw [pageAt, zero]
    exact (BitVec.add_zero _).symm

/-- The requests of the initialization. -/
theorem requested_initializedKernel
    (kernel : Kernel)
    (size : SizeT) :
    Requested kernel.paging (requestBase kernel)
      (initialRequests kernel size)
      (initializedKernel kernel size).paging := by
  unfold initializedKernel requestBase initialRequests
  split
  · exact requested_mallocInitPages _ _ _
  · exact .none

/-- The requests behind the end of the heap. -/
theorem requested_grownPages
    (kernel : Kernel)
    (size : SizeT)
    (i : Nat) :
    Requested kernel.paging (requestBase kernel)
      (initialRequests kernel size + i)
      (grownPages (initializedKernel kernel size).paging
        (initializedKernel kernel size).heap.endPointer i) := by
  rw [endPointer_initializedKernel]
  exact (requested_initializedKernel kernel size).grownPages i

/-- There are at least as many blocks for more pages. -/
theorem blocksFor_mono
    (start : Paging)
    (base : PtrT)
    {fewer more : Nat}
    (le : fewer ≤ more) :
    blocksFor start base fewer ≤ blocksFor start base more :=
  (strictMono_nat_of_lt_succ
    (blocksFor_lt_succ start base)).monotone le

/-- A page is granted a block if the supply is enough for it. -/
theorem Requested.grants
    {start paging : Paging}
    {base : PtrT}
    {count : Nat}
    (requested : Requested start base count paging)
    (structures : PageStructures start)
    (enough : blocksFor start base count < start.pmm.supply) :
    paging.pmm.Grants := by
  have supply :=
    (requested.supplied structures (Nat.le_of_lt enough)).supply
  exact Pmm.grants_of_supply (by omega)

/-- A call that the supply is enough for returns with all its pages. -/
theorem Affords.servesOrRefuses
    (structures : PageStructures kernel.paging)
    (positive : 1 ≤ size.toNat)
    (affords : Affords kernel size) :
    ServesOrRefuses kernel size := by
  obtain ⟨cur, pages, stops, extra, few, enough⟩ := affords
  obtain ⟨fuel, ends⟩ := stops.searchBlock
  obtain ⟨result, later, taken⟩ :=
    extra.takeBlock few (show pages < fuel + pages + 1 by omega)
  obtain ⟨grownBy, grownExtra, grew⟩ := takeBlock_grewBy taken
  have sameGrowth := extra.unique grownExtra
  subst sameGrowth
  have paging := requested_grownPages kernel size pages
  rw [← grew.paging] at paging
  have block
      {i : Nat}
      (below : i < initialRequests kernel size + pages) :
      blocksFor kernel.paging (requestBase kernel) i <
        kernel.paging.pmm.supply :=
    Nat.lt_of_lt_of_le (blocksFor_lt_succ _ _ i)
      ((blocksFor_mono _ _ below).trans enough)
  refine ⟨fuel + pages + 1, result + headerSize, later, ?_, Or.inl ⟨?_, ?_⟩⟩
  · rw [vmmMallocNextBlock_eq positive, ends _ (by omega)]
    simp only [Option.bind_eq_bind, Option.bind_some, taken,
      Option.pure_def]
  · intro uninitialized i below
    have base : requestBase kernel = pointer heapStart :=
      if_pos uninitialized
    have count : initialRequests kernel size = (initialPages size).toNat :=
      if_pos uninitialized
    have early : i < initialRequests kernel size + pages := by omega
    rw [← base]
    exact ⟨(requested_mallocInitPages kernel.paging _ i).grants structures
      (block early), paging.backs structures enough early⟩
  · intro other otherPages otherStops otherExtra i below
    have same := stops.unique otherStops
    subst same
    have samePages := extra.unique otherExtra
    have within :
        initialRequests kernel size + i <
          initialRequests kernel size + pages := by
      omega
    refine ⟨(requested_grownPages kernel size i).grants structures
      (block within), ?_⟩
    rw [endPointer_initializedKernel, pageAt_pageAt]
    exact paging.backs structures enough within

/-! ## Calls that do not refuse -/

/-- A free block that is taken is returned, whether it grows or not. -/
theorem takeBlock_free
    {fuel : Nat}
    {cur result : PtrT}
    {later : Kernel}
    (free : blockFree kernel.heap.memory cur = true)
    (returned :
      takeBlock fuel kernel cur size = some (result, later)) :
    result = cur := by
  unfold takeBlock at returned
  dsimp only at returned
  split at returned
  · rw [Option.some.injEq, Prod.mk.injEq] at returned
    exact returned.1.symm
  · split at returned
    · rw [Option.some.injEq, Prod.mk.injEq] at returned
      exact returned.1.symm
    · simp only [growHeap, free, ↓reduceIte, Option.bind_eq_bind,
        Option.bind_eq_some_iff, Option.pure_def, Option.some.injEq,
        Prod.mk.injEq] at returned
      obtain ⟨_, _, _, _, same, _⟩ := returned
      exact same.symm

/-- A call that initializes the heap returns its first block. -/
theorem result_of_initialization
    {fuel : Nat}
    {cur result : PtrT}
    {later : Kernel}
    (uninitialized :
      blockSize kernel.heap.memory kernel.heap.mallocHead = 0)
    (stops :
      SearchStops (initializedKernel kernel size).heap.memory size
        (initializedKernel kernel size).heap.mallocHead cur)
    (returned :
      takeBlock fuel (initializedKernel kernel size) cur size =
        some (result, later)) :
    result = pointer heapStart := by
  have same : initializedKernel kernel size = vmmMallocInit kernel size :=
    if_pos uninitialized
  rw [same] at stops returned
  have header := vmmMallocInit_header kernel size
  have first : cur = pointer heapStart := by
    cases stops with
    | here =>
        rfl
    | pass passes =>
        exact (passes.2 header.next).elim
  rw [first] at returned
  exact takeBlock_free header.free returned

/-- A call that obtained all its pages had enough supply for them. -/
theorem ObtainsPages.enough
    {cur : PtrT}
    {pages : Nat}
    {later : Kernel}
    (obtains : ObtainsPages kernel size later)
    (structures : PageStructures kernel.paging)
    (low : kernel.paging.pmm.FreeBelow4GiB)
    (stops :
      SearchStops (initializedKernel kernel size).heap.memory size
        (initializedKernel kernel size).heap.mallocHead cur)
    (extra :
      ExtraPages (initializedKernel kernel size).heap.memory size cur
        pages)
    (grew : GrewBy (initializedKernel kernel size) later pages) :
    blocksFor kernel.paging (requestBase kernel)
        (initialRequests kernel size + pages) ≤
      kernel.paging.pmm.supply := by
  have paging := grew.paging
  cases pages with
  | succ last =>
      -- The last page is one behind the end of the heap.
      obtain ⟨granted, backs⟩ :=
        obtains.additional stops extra last (Nat.lt_succ_self last)
      rw [endPointer_initializedKernel, pageAt_pageAt] at backs
      refine (requested_grownPages kernel size last).enough ?_ structures
        low granted backs
      rw [paging, ← pageAt_pageAt, ← endPointer_initializedKernel]
      exact Or.inr rfl
  | zero =>
      by_cases uninitialized :
          blockSize kernel.heap.memory kernel.heap.mallocHead = 0
      · -- The last page, if any, is one of the initialization.
        have base : requestBase kernel = pointer heapStart :=
          if_pos uninitialized
        have count :
            initialRequests kernel size = (initialPages size).toNat :=
          if_pos uninitialized
        have initialized :
            initializedKernel kernel size = vmmMallocInit kernel size :=
          if_pos uninitialized
        have all := obtains.initial uninitialized
        have states :
            later.paging =
              mallocInitPages kernel.paging (pointer heapStart)
                (initialPages size).toNat := by
          rw [paging, initialized]
          rfl
        rw [base, count, Nat.add_zero]
        revert all states
        generalize (initialPages size).toNat = requests
        intro all states
        cases requests with
        | zero =>
            exact Nat.zero_le _
        | succ last =>
            obtain ⟨granted, backs⟩ := all last (Nat.lt_succ_self last)
            refine (requested_mallocInitPages kernel.paging _ last).enough
              ?_ structures low granted backs
            rw [states]
            exact Or.inl rfl
      · have none : initialRequests kernel size = 0 :=
          if_neg uninitialized
        rw [none]
        exact Nat.zero_le _

/-- A call that returned with all its pages had enough supply for them. -/
theorem ServesOrRefuses.affords
    (structures : PageStructures kernel.paging)
    (low : kernel.paging.pmm.FreeBelow4GiB)
    (positive : 1 ≤ size.toNat)
    (serves : ServesOrRefuses kernel size) :
    Affords kernel size := by
  obtain ⟨fuel, result, later, returned, outcome⟩ := serves
  rw [vmmMallocNextBlock_eq positive] at returned
  simp only [Option.bind_eq_bind, Option.bind_eq_some_iff,
    Option.pure_def, Option.some.injEq, Prod.mk.injEq, Prod.exists]
    at returned
  obtain ⟨cur, found, taken, later, took, rfl, rfl⟩ := returned
  have stops := searchStops_of_searchBlock found
  obtain ⟨pages, extra, grew⟩ := takeBlock_grewBy took
  refine ⟨cur, pages, stops, extra, grew.few, ?_⟩
  rcases outcome with obtains | refuses
  · exact obtains.enough structures low stops extra grew
  · by_cases uninitialized :
        blockSize kernel.heap.memory kernel.heap.mallocHead = 0
    · have null := refuses.null
      rw [result_of_initialization uninitialized stops took] at null
      exact absurd null (by decide)
    · have same : initializedKernel kernel size = kernel :=
        if_neg uninitialized
      have count : initialRequests kernel size = 0 :=
        if_neg uninitialized
      have few := grew.few
      have total := grew.total
      rw [same, refuses.total] at total
      have zero : BitVec.ofNat 32 pages = 0 := by
        simpa using total.symm
      have value := congrArg BitVec.toNat zero
      rw [BitVec.toNat_ofNat, Nat.mod_eq_of_lt (by omega)] at value
      have none : pages = 0 := value
      rw [none, count]
      exact Nat.zero_le _

/--
A call that initializes the heap under an absent directory entry needs a
block for its first page and one for the table.
-/
theorem ServesOrRefuses.two_le_supply
    (structures : PageStructures kernel.paging)
    (low : kernel.paging.pmm.FreeBelow4GiB)
    (positive : 1 ≤ size.toNat)
    (uninitialized :
      blockSize kernel.heap.memory kernel.heap.mallocHead = 0)
    (missing : ¬kernel.paging.HasTable (pageAt (pointer heapStart) 0))
    (serves : ServesOrRefuses kernel size) :
    2 ≤ kernel.paging.pmm.supply := by
  obtain ⟨_, pages, _, _, _, enough⟩ :=
    serves.affords structures low positive
  have base : requestBase kernel = pointer heapStart :=
    if_pos uninitialized
  have count : initialRequests kernel size = (initialPages size).toNat :=
    if_pos uninitialized
  have some_ := initialPages_pos positive
  have needed : NeedsTable kernel.paging (pointer heapStart) 0 :=
    ⟨missing, fun j below => (Nat.not_lt_zero j below).elim⟩
  have first : blocksFor kernel.paging (pointer heapStart) 1 = 2 := by
    rw [blocksFor, if_pos needed, blocksFor]
  have more :=
    blocksFor_mono kernel.paging (pointer heapStart)
      (show 1 ≤ initialRequests kernel size + pages by omega)
  rw [base] at enough
  omega

end Call

/--
A call obtains all its pages or refuses exactly if it ends and the supply is
enough for the pages it requests.
-/
theorem vmmMallocNextBlock_servesOrRefuses_iff
    {kernel : Kernel}
    {size : SizeT}
    (structures : PageStructures kernel.paging)
    (positive : 1 ≤ size.toNat) :
    (Affords kernel size → ServesOrRefuses kernel size) ∧
      (kernel.paging.pmm.FreeBelow4GiB →
        ServesOrRefuses kernel size →
        Affords kernel size) :=
  ⟨fun affords => affords.servesOrRefuses structures positive,
    fun low serves => serves.affords structures low positive⟩

/-- The state after the initialization, without a heap. -/
def bootedKernel : Kernel where
  paging := bootedPaging
  heap := noHeap

/-- Its first call initializes the heap and splits the first block. -/
theorem bootedKernel_splits
    {size : SizeT}
    (larger :
      size + headerSize < initialPages size * 4096 - headerSize) :
    SearchStops (initializedKernel bootedKernel size).heap.memory size
        (initializedKernel bootedKernel size).heap.mallocHead
        (pointer heapStart) ∧
      ExtraPages (initializedKernel bootedKernel size).heap.memory size
        (pointer heapStart) 0 := by
  have uninitialized :
      blockSize bootedKernel.heap.memory bootedKernel.heap.mallocHead =
        0 := by
    decide
  have same :
      initializedKernel bootedKernel size =
        vmmMallocInit bootedKernel size :=
    if_pos uninitialized
  have header := vmmMallocInit_header bootedKernel size
  rw [same]
  refine ⟨.here fun passes => passes.2 header.next, .fits fun grows => ?_⟩
  rw [GrowsAt, header.size] at grows
  exact grows.2 larger

/-- The page structures that the initialization leaves. -/
theorem pageStructures_bootedKernel :
    PageStructures bootedKernel.paging ∧
      bootedKernel.paging.pmm.FreeBelow4GiB :=
  ⟨bootedPaging_represents.2.structures, bootedPaging_represents.2.low⟩

/-- With three blocks left, a heap of one page is served. -/
theorem vmmMallocNextBlock_servesOrRefuses_iff_onePage :
    ServesOrRefuses bootedKernel 1 := by
  obtain ⟨stops, extra⟩ :=
    bootedKernel_splits (show (1 : SizeT) + headerSize < _ by decide)
  refine (vmmMallocNextBlock_servesOrRefuses_iff
    pageStructures_bootedKernel.1 (by decide)).1
    ⟨_, 0, stops, extra, by decide, ?_⟩
  have supply : bootedKernel.paging.pmm.supply = 3 := bootedPaging_supply
  have requests : initialRequests bootedKernel 1 = 1 := by decide
  rw [supply, requests]
  exact (blocksFor_le _ _ 1).trans (by decide)

/-- A call that requests pages. -/
def NeedsPages (kernel : Kernel) (size : SizeT) : Prop :=
  ∃ cur pages,
    SearchStops (initializedKernel kernel size).heap.memory size
        (initializedKernel kernel size).heap.mallocHead cur ∧
      ExtraPages (initializedKernel kernel size).heap.memory size cur
        pages ∧
      1 ≤ initialRequests kernel size + pages

/-- With three blocks left, a heap of four pages is returned all the same. -/
theorem vmmMallocNextBlock_servesOrRefuses_fails :
    ¬∀ (kernel : Kernel) (size : SizeT),
        PageStructures kernel.paging →
        1 ≤ size.toNat →
        NeedsPages kernel size →
        ServesOrRefuses kernel size := by
  intro claimed
  obtain ⟨structures, low⟩ := pageStructures_bootedKernel
  obtain ⟨stops, extra⟩ :=
    bootedKernel_splits (show (0x3001 : SizeT) + headerSize < _ by decide)
  have requests : initialRequests bootedKernel 0x3001 = 4 := by decide
  have serves :=
    claimed bootedKernel 0x3001 structures (by decide)
      ⟨_, 0, stops, extra, by rw [requests]; decide⟩
  obtain ⟨_, pages, _, _, _, enough⟩ :=
    serves.affords structures low (by decide)
  have blocks :=
    le_blocksFor bootedKernel.paging (requestBase bootedKernel)
      (initialRequests bootedKernel 0x3001 + pages)
  have supply : bootedKernel.paging.pmm.supply = 3 := bootedPaging_supply
  omega

end HobbyOS
