import HobbyOS.VirtualMemory.FrameOwnership
import HobbyOS.Heap.PageGrowth
import HobbyOS.Heap.Client

namespace HobbyOS

open Library

/-!
# The mapping of the heap's pages

Every page of the heap gets a frame of its own and is present.  It becomes
writable only if its directory entry was present when the page was requested,
which is not so for the first page under each entry that the heap reaches.
-/

/-! ## Entries of the heap's pages -/

/-- The read/write bit is bit 1. -/
theorem vmmTestAttribute_pteReadWrite (entry : BitVec 32) :
    vmmTestAttribute pteReadWrite entry = entry.getLsbD 1 := by
  have bit : pteReadWrite = BitVec.twoPow 32 1 := by decide
  rw [vmmTestAttribute, bit, BitVec.and_twoPow]
  cases entry.getLsbD 1 <;> decide

/-- A page that was requested under an existing table is writable. -/
theorem writable_requestedEntry (paddr entry : BitVec 32) :
    vmmTestAttribute pteReadWrite (requestedEntry paddr entry) = true := by
  have bit : pteReadWrite.getLsbD 1 = true := by decide
  rw [vmmTestAttribute_pteReadWrite, requestedEntry, vmmSetAttribute,
    BitVec.getLsbD_or, bit, Bool.or_true]

/-- A zero entry that is mapped to a block is not writable. -/
theorem not_writable_mappedEntry
    {block : Nat}
    (small : block < 2 ^ 20) :
    vmmTestAttribute pteReadWrite (mappedEntry (blockAddress block) 0) =
      false := by
  have present :
      (vmmSetAttribute ptePresent 0 &&& ~~~0x7FFFF000#32).getLsbD 1 =
        false := by
    decide
  have clear : (blockAddress block).getLsbD 1 = false := by
    have mask : (~~~0xFFF#32).getLsbD 1 = false := by decide
    have aligned : _ = _ := pageAligned_blockAddress small
    rw [← aligned, vmmPagePhysicalAddress, BitVec.getLsbD_and, mask,
      Bool.and_false]
  rw [vmmTestAttribute_pteReadWrite, mappedEntry, vmmSetFrame,
    BitVec.getLsbD_or, present, clear, Bool.or_false]

/-- The read/write attribute does not change the frame or the present bit. -/
theorem requestedEntry_bits
    (paddr entry : BitVec 32) :
    vmmPagePhysicalAddress (requestedEntry paddr entry) =
        vmmPagePhysicalAddress (mappedEntry paddr entry) ∧
      (requestedEntry paddr entry).getLsbD 0 =
        (mappedEntry paddr entry).getLsbD 0 := by
  have attributes : pteReadWrite &&& ~~~0xFFF#32 = 0 := by decide
  have bit : pteReadWrite.getLsbD 0 = false := by decide
  constructor
  · rw [requestedEntry, vmmPagePhysicalAddress, vmmSetAttribute,
      BitVec.and_or_distrib_right, attributes]
    exact BitVec.or_zero
  · rw [requestedEntry, vmmSetAttribute, BitVec.getLsbD_or, bit,
      Bool.or_false]

/-- The entry of the `i`-th page, once it was requested and given a block. -/
def heapEntry
    (start : Paging)
    (base : PtrT)
    (i block : Nat) :
    BitVec 32 :=
  if NeedsTable start base i then
    mappedEntry (blockAddress block) 0
  else
    requestedEntry (blockAddress block) (start.pageEntry (pageAt base i))

section Entries

variable
  {start : Paging}
  {base : PtrT}
  {i block : Nat}

/-- A heap page is present. -/
theorem present_heapEntry :
    vmmTestAttribute ptePresent (heapEntry start base i block) = true := by
  rw [vmmTestAttribute_ptePresent, heapEntry]
  split
  · exact getLsbD_zero_mappedEntry _ _
  · rw [(requestedEntry_bits _ _).2]
    exact getLsbD_zero_mappedEntry _ _

/-- A heap page has its block as its frame. -/
theorem frame_heapEntry
    (small : block < 2 ^ 20)
    (clear : ∀ vaddr, (start.pageEntry vaddr).getLsbD 31 = false) :
    vmmPagePhysicalAddress (heapEntry start base i block) =
      blockAddress block := by
  have aligned := pageAligned_blockAddress small
  rw [heapEntry]
  split
  · exact vmmPagePhysicalAddress_mappedEntry aligned (by decide)
  · rw [(requestedEntry_bits _ _).1]
    exact vmmPagePhysicalAddress_mappedEntry aligned (clear _)

/-- A heap page is writable exactly if it did not need a table. -/
theorem writable_heapEntry
    (small : block < 2 ^ 20) :
    vmmTestAttribute pteReadWrite (heapEntry start base i block) = true ↔
      ¬NeedsTable start base i := by
  rw [heapEntry]
  split
  · rename_i needed
    rw [not_writable_mappedEntry small]
    exact iff_of_false Bool.false_ne_true (not_not_intro needed)
  · rename_i notNeeded
    exact iff_of_true (writable_requestedEntry _ _) notNeeded

end Entries

/-- Numbers of the pages from an aligned address on. -/
theorem pageNumber_pageAt
    {base : PtrT}
    (aligned : PageAligned base)
    (i : Nat) :
    pageNumber (pageAt base i) = (pageNumber base + i) % 2 ^ 20 := by
  have page := (pageAligned_iff base).mp aligned
  have size : (4096 : BitVec 32).toNat = 4096 := rfl
  rw [pageNumber, pageNumber, pageAt, BitVec.toNat_add, BitVec.toNat_mul,
    BitVec.toNat_ofNat, size]
  omega

/-! ## Requests that are granted -/

/-- The entries after some pages were requested and granted. -/
structure HeapPages
    (start : Paging)
    (base : PtrT)
    (count : Nat)
    (paging : Paging) :
    Prop where
  pages :
    ∀ i < count,
      ∃ block < 2 ^ 20,
        paging.pmm.Reserved block ∧
          paging.pageEntry (pageAt base i) = heapEntry start base i block
  distinct :
    ∀ i < count,
      ∀ j < count,
        vmmPagePhysicalAddress (paging.pageEntry (pageAt base i)) =
          vmmPagePhysicalAddress (paging.pageEntry (pageAt base j)) →
        i = j
  others :
    ∀ vaddr,
      (∀ i < count, pageNumber (pageAt base i) ≠ pageNumber vaddr) →
      paging.pageEntry vaddr = start.pageEntry vaddr

/-- A block that was reserved before a request stays reserved. -/
theorem PageRequest.reserved
    {paging later : Paging}
    {vaddr : AddrT}
    (request : PageRequest paging vaddr later)
    {block : Nat}
    (reserved : paging.pmm.afterOne.Reserved block) :
    later.pmm.Reserved block := by
  rw [request.pmm]
  split
  · exact reserved
  · exact Pmm.reserved_afterOne reserved

/-- The entry of a page that is granted its blocks. -/
theorem PageRequest.pageEntry_self
    {start paging later : Paging}
    {base : PtrT}
    {count block : Nat}
    (request : PageRequest paging (pageAt base count) later)
    (tables : TablesAfter start base count paging)
    (possible :
      paging.HasTable (pageAt base count) ∨ paging.pmm.afterOne.Grants)
    (granted : (pmmAllocateBlocks paging.pmm 1).1 = blockAddress block)
    (untouched :
      paging.pageEntry (pageAt base count) =
        start.pageEntry (pageAt base count)) :
    later.pageEntry (pageAt base count) =
      heapEntry start base count block := by
  have needs := tables.needsTable_iff
  rw [request.entries possible, if_pos rfl, granted, untouched, heapEntry]
  by_cases present : paging.HasTable (pageAt base count)
  · rw [if_pos present, if_neg fun needed => needs.mp needed present]
  · rw [if_neg present, if_pos (needs.mpr present)]

/-- One more page that is granted its blocks. -/
theorem HeapPages.next
    {start paging later : Paging}
    {base : PtrT}
    {count : Nat}
    (heap : HeapPages start base count paging)
    (aligned : PageAligned base)
    (clear : ∀ vaddr, (start.pageEntry vaddr).getLsbD 31 = false)
    (few : count < 2 ^ 20)
    (tables : TablesAfter start base count paging)
    (request : PageRequest paging (pageAt base count) later)
    (supplied : 1 ≤ paging.pmm.supply)
    (possible :
      paging.HasTable (pageAt base count) ∨ paging.pmm.afterOne.Grants) :
    HeapPages start base (count + 1) later := by
  obtain ⟨block, next, small, allocation, _⟩ :=
    Pmm.allocate_of_supply supplied
  have after : paging.pmm.afterOne = paging.pmm.reserve block 1 := by
    rw [Pmm.afterOne, allocation]
  have apart
      {i : Nat}
      (below : i < count) :
      pageNumber (pageAt base i) ≠ pageNumber (pageAt base count) := by
    rw [pageNumber_pageAt aligned, pageNumber_pageAt aligned]
    omega
  have self :
      later.pageEntry (pageAt base count) =
        heapEntry start base count block := by
    refine request.pageEntry_self tables possible ?_ ?_
    · rw [allocation]
    · exact heap.others _ fun i below => apart below
  have old
      {i : Nat}
      (below : i < count) :
      later.pageEntry (pageAt base i) = paging.pageEntry (pageAt base i) := by
    rw [request.entries possible, if_neg (apart below)]
  -- The new frame was free, the frames of the other pages were not.
  have fresh
      {i : Nat}
      (below : i < count) :
      vmmPagePhysicalAddress (paging.pageEntry (pageAt base i)) ≠
        vmmPagePhysicalAddress (heapEntry start base count block) := by
    obtain ⟨other, otherSmall, reserved, entry⟩ := heap.pages i below
    rw [entry, frame_heapEntry otherSmall clear, frame_heapEntry small clear]
    refine blockAddress_ne otherSmall small ?_
    rintro rfl
    exact next.lowestFree.free reserved
  refine ⟨?_, ?_, ?_⟩
  · intro i below
    rcases Nat.lt_succ_iff_lt_or_eq.mp below with earlier | rfl
    · obtain ⟨other, otherSmall, reserved, entry⟩ := heap.pages i earlier
      refine ⟨other, otherSmall,
        request.reserved (Pmm.reserved_afterOne reserved), ?_⟩
      rw [old earlier, entry]
    · refine ⟨block, small, request.reserved ?_, self⟩
      rw [after, Pmm.reserved_reserve]
      exact Or.inl ⟨Nat.le_refl _, Nat.lt_succ_self _⟩
  · intro i iBelow j jBelow same
    rcases Nat.lt_succ_iff_lt_or_eq.mp iBelow with iEarlier | rfl
    · rcases Nat.lt_succ_iff_lt_or_eq.mp jBelow with jEarlier | rfl
      · rw [old iEarlier, old jEarlier] at same
        exact heap.distinct i iEarlier j jEarlier same
      · rw [old iEarlier, self] at same
        exact (fresh iEarlier same).elim
    · rcases Nat.lt_succ_iff_lt_or_eq.mp jBelow with jEarlier | rfl
      · rw [old jEarlier, self] at same
        exact (fresh jEarlier same.symm).elim
      · rfl
  · intro vaddr otherPages
    have last := otherPages count (Nat.lt_succ_self count)
    rw [request.entries possible, if_neg fun same => last same.symm]
    exact heap.others vaddr fun i below =>
      otherPages i (Nat.lt_succ_of_lt below)

/-- The supply has no more blocks than there are below 4 GiB. -/
theorem Pmm.supply_le (pmm : Pmm) : pmm.supply ≤ 2 ^ 20 := by
  unfold supply freeBlocks
  split
  · have bounded :=
      Finset.card_filter_le
        (Finset.range (min pmm.scannedBlocks (2 ^ 20)))
        fun block => ¬pmm.Reserved block
    rw [Finset.card_range] at bounded
    omega
  · omega

/-- There are at least as many blocks as pages. -/
theorem le_blocksFor
    (start : Paging)
    (base : PtrT)
    (count : Nat) :
    count ≤ blocksFor start base count := by
  induction count with
  | zero =>
      exact Nat.le_refl _
  | succ count inductionHypothesis =>
      have less := blocksFor_lt_succ start base count
      omega

/-- Requests within the supply are all granted. -/
theorem Requested.heapPages
    {start paging : Paging}
    {base : PtrT}
    {count : Nat}
    (requested : Requested start base count paging)
    (structures : PageStructures start)
    (aligned : PageAligned base)
    (clear : ∀ vaddr, (start.pageEntry vaddr).getLsbD 31 = false)
    (enough : blocksFor start base count ≤ start.pmm.supply) :
    HeapPages start base count paging := by
  induction requested with
  | none =>
      exact ⟨by simp, by simp, fun _ _ => rfl⟩
  | @next count paging later earlier requests inductionHypothesis =>
      have less := blocksFor_lt_succ start base count
      have bounded := start.pmm.supply_le
      have few := le_blocksFor start base count
      have supplied := earlier.supplied structures (by omega)
      obtain ⟨_, request⟩ := supplied.next requests enough
      have supply := supplied.supply
      exact (inductionHypothesis (by omega)).next aligned clear (by omega)
        supplied.tables request (by omega) (supplied.possible enough)

/-! ## Runs -/

/-- The pages of the heap were requested from some start on. -/
structure HeapPaged (start : Paging) (kernel : Kernel) : Prop where
  vaddr : kernel.heap.mallocVaddr = pointer heapStart
  requested :
    Requested start (pointer heapStart)
      kernel.heap.totalMallocPages.toNat kernel.paging

/-- The calls of the heap's functions that grow it at most. -/
def Initialized : HeapCall → HeapClient → Prop
  | .malloc _, client =>
      blockSize client.kernel.heap.memory client.kernel.heap.mallocHead ≠ 0
  | .free _, _ => True
  | .defrag, _ => True

/-- The number of pages that a call requests. -/
def RequestsPages : HeapCall → HeapClient → Nat → Prop
  | .malloc size, client, pages =>
      ∃ cur,
        SearchStops client.kernel.heap.memory size
            client.kernel.heap.mallocHead cur ∧
          ExtraPages client.kernel.heap.memory size cur pages
  | .free _, _, pages => pages = 0
  | .defrag, _, pages => pages = 0

/-- A call grows the heap by the pages it requests, and by no others. -/
theorem HeapStep.grewBy
    {call : HeapCall}
    {before after : HeapClient}
    (initialized : Initialized call before)
    (called : HeapStep call before after)
    (served : before.kernel.CanServe) :
    after.kernel.CanServe ∧
      ∃ pages,
        RequestsPages call before pages ∧
          GrewBy before.kernel after.kernel pages := by
  cases called with
  | malloc positive returned servedAfter =>
      obtain ⟨cur, pages, stops, extra, grew⟩ :=
        vmmMallocNextBlock_grewBy positive initialized returned
      exact ⟨servedAfter, pages, ⟨cur, stops, extra⟩, grew⟩
  | free _ returned =>
      simp only [vmmMallocFree, Option.bind_eq_bind,
        Option.bind_eq_some_iff, Option.pure_def, Option.some.injEq]
        at returned
      obtain ⟨_, _, rfl⟩ := returned
      exact ⟨served, 0, rfl, GrewBy.none rfl rfl rfl⟩
  | defrag returned =>
      simp only [vmmMallocDefrag, Option.bind_eq_bind, Option.pure_def]
        at returned
      split at returned
      · rw [← Option.some.inj returned]
        exact ⟨served, 0, rfl, GrewBy.none rfl rfl rfl⟩
      · simp only [Option.bind_eq_some_iff, Option.some.injEq]
          at returned
        obtain ⟨_, _, rfl⟩ := returned
        exact ⟨served, 0, rfl, GrewBy.none rfl rfl rfl⟩

namespace HeapPaged

variable
  {start : Paging}
  {kernel later : Kernel}

/-- Initialization requests the first pages. -/
theorem fresh
    (start : Paging)
    (heap : Heap)
    (size : SizeT) :
    HeapPaged start (vmmMallocInit ⟨start, heap⟩ size) :=
  ⟨rfl, requested_mallocInitPages start (pointer heapStart)
    (initialPages size).toNat⟩

/-- While blocks are left, the heap has less pages than there are blocks. -/
theorem blocksFor_lt
    (paged : HeapPaged start kernel)
    (structures : PageStructures start)
    (low : start.pmm.FreeBelow4GiB)
    (served : kernel.CanServe) :
    blocksFor start (pointer heapStart)
        kernel.heap.totalMallocPages.toNat <
      start.pmm.supply :=
  (paged.requested.grants_iff structures low).mp served

/-- Growing adds to the number of pages. -/
theorem total
    (paged : HeapPaged start kernel)
    (structures : PageStructures start)
    (low : start.pmm.FreeBelow4GiB)
    (served : kernel.CanServe)
    {pages : Nat}
    (grew : GrewBy kernel later pages) :
    later.heap.totalMallocPages.toNat =
      kernel.heap.totalMallocPages.toNat + pages := by
  have few := grew.few
  have less := paged.blocksFor_lt structures low served
  have bounded := start.pmm.supply_le
  have count :=
    le_blocksFor start (pointer heapStart)
      kernel.heap.totalMallocPages.toNat
  rw [grew.total]
  exact toNat_add_ofNat pages (by omega)

/-- Growing requests further pages. -/
theorem grow
    (paged : HeapPaged start kernel)
    (structures : PageStructures start)
    (low : start.pmm.FreeBelow4GiB)
    (served : kernel.CanServe)
    {pages : Nat}
    (grew : GrewBy kernel later pages) :
    HeapPaged start later := by
  refine ⟨grew.vaddr.trans paged.vaddr, ?_⟩
  rw [paged.total structures low served grew, grew.paging,
    kernel.heap.endPointer_eq, paged.vaddr]
  exact paged.requested.grownPages pages

/-- Every call of the heap functions requests further pages at most. -/
theorem step
    {call : HeapCall}
    {before after : HeapClient}
    (paged : HeapPaged start before.kernel)
    (structures : PageStructures start)
    (low : start.pmm.FreeBelow4GiB)
    (served : before.kernel.CanServe)
    (stepped : Guarded Initialized HeapStep call before after) :
    HeapPaged start after.kernel ∧ after.kernel.CanServe := by
  obtain ⟨servedAfter, _, _, grew⟩ := stepped.2.grewBy stepped.1 served
  exact ⟨paged.grow structures low served grew, servedAfter⟩

end HeapPaged

/-! ## The property -/

/-- The `i`-th page of the heap. -/
def Heap.page (heap : Heap) (i : Nat) : PtrT :=
  pageAt heap.mallocVaddr i

/--
Every page of the heap is translated through a present writable entry, and
distinct pages have distinct frames.
-/
structure HeapMapped (kernel : Kernel) : Prop where
  translated :
    ∀ i < kernel.heap.totalMallocPages.toNat,
      ∃ frame, kernel.paging.walk (kernel.heap.page i) = some frame
  writable :
    ∀ i < kernel.heap.totalMallocPages.toNat,
      vmmTestAttribute pteReadWrite
          (kernel.paging.pageEntry (kernel.heap.page i)) =
        true
  distinct :
    ∀ i < kernel.heap.totalMallocPages.toNat,
      ∀ j < kernel.heap.totalMallocPages.toNat,
        kernel.paging.walk (kernel.heap.page i) =
          kernel.paging.walk (kernel.heap.page j) →
        i = j

/-- Tables are shared by the pages under one directory entry. -/
theorem Paging.hasTable_congr
    {paging : Paging}
    {first second : AddrT}
    (same : vmmPdIndex first = vmmPdIndex second) :
    paging.HasTable first ↔ paging.HasTable second := by
  rw [Paging.HasTable, Paging.HasTable, Paging.directoryEntry,
    Paging.directoryEntry, Paging.directoryEntryAddress,
    Paging.directoryEntryAddress, same]

/-- No page needs a table exactly if all directory entries were present. -/
theorem needsTable_none_iff
    (start : Paging)
    (base : PtrT)
    (count : Nat) :
    (∀ i < count, ¬NeedsTable start base i) ↔
      ∀ i < count, start.HasTable (pageAt base i) := by
  constructor
  · intro none i
    -- The first page under an absent entry would need a table.
    induction i using Nat.strong_induction_on with
    | _ i inductionHypothesis =>
        intro below
        by_contra missing
        refine none i below ⟨missing, ?_⟩
        intro j earlier same
        exact missing ((Paging.hasTable_congr same).mp
          (inductionHypothesis j earlier (by omega)))
  · intro tables i below needed
    exact needed.1 (tables i below)

/-- The directory entries of the heap's pages were present at the start. -/
def StartsPresent (start : Paging) (kernel : Kernel) : Prop :=
  ∀ i < kernel.heap.totalMallocPages.toNat,
    start.HasTable (kernel.heap.page i)

/-- The heap is mapped exactly if all its directory entries were present. -/
theorem HeapPaged.heapMapped_iff
    {start : Paging}
    {kernel : Kernel}
    {space : AddressSpace}
    (represents : Represents start space)
    (paged : HeapPaged start kernel)
    (served : kernel.CanServe) :
    HeapMapped kernel ↔ StartsPresent start kernel := by
  have clear := represents.highClear
  have aligned : PageAligned (pointer heapStart) :=
    (pageAligned_iff _).mpr (by decide)
  have enough :=
    paged.blocksFor_lt represents.structures represents.low served
  have heap :=
    paged.requested.heapPages represents.structures aligned clear
      (Nat.le_of_lt enough)
  have page
      (i : Nat) :
      kernel.heap.page i = pageAt (pointer heapStart) i := by
    rw [Heap.page, paged.vaddr]
  have walk
      {i : Nat}
      (below : i < kernel.heap.totalMallocPages.toNat) :
      kernel.paging.walk (pageAt (pointer heapStart) i) =
        some (vmmPagePhysicalAddress
          (kernel.paging.pageEntry (pageAt (pointer heapStart) i))) := by
    obtain ⟨block, _, _, entry⟩ := heap.pages i below
    rw [Paging.walk, entry, if_pos present_heapEntry]
  simp only [StartsPresent, page, ← needsTable_none_iff]
  constructor
  · intro mapped i below
    obtain ⟨block, small, _, entry⟩ := heap.pages i below
    have writable := mapped.writable i below
    rw [page, entry] at writable
    exact (writable_heapEntry small).mp writable
  · intro none
    refine ⟨?_, ?_, ?_⟩
    · intro i below
      rw [page, walk below]
      exact ⟨_, rfl⟩
    · intro i below
      obtain ⟨block, small, _, entry⟩ := heap.pages i below
      rw [page, entry]
      exact (writable_heapEntry small).mpr (none i below)
    · intro i iBelow j jBelow same
      rw [page, page, walk iBelow, walk jBelow] at same
      exact heap.distinct i iBelow j jBelow (Option.some.inj same)

/-- The heap starts under a directory entry that is absent at first. -/
theorem IdentityMapped.not_hasTable_heapStart
    {start : Paging}
    (identity : IdentityMapped start) :
    ¬start.HasTable (pageAt (pointer heapStart) 0) := by
  rw [identity.hasTable]
  decide

/-- Every run of the heap requests its pages one after the other. -/
theorem heapRun_paged
    {start : Paging}
    {space : AddressSpace}
    (represents : Represents start space)
    {heap : Heap}
    {size : SizeT}
    (served : (vmmMallocInit ⟨start, heap⟩ size).CanServe)
    {calls : List HeapCall}
    {client : HeapClient}
    (run :
      Run (Guarded Initialized HeapStep) (freshHeap ⟨start, heap⟩ size)
        calls client) :
    HeapPaged start client.kernel ∧ client.kernel.CanServe := by
  refine run.invariant
    (fun client => HeapPaged start client.kernel ∧ client.kernel.CanServe)
    ?_ ⟨HeapPaged.fresh start heap size, served⟩
  rintro call before after ⟨paged, servedBefore⟩ stepped
  exact paged.step represents.structures represents.low servedBefore
    stepped

/-- The heap is not initialized anew, and requests pages with tables only. -/
def RequestsPresent (call : HeapCall) (client : HeapClient) : Prop :=
  Initialized call client ∧
    ∀ pages,
      RequestsPages call client pages →
      ∀ i < pages,
        client.kernel.paging.HasTable
          (pageAt client.kernel.heap.endPointer i)

/-- A heap whose directory entries were present has not added any. -/
theorem HeapPaged.hasTable_of_startsPresent
    {start : Paging}
    {kernel : Kernel}
    (paged : HeapPaged start kernel)
    (structures : PageStructures start)
    (low : start.pmm.FreeBelow4GiB)
    (served : kernel.CanServe)
    (tables : StartsPresent start kernel)
    {vaddr : AddrT}
    (present : kernel.paging.HasTable vaddr) :
    start.HasTable vaddr := by
  have enough := paged.blocksFor_lt structures low served
  have supplied :=
    paged.requested.supplied structures (Nat.le_of_lt enough)
  rcases (supplied.tables vaddr).mp present with old | ⟨i, below, same⟩
  · exact old
  · have first := tables i below
    rw [Heap.page, paged.vaddr] at first
    exact (Paging.hasTable_congr same).mp first

/-- Calls that request pages with tables keep to the entries of the start. -/
theorem HeapPaged.startsPresent_step
    {start : Paging}
    {call : HeapCall}
    {before after : HeapClient}
    (paged : HeapPaged start before.kernel)
    (structures : PageStructures start)
    (low : start.pmm.FreeBelow4GiB)
    (served : before.kernel.CanServe)
    (tables : StartsPresent start before.kernel)
    (stepped : Guarded RequestsPresent HeapStep call before after) :
    StartsPresent start after.kernel := by
  obtain ⟨⟨initialized, present⟩, called⟩ := stepped
  obtain ⟨_, pages, requests, grew⟩ := called.grewBy initialized served
  have total := paged.total structures low served grew
  intro i below
  rw [Heap.page, grew.vaddr]
  by_cases old : i < before.kernel.heap.totalMallocPages.toNat
  · exact tables i old
  · obtain ⟨further, rfl⟩ :=
      Nat.exists_eq_add_of_le (Nat.le_of_not_lt old)
    have requested := present pages requests further (by omega)
    rw [Heap.endPointer_eq, pageAt_pageAt] at requested
    exact paged.hasTable_of_startsPresent structures low served tables
      requested

/-- After the initialization alone, only a heap without pages is mapped. -/
theorem IdentityMapped.startsPresent_iff
    {start : Paging}
    {kernel : Kernel}
    (identity : IdentityMapped start)
    (paged : HeapPaged start kernel) :
    StartsPresent start kernel ↔ kernel.heap.totalMallocPages = 0 := by
  constructor
  · intro tables
    by_contra some_
    have positive : 0 < kernel.heap.totalMallocPages.toNat := by
      apply Nat.pos_of_ne_zero
      intro zero
      exact some_ (BitVec.eq_of_toNat_eq zero)
    have first := tables 0 positive
    rw [Heap.page, paged.vaddr] at first
    exact identity.not_hasTable_heapStart first
  · intro none i below
    rw [none] at below
    exact (Nat.not_lt_zero i below).elim

/--
After the initialization and any mappings, the heap's pages stay properly
mapped as long as it is not initialized anew and only pages under present
directory entries are requested.  They are so exactly if all the entries that
the heap reaches were present before it was initialized, which without
mappings holds only for a heap without pages.
-/
theorem heapRun_mapped_iff
    {before start mapped : Paging}
    (low : before.pmm.FreeBelow4GiB)
    (success :
      initializeVirtualMemoryManager before = (true, start))
    {events : List PageEvent}
    (mappings : Run PageStep start events mapped)
    {heap : Heap}
    {size : SizeT}
    (served : (vmmMallocInit ⟨mapped, heap⟩ size).CanServe) :
    ((∀ i < (initialPages size).toNat,
        mapped.HasTable (pageAt (pointer heapStart) i)) →
      ∀ calls client,
        Run (Guarded RequestsPresent HeapStep)
          (freshHeap ⟨mapped, heap⟩ size) calls client →
        HeapMapped client.kernel) ∧
      ∀ calls client,
        Run (Guarded Initialized HeapStep)
          (freshHeap ⟨mapped, heap⟩ size) calls client →
        (HeapMapped client.kernel ↔
            StartsPresent mapped client.kernel) ∧
          (mapped = start →
            (HeapMapped client.kernel ↔
              client.kernel.heap.totalMallocPages = 0)) := by
  obtain ⟨space, _, represents⟩ :=
    pageRun_represents low success mappings
  constructor
  · intro present calls client run
    have initially :
        StartsPresent mapped (freshHeap ⟨mapped, heap⟩ size).kernel :=
      present
    obtain ⟨paged, servedNow, tables⟩ :=
      run.invariant
        (fun client =>
          HeapPaged mapped client.kernel ∧ client.kernel.CanServe ∧
            StartsPresent mapped client.kernel)
        (by
          rintro call before after ⟨paged, servedBefore, tables⟩ stepped
          obtain ⟨pagedAfter, servedAfter⟩ :=
            paged.step represents.structures represents.low servedBefore
              ⟨stepped.1.1, stepped.2⟩
          exact ⟨pagedAfter, servedAfter,
            paged.startsPresent_step represents.structures
              represents.low servedBefore tables stepped⟩)
        ⟨HeapPaged.fresh mapped heap size, served, initially⟩
    exact (paged.heapMapped_iff represents servedNow).mpr tables
  · intro calls client run
    obtain ⟨paged, servedNow⟩ := heapRun_paged represents served run
    have iff := paged.heapMapped_iff represents servedNow
    refine ⟨iff, ?_⟩
    rintro rfl
    have identity :=
      (initializeVirtualMemoryManager_represents low success).1
    exact iff.trans (identity.startsPresent_iff paged)

/-- A heap that was never initialized. -/
def noHeap : Heap where
  memory := fun _ => 0
  mallocHead := 0
  mallocVaddr := 0
  totalMallocPages := 0

/-- Up to two blocks are needed for a page. -/
theorem blocksFor_le
    (start : Paging)
    (base : PtrT)
    (count : Nat) :
    blocksFor start base count ≤ 2 * count := by
  induction count with
  | zero =>
      exact Nat.le_refl _
  | succ count inductionHypothesis =>
      rw [blocksFor]
      split <;> omega

/-- The blocks that are left after the initialization on zeroed memory. -/
theorem bootedPaging_supply : bootedPaging.pmm.supply = 3 := by
  decide +kernel

/-- The initialization leaves a block for a page table. -/
theorem bootedPaging_grants :
    (pmmAllocateBlocks bootedPaging.pmm 1).1 ≠ 0 :=
  Pmm.grants_of_supply (by rw [bootedPaging_supply]; decide)

/-- A heap of one page can be served after the initialization. -/
theorem bootedPaging_canServe :
    (vmmMallocInit ⟨bootedPaging, noHeap⟩ 1).CanServe := by
  obtain ⟨_, represents⟩ := bootedPaging_represents
  have paged := HeapPaged.fresh bootedPaging noHeap 1
  refine (paged.requested.grants_iff represents.structures
    represents.low).mpr ?_
  rw [bootedPaging_supply]
  exact Nat.lt_of_le_of_lt (blocksFor_le bootedPaging _ 1) (by decide)

/--
After a mapping elsewhere under the directory entry of the heap's start, the
first page of the heap is properly mapped.
-/
theorem heapRun_mapped_iff_premapped :
    HeapMapped
      (vmmMallocInit
        ⟨(vmmMapPage bootedPaging 0x7000 0xC00000).2, noHeap⟩ 1) := by
  obtain ⟨_, represents⟩ := bootedPaging_represents
  have aligned : PageAligned 0x7000 :=
    (pageAligned_iff 0x7000).mpr (by decide)
  have mappings :
      Run PageStep bootedPaging
        [.map 0x7000 0xC00000 (vmmMapPage bootedPaging 0x7000 0xC00000).1]
        (vmmMapPage bootedPaging 0x7000 0xC00000).2 :=
    Run.nil.snoc (PageStep.map aligned (by decide))
  obtain ⟨_, _, premapped⟩ :=
    pageRun_represents bootPaging_low bootPaging_success mappings
  have supply := Pmm.supply_afterOne represents.low
  rw [bootedPaging_supply] at supply
  have maps := represents.maps 0x7000 0xC00000
  revert premapped mappings maps
  generalize vmmMapPage bootedPaging 0x7000 0xC00000 = result
  intro mappings premapped maps
  -- The mapping has created the table, with one of the three blocks.
  have created :
      result.2.HasTable (pageAt (pointer heapStart) 0) ∧
        2 ≤ result.2.pmm.supply := by
    cases maps with
    | exhausted _ refused =>
        exact (bootedPaging_grants refused).elim
    | mapped _ _ pmm _ hasTable _ =>
        refine ⟨(hasTable _).mpr (Or.inr (by decide)), ?_⟩
        rw [pmm]
        split
        · rw [bootedPaging_supply]
          decide
        · show 2 ≤ bootedPaging.pmm.afterOne.supply
          rw [supply]
  have served : (vmmMallocInit ⟨result.2, noHeap⟩ 1).CanServe := by
    have paged := HeapPaged.fresh result.2 noHeap 1
    refine (paged.requested.grants_iff premapped.structures
      premapped.low).mpr ?_
    have blocks : blocksFor result.2 (pointer heapStart) 1 = 1 := by
      rw [blocksFor, blocksFor, if_neg fun needed => needed.1 created.1]
    show blocksFor result.2 (pointer heapStart) 1 < _
    rw [blocks]
    exact created.2
  refine (heapRun_mapped_iff bootPaging_low bootPaging_success
    mappings served).1 ?_ [] _ Run.nil
  intro i below
  have first : i = 0 := Nat.lt_one_iff.mp below
  rw [first]
  exact created.1

/-- After the initialization alone, the first page is not writable. -/
theorem heapRun_mapped_fails :
    ¬∀ (before start : Paging) (heap : Heap) (size : SizeT)
        (calls : List HeapCall) (client : HeapClient),
        initializeVirtualMemoryManager before = (true, start) →
        (vmmMallocInit ⟨start, heap⟩ size).CanServe →
        Run (Guarded Initialized HeapStep)
          (freshHeap ⟨start, heap⟩ size) calls client →
        HeapMapped client.kernel := by
  intro claimed
  obtain ⟨identity, represents⟩ := bootedPaging_represents
  have mapped :=
    claimed bootPaging bootedPaging noHeap 1 [] _ bootPaging_success
      bootedPaging_canServe Run.nil
  have tables :=
    ((HeapPaged.fresh bootedPaging noHeap 1).heapMapped_iff represents
      bootedPaging_canServe).mp mapped
  exact identity.not_hasTable_heapStart (tables 0 (by decide))

end HobbyOS
