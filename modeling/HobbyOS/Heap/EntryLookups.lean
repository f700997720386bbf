import HobbyOS.Heap.Exhaustion
import HobbyOS.VirtualMemory.TableAccess

namespace HobbyOS

open Library

/-!
# Lookups of page entries

`vmm_get_page` does not test whether the directory entry is present.  An
absent one holds the frame 0, so the address it returns then lies in page 0,
and its callers read and write an entry there.  A lookup goes through a
present table exactly if a page of the same 4 MiB was mapped before.
-/

/-! ## Calls on pages -/

/--
The calls on pages, with what `vmm_map_page` returned in them.  A request is
one iteration of a page loop of the heap.
-/
inductive PageCall where
  | map (vaddr : PtrT) (mapped : Bool) : PageCall
  | unmap (vaddr : PtrT) : PageCall
  | request (vaddr : PtrT) (mapped : Bool) : PageCall

/-- A call has mapped a page at an address. -/
inductive PageCall.Maps : PageCall → PtrT → Prop where
  | map {vaddr : PtrT} : Maps (.map vaddr true) vaddr
  | request {vaddr : PtrT} : Maps (.request vaddr true) vaddr

/-- The functions that look up a page's entry, at any address. -/
inductive PageCallStep : PageCall → Paging → Paging → Prop where
  | map
      {physicalAddress virtualAddress : PtrT}
      {paging : Paging} :
      PageCallStep
        (.map virtualAddress
          (vmmMapPage paging physicalAddress virtualAddress).1)
        paging
        (vmmMapPage paging physicalAddress virtualAddress).2
  | unmap
      {vaddr : PtrT}
      {paging : Paging} :
      PageCallStep (.unmap vaddr) paging (vmmUnmapPage paging vaddr)
  | initPage
      {vaddr : PtrT}
      {paging : Paging} :
      PageCallStep (.request vaddr (mallocInitPageCall paging vaddr).1)
        paging (mallocInitPage paging vaddr)
  | growPage
      {vaddr : PtrT}
      {paging : Paging} :
      PageCallStep (.request vaddr (mallocGrowPageCall paging vaddr).1)
        paging (mallocGrowPage paging vaddr)

/-- A call that has to create a table finds a block below 4 GiB for it. -/
def TablesBelow4GiB : PageCall → Paging → Prop
  | .map vaddr _, paging =>
      ¬paging.HasTable vaddr → paging.pmm.FindsBelow4GiB 1
  | .unmap _, _ => True
  | .request vaddr _, paging =>
      ¬paging.HasTable vaddr → paging.pmm.afterOne.FindsBelow4GiB 1

/-- The page loops of the heap are runs of these calls. -/
theorem Requested.pageRun
    {start paging : Paging}
    {base : PtrT}
    {count : Nat}
    (requested : Requested start base count paging) :
    ∃ calls, Run PageCallStep start calls paging := by
  induction requested with
  | none =>
      exact ⟨[], Run.nil⟩
  | next _ requests inductionHypothesis =>
      obtain ⟨calls, run⟩ := inductionHypothesis
      rcases requests with rfl | rfl
      · exact ⟨_, run.snoc PageCallStep.initPage⟩
      · exact ⟨_, run.snoc PageCallStep.growPage⟩

/-- `vmm_malloc_init` is a run of these calls on the page structures. -/
theorem vmmMallocInit_pageRun (kernel : Kernel) (size : SizeT) :
    ∃ calls,
      Run PageCallStep kernel.paging calls
        (vmmMallocInit kernel size).paging :=
  (requested_mallocInitPages kernel.paging (pointer heapStart)
    (initialPages size).toNat).pageRun

/-- So is every call of `vmm_malloc_next_block` that returns. -/
theorem vmmMallocNextBlock_pageRun
    {fuel : Nat}
    {kernel later : Kernel}
    {size : SizeT}
    {result : PtrT}
    (positive : 1 ≤ size.toNat)
    (returned :
      vmmMallocNextBlock fuel kernel size = some (result, later)) :
    ∃ calls, Run PageCallStep kernel.paging calls later.paging := by
  rw [vmmMallocNextBlock_eq positive] at returned
  simp only [Option.bind_eq_bind, Option.bind_eq_some_iff,
    Option.pure_def, Option.some.injEq, Prod.mk.injEq, Prod.exists]
    at returned
  obtain ⟨cur, _, block, _, taken, _, rfl⟩ := returned
  obtain ⟨pages, _, grew⟩ := takeBlock_grewBy taken
  rw [grew.paging]
  exact (requested_grownPages kernel size pages).pageRun

/-! ## What a history of calls has mapped -/

/-- The first 4 MiB, and all areas of 4 MiB in which a call has mapped. -/
def AreaMapped (calls : List PageCall) (vaddr : AddrT) : Prop :=
  vaddr.toNat < 2 ^ 22 ∨
    ∃ call ∈ calls,
      ∃ other,
        call.Maps other ∧ vmmPdIndex other = vmmPdIndex vaddr

/-- The page of an address was never mapped. -/
def NeverMapped (calls : List PageCall) (vaddr : AddrT) : Prop :=
  2 ^ 22 ≤ vaddr.toNat ∧
    ∀ call ∈ calls,
      ∀ other, call.Maps other → pageNumber other ≠ pageNumber vaddr

/-- A lookup goes through a present table, to an entry inside of it. -/
structure LookupInTable (paging : Paging) (vaddr : AddrT) : Prop where
  present : paging.HasTable vaddr
  inside :
    (paging.tableOf vaddr).toNat ≤ (vmmGetPage paging vaddr).toNat ∧
      (vmmGetPage paging vaddr).toNat + 4 ≤
        (paging.tableOf vaddr).toNat + 4096

/--
The lookup of an address goes through a present table, and unmapping the
address changes no memory if it was never mapped.
-/
structure LookupSound
    (calls : List PageCall)
    (paging : Paging)
    (vaddr : AddrT) :
    Prop where
  lookup : LookupInTable paging vaddr
  unmap :
    NeverMapped calls vaddr →
    (vmmUnmapPage paging vaddr).memory = paging.memory

/-- The areas after one more call. -/
theorem areaMapped_snoc
    (calls : List PageCall)
    (call : PageCall)
    (vaddr : AddrT) :
    AreaMapped (calls ++ [call]) vaddr ↔
      AreaMapped calls vaddr ∨
        ∃ other,
          call.Maps other ∧ vmmPdIndex other = vmmPdIndex vaddr := by
  simp only [AreaMapped, List.mem_append, List.mem_singleton, or_and_right,
    exists_or, exists_eq_left, or_assoc]

/-- The pages that were never mapped, after one more call. -/
theorem neverMapped_snoc
    (calls : List PageCall)
    (call : PageCall)
    (vaddr : AddrT) :
    NeverMapped (calls ++ [call]) vaddr ↔
      NeverMapped calls vaddr ∧
        ∀ other, call.Maps other → pageNumber other ≠ pageNumber vaddr := by
  simp only [NeverMapped, List.mem_append, List.mem_singleton, or_imp,
    forall_and, forall_eq, and_assoc]

/-! ## The invariant -/

/-- The page structures, the tables and the entries after some calls. -/
structure LookupInvariant (calls : List PageCall) (paging : Paging) :
    Prop where
  structures : PageStructures paging
  hasTable : ∀ vaddr, paging.HasTable vaddr ↔ AreaMapped calls vaddr
  entries :
    ∀ vaddr, NeverMapped calls vaddr → paging.pageEntry vaddr = 0

/-- The first 4 MiB have the directory entry 0. -/
theorem vmmPdIndex_eq_zero_iff (vaddr : AddrT) :
    vmmPdIndex vaddr = 0 ↔ vaddr.toNat < 2 ^ 22 := by
  have index := toNat_vmmPdIndex vaddr
  rw [pageNumber] at index
  constructor
  · intro zero
    rw [zero] at index
    have value : 0 = vaddr.toNat / 4096 / 1024 := index
    omega
  · intro low
    apply BitVec.eq_of_toNat_eq
    rw [index]
    show vaddr.toNat / 4096 / 1024 = 0
    omega

/-- The initialization establishes the invariant. -/
theorem IdentityMapped.lookupInvariant
    {start : Paging}
    (identity : IdentityMapped start) :
    LookupInvariant [] start where
  structures := identity.structures
  hasTable := by
    intro vaddr
    rw [identity.hasTable, vmmPdIndex_eq_zero_iff]
    simp [AreaMapped]
  entries := by
    rintro vaddr ⟨high, _⟩
    have beyond : ¬pageNumber vaddr < 1024 := by
      rw [pageNumber]
      omega
    rw [identity.entries, if_neg beyond]

/-- The outcome of a call that maps one page, or leaves all as it was. -/
structure MapsOrLeaves
    (paging later : Paging)
    (vaddr : AddrT)
    (mapped : Bool) :
    Prop where
  structures : PageStructures later
  hasTable :
    ∀ other,
      later.HasTable other ↔
        paging.HasTable other ∨
          (mapped = true ∧ vmmPdIndex other = vmmPdIndex vaddr)
  entries :
    ∀ other,
      (mapped = true → pageNumber other ≠ pageNumber vaddr) →
      later.pageEntry other = paging.pageEntry other

/-- `vmm_map_page` maps one page, or leaves all as it was. -/
theorem PageStructures.MapsPage.mapsOrLeaves
    {paging : Paging}
    {physicalAddress virtualAddress : PtrT}
    {result : Bool × Paging}
    (structures : PageStructures paging)
    (maps :
      PageStructures.MapsPage paging physicalAddress virtualAddress
        result) :
    MapsOrLeaves paging result.2 virtualAddress result.1 := by
  cases maps with
  | exhausted missing refused =>
      exact ⟨structures, by simp, fun _ _ => rfl⟩
  | mapped possible later _ _ hasTable entries =>
      refine ⟨later, by simpa using hasTable, ?_⟩
      intro other apart
      rw [entries, if_neg (apart rfl)]

/-- A page request maps one page, or leaves all as it was. -/
theorem RequestResult.mapsOrLeaves
    {paging : Paging}
    {vaddr : AddrT}
    {result : Bool × Paging}
    (request : RequestResult paging vaddr result) :
    MapsOrLeaves paging result.2 vaddr result.1 := by
  refine ⟨request.request.structures, ?_, ?_⟩
  · intro other
    cases mapped : result.1 with
    | true =>
        simpa using
          request.request.hasTable (request.mapped.mp mapped) other
    | false =>
        simpa using (request.refused mapped other).1
  · intro other apart
    cases mapped : result.1 with
    | true =>
        rw [request.request.entries (request.mapped.mp mapped),
          if_neg (apart mapped)]
    | false =>
        exact (request.refused mapped other).2

namespace LookupInvariant

variable
  {calls : List PageCall}
  {paging later : Paging}
  {vaddr : PtrT}

/-- A call that maps one page, or leaves all as it was. -/
theorem mapsOrLeaves
    (invariant : LookupInvariant calls paging)
    {call : PageCall}
    {mapped : Bool}
    (maps : ∀ other, call.Maps other ↔ mapped = true ∧ other = vaddr)
    (outcome : MapsOrLeaves paging later vaddr mapped) :
    LookupInvariant (calls ++ [call]) later where
  structures := outcome.structures
  hasTable := by
    intro other
    rw [outcome.hasTable, invariant.hasTable, areaMapped_snoc]
    simp only [maps, and_assoc, exists_and_left, exists_eq_left]
    rw [eq_comm (a := vmmPdIndex other)]
  entries := by
    intro other never
    rw [neverMapped_snoc] at never
    rw [outcome.entries other, invariant.entries other never.1]
    intro happened same
    exact never.2 vaddr ((maps vaddr).mpr ⟨happened, rfl⟩) same.symm

/-- Unmapping leaves the pages alone that were never mapped. -/
theorem unmap
    (invariant : LookupInvariant calls paging)
    (vaddr : PtrT) :
    LookupInvariant (calls ++ [.unmap vaddr]) (vmmUnmapPage paging vaddr)
      := by
  have never (other : PtrT) : ¬PageCall.Maps (.unmap vaddr) other := nofun
  have areas (other : AddrT) :
      AreaMapped (calls ++ [.unmap vaddr]) other ↔
        AreaMapped calls other := by
    simp only [areaMapped_snoc, never, false_and, exists_false, or_false]
  have pages (other : AddrT) :
      NeverMapped (calls ++ [.unmap vaddr]) other ↔
        NeverMapped calls other := by
    simp only [neverMapped_snoc, never, false_implies, implies_true,
      and_true]
  by_cases present : paging.HasTable vaddr
  · obtain ⟨structures, hasTable, entries⟩ :=
      invariant.structures.vmmUnmapPage present
    refine ⟨structures, fun other => ?_, fun other unmapped => ?_⟩
    · rw [hasTable, areas, invariant.hasTable]
    · rw [pages] at unmapped
      rw [entries]
      split
      · rename_i same
        rw [← Paging.pageEntry_congr same, invariant.entries other unmapped]
        decide
      · exact invariant.entries other unmapped
  · have outside :
        AgreeOutside 0 4096 paging.memory
          (vmmUnmapPage paging vaddr).memory :=
      (invariant.structures.modifyWord_nullPage present _ _).trans
        (invariant.structures.modifyWord_nullPage present _ _)
    obtain ⟨structures, directory, entries⟩ :=
      invariant.structures.of_nullPage
        (show (vmmUnmapPage paging vaddr).vmmCurrentDirectory = _ from rfl)
        outside (fun _ held => held)
    refine ⟨structures, fun other => ?_, fun other unmapped => ?_⟩
    · rw [Paging.HasTable, directory, areas]
      exact invariant.hasTable other
    · rw [pages] at unmapped
      rw [entries, invariant.entries other unmapped]

/-- Every call keeps the invariant, if its tables lie below 4 GiB. -/
theorem step
    (invariant : LookupInvariant calls paging)
    {call : PageCall}
    (below : TablesBelow4GiB call paging)
    (stepped : PageCallStep call paging later) :
    LookupInvariant (calls ++ [call]) later := by
  have mapLabel (vaddr : PtrT) (mapped : Bool) (other : PtrT) :
      PageCall.Maps (.map vaddr mapped) other ↔
        mapped = true ∧ other = vaddr := by
    constructor
    · rintro ⟨⟩
      exact ⟨rfl, rfl⟩
    · rintro ⟨rfl, rfl⟩
      exact .map
  have requestLabel (vaddr : PtrT) (mapped : Bool) (other : PtrT) :
      PageCall.Maps (.request vaddr mapped) other ↔
        mapped = true ∧ other = vaddr := by
    constructor
    · rintro ⟨⟩
      exact ⟨rfl, rfl⟩
    · rintro ⟨rfl, rfl⟩
      exact .request
  cases stepped with
  | map =>
      exact invariant.mapsOrLeaves (mapLabel _ _)
        ((invariant.structures.vmmMapPage below).mapsOrLeaves
          invariant.structures)
  | unmap =>
      exact invariant.unmap _
  | initPage =>
      exact invariant.mapsOrLeaves (requestLabel _ _)
        (invariant.structures.mallocInitPageCall below).mapsOrLeaves
  | growPage =>
      exact invariant.mapsOrLeaves (requestLabel _ _)
        (invariant.structures.mallocGrowPageCall below).mapsOrLeaves

/-- A lookup in a present table stays inside of it. -/
theorem lookupInTable
    (present : paging.HasTable vaddr) :
    LookupInTable paging vaddr := by
  have room :=
    entryAddress_room (PageStructures.aligned_tableOf paging vaddr)
      (vmmPtIndex_lt vaddr)
  have position :=
    toNat_entryAddress (PageStructures.aligned_tableOf paging vaddr)
      (vmmPtIndex_lt vaddr)
  refine ⟨present, ?_, ?_⟩
  · rw [PageStructures.vmmGetPage_eq, position]
    exact Nat.le_add_right _ _
  · rw [PageStructures.vmmGetPage_eq]
    exact room.1

/-- Unmapping a page that was never mapped changes no memory. -/
theorem unmap_memory
    (invariant : LookupInvariant calls paging)
    (present : paging.HasTable vaddr)
    (never : NeverMapped calls vaddr) :
    (vmmUnmapPage paging vaddr).memory = paging.memory := by
  have zero := invariant.entries vaddr never
  rw [PageStructures.pageEntry_of_hasTable present,
    ← PageStructures.vmmGetPage_eq] at zero
  have unmapped :
      vmmClearAttribute ptePresent (vmmSetFrame 0 (0 : BitVec 32)) = 0 := by
    decide
  simp only [vmmUnmapPage, modifyWord_modifyWord_self]
  rw [modifyWord, zero, unmapped, ← zero, writeWord_readWord_self]

end LookupInvariant

/-! ## Runs -/

/-- Every run keeps the invariant, if its tables lie below 4 GiB. -/
theorem pageRun_lookupInvariant
    {start final : Paging}
    {calls : List PageCall}
    (identity : IdentityMapped start)
    (run : Run (Guarded TablesBelow4GiB PageCallStep) start calls final) :
    LookupInvariant calls final := by
  induction run with
  | nil =>
      exact identity.lookupInvariant
  | snoc _ stepped inductionHypothesis =>
      exact inductionHypothesis.step stepped.1 stepped.2

/--
After the initialization and any calls, a lookup is sound exactly if its
address lies in the first 4 MiB or in an area of 4 MiB in which a call has
mapped a page.
-/
theorem pageRun_lookupSound_iff
    {before start final : Paging}
    (below : InitializesBelow4GiB before.pmm)
    (success :
      initializeVirtualMemoryManager before = (true, start))
    {calls : List PageCall}
    (run : Run (Guarded TablesBelow4GiB PageCallStep) start calls final)
    (vaddr : AddrT) :
    LookupSound calls final vaddr ↔ AreaMapped calls vaddr := by
  have invariant :=
    pageRun_lookupInvariant
      (initializeVirtualMemoryManager_identityMapped below success) run
  rw [← invariant.hasTable]
  constructor
  · intro sound
    exact sound.lookup.present
  · intro present
    exact ⟨LookupInvariant.lookupInTable present,
      invariant.unmap_memory present⟩

/-- After a mapping at 4 MiB, the next page is looked up. -/
theorem pageRun_lookupSound_iff_booted :
    LookupSound
      [.map 0x400000 (vmmMapPage bootedPaging 0x7000 0x400000).1]
      (vmmMapPage bootedPaging 0x7000 0x400000).2 0x401000 := by
  have first :
      TablesBelow4GiB
        (.map 0x400000 (vmmMapPage bootedPaging 0x7000 0x400000).1)
        bootedPaging :=
    fun _ => Pmm.findsBelow4GiB_of_le bootedPaging_managed (by decide)
  have mapped : (vmmMapPage bootedPaging 0x7000 0x400000).1 = true := by
    obtain ⟨_, represents⟩ := bootedPaging_represents
    rw [← Bool.not_eq_false,
      (represents.maps 0x7000 0x400000).fails_iff]
    exact fun fails => bootedPaging_grants fails.2
  refine (pageRun_lookupSound_iff (initializesBelow4GiB_of_le (by decide))
    bootPaging_success (Run.nil.snoc ⟨first, PageCallStep.map⟩)
    0x401000).mpr (Or.inr ⟨_, List.mem_singleton_self _, 0x400000, ?_, ?_⟩)
  · rw [mapped]
    exact .map
  · decide

/-- The first lookup of `vmm_malloc_init` goes through an absent table. -/
theorem pageRun_lookupSound_fails :
    ¬∀ (before start final : Paging) (calls : List PageCall)
        (vaddr : AddrT),
        initializeVirtualMemoryManager before = (true, start) →
        Run PageCallStep start calls final →
        LookupSound calls final vaddr := by
  intro claimed
  have sound :=
    claimed _ _ _ [] (pointer heapStart) bootPaging_success .nil
  have identity :=
    initializeVirtualMemoryManager_identityMapped
      (initializesBelow4GiB_of_le (by decide)) bootPaging_success
  have index := (identity.hasTable _).mp sound.lookup.present
  exact absurd index (by decide)

end HobbyOS
