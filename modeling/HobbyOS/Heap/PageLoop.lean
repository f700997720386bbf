import HobbyOS.Heap.PageRequest

namespace HobbyOS

open Library

/-!
# The page loops

The loops of `vmm_malloc_init` and `vmm_malloc_next_block` request the pages
of the heap one after the other.  The second loop counts in a `uint8_t`, so
it ends only for up to 255 pages.
-/

/-- The `i`-th page from an address on. -/
def pageAt (base : PtrT) (i : Nat) : PtrT :=
  base + BitVec.ofNat 32 i * 4096

/-- Pages are counted on from any of them. -/
theorem pageAt_pageAt (base : PtrT) (i j : Nat) :
    pageAt (pageAt base i) j = pageAt base (i + j) := by
  rw [pageAt, pageAt, pageAt, BitVec.ofNat_add, BitVec.add_mul,
    BitVec.add_assoc]

/-- The pages that `vmm_malloc_next_block` has requested after `count`. -/
def grownPages (paging : Paging) (endAddress : PtrT) : Nat → Paging
  | 0 => paging
  | count + 1 =>
      mallocGrowPage (grownPages paging endAddress count)
        (pageAt endAddress count)

/-- One more page, requested first. -/
theorem grownPages_succ
    (paging : Paging)
    (endAddress : PtrT)
    (count : Nat) :
    grownPages paging endAddress (count + 1) =
      mallocGrowPage (grownPages paging endAddress count)
        (pageAt endAddress count) :=
  rfl

/-- The loop counter as a number of pages. -/
theorem pageAt_counter (endAddress : PtrT) (i : BitVec 8) :
    endAddress + i.setWidth 32 * 4096 = pageAt endAddress i.toNat := by
  have value : i.setWidth 32 = BitVec.ofNat 32 i.toNat := by
    apply BitVec.eq_of_toNat_eq
    have bound := i.isLt
    rw [BitVec.toNat_setWidth, BitVec.toNat_ofNat]
  rw [value, pageAt]

/-- Up to 255 pages, the loop ends after requesting them, given the fuel. -/
theorem mallocGrowPages_of_le
    {paging : Paging}
    {endAddress : PtrT}
    {additionalPages : SizeT}
    (small : additionalPages.toNat ≤ 255)
    {fuel : Nat}
    {i : BitVec 8}
    (reached : i.toNat ≤ additionalPages.toNat) :
    mallocGrowPages endAddress additionalPages fuel i
        (grownPages paging endAddress i.toNat) =
      if additionalPages.toNat < fuel + i.toNat then
        some (grownPages paging endAddress additionalPages.toNat)
      else
        none := by
  induction fuel generalizing i with
  | zero =>
      rw [if_neg (by omega)]
      rfl
  | succ fuel inductionHypothesis =>
      have width : (i.setWidth 32).toNat = i.toNat := by
        have bound := i.isLt
        rw [BitVec.toNat_setWidth, Nat.mod_eq_of_lt (by omega)]
      rw [mallocGrowPages]
      by_cases more : i.toNat < additionalPages.toNat
      · have next : (i + 1).toNat = i.toNat + 1 := by
          have one : (1 : BitVec 8).toNat = 1 := rfl
          rw [BitVec.toNat_add, one, Nat.mod_eq_of_lt (by omega)]
        rw [if_pos (by rw [BitVec.lt_def, width]; exact more),
          pageAt_counter, ← grownPages_succ, ← next,
          inductionHypothesis (by omega), next, Nat.add_right_comm,
          Nat.add_assoc]
      · have last : i.toNat = additionalPages.toNat := by omega
        rw [if_neg (by rw [BitVec.lt_def, width]; exact more),
          if_pos (by omega), last]

/-- For more than 255 pages, the loop does not end. -/
theorem mallocGrowPages_of_gt
    {endAddress : PtrT}
    {additionalPages : SizeT}
    (large : 255 < additionalPages.toNat)
    (fuel : Nat)
    (i : BitVec 8)
    (paging : Paging) :
    mallocGrowPages endAddress additionalPages fuel i paging = none := by
  induction fuel generalizing i paging with
  | zero =>
      rfl
  | succ fuel inductionHypothesis =>
      have bound := i.isLt
      have width : (i.setWidth 32).toNat = i.toNat := by
        rw [BitVec.toNat_setWidth, Nat.mod_eq_of_lt (by omega)]
      have more : i.setWidth 32 < additionalPages := by
        rw [BitVec.lt_def, width]
        omega
      rw [mallocGrowPages, if_pos more]
      exact inductionHypothesis _ _

/-- A loop that ended has requested its pages. -/
theorem mallocGrowPages_eq
    {paging later : Paging}
    {endAddress : PtrT}
    {additionalPages : SizeT}
    {fuel : Nat}
    (returned :
      mallocGrowPages endAddress additionalPages fuel 0 paging =
        some later) :
    additionalPages.toNat ≤ 255 ∧
      later = grownPages paging endAddress additionalPages.toNat := by
  by_cases small : additionalPages.toNat ≤ 255
  · refine ⟨small, ?_⟩
    have loop :
        mallocGrowPages endAddress additionalPages fuel 0 paging = _ :=
      mallocGrowPages_of_le small (Nat.zero_le _)
    rw [returned] at loop
    split at loop
    · exact Option.some.inj loop
    · exact absurd loop (by simp)
  · rw [mallocGrowPages_of_gt (by omega)] at returned
    exact absurd returned (by simp)

/-! ## Sequences of requests -/

/-- One of the two loop bodies runs for a page. -/
def RequestsPage (paging : Paging) (vaddr : AddrT) (later : Paging) :
    Prop :=
  later = mallocInitPage paging vaddr ∨
    later = mallocGrowPage paging vaddr

/-- Both loop bodies map their page or nothing. -/
theorem PageStructures.requestsPage_result
    {paging later : Paging}
    {vaddr : AddrT}
    (structures : PageStructures paging)
    (below :
      ¬paging.HasTable vaddr → paging.pmm.afterOne.FindsBelow4GiB 1)
    (requests : RequestsPage paging vaddr later) :
    ∃ mapped, RequestResult paging vaddr (mapped, later) := by
  rcases requests with rfl | rfl
  · exact ⟨_, structures.mallocInitPageCall below⟩
  · exact ⟨_, structures.mallocGrowPageCall below⟩

/-- Both loop bodies do the same to the map of pages. -/
theorem PageStructures.requestsPage
    {paging later : Paging}
    {vaddr : AddrT}
    (structures : PageStructures paging)
    (below :
      ¬paging.HasTable vaddr → paging.pmm.afterOne.FindsBelow4GiB 1)
    (requests : RequestsPage paging vaddr later) :
    PageRequest paging vaddr later := by
  obtain ⟨_, outcome⟩ := structures.requestsPage_result below requests
  exact outcome.request

/-- The states after the first `count` pages from `base` on were requested. -/
inductive Requested (start : Paging) (base : PtrT) : Nat → Paging → Prop where
  | none :
      Requested start base 0 start
  | next
      {count : Nat}
      {paging later : Paging} :
      Requested start base count paging →
      RequestsPage paging (pageAt base count) later →
      Requested start base (count + 1) later

/-- The loop of `vmm_malloc_init` requests its pages. -/
theorem requested_mallocInitPages
    (start : Paging)
    (base : PtrT)
    (count : Nat) :
    Requested start base count (mallocInitPages start base count) := by
  induction count with
  | zero =>
      exact .none
  | succ count inductionHypothesis =>
      exact .next inductionHypothesis (Or.inl rfl)

/-- The loop of `vmm_malloc_next_block` requests further pages. -/
theorem Requested.grownPages
    {start paging : Paging}
    {base : PtrT}
    {count : Nat}
    (requested : Requested start base count paging)
    (more : Nat) :
    Requested start base (count + more)
      (HobbyOS.grownPages paging (pageAt base count) more) := by
  induction more with
  | zero =>
      exact requested
  | succ more inductionHypothesis =>
      refine .next inductionHypothesis (Or.inr ?_)
      show _ = mallocGrowPage _ (pageAt base (count + more))
      rw [← pageAt_pageAt]
      rfl

/-- A page of the sequence needs a table that nothing has created yet. -/
def NeedsTable (start : Paging) (base : PtrT) (i : Nat) : Prop :=
  ¬start.HasTable (pageAt base i) ∧
    ∀ j < i, vmmPdIndex (pageAt base j) ≠ vmmPdIndex (pageAt base i)

instance (start : Paging) (base : PtrT) (i : Nat) :
    Decidable (NeedsTable start base i) :=
  inferInstanceAs (Decidable (_ ∧ _))

/-- The blocks for the first pages and for the tables they need. -/
def blocksFor (start : Paging) (base : PtrT) : Nat → Nat
  | 0 => 0
  | count + 1 =>
      blocksFor start base count +
        if NeedsTable start base count then 2 else 1

/-- Every further page needs a block at least. -/
theorem blocksFor_lt_succ
    (start : Paging)
    (base : PtrT)
    (count : Nat) :
    blocksFor start base count < blocksFor start base (count + 1) := by
  rw [blocksFor]
  split <;> omega

/-- The directory entries that are present after some requests. -/
def TablesAfter
    (start : Paging)
    (base : PtrT)
    (count : Nat)
    (paging : Paging) :
    Prop :=
  ∀ vaddr,
    paging.HasTable vaddr ↔
      start.HasTable vaddr ∨
        ∃ i < count, vmmPdIndex (pageAt base i) = vmmPdIndex vaddr

/-- The next page needs a table exactly if it has none. -/
theorem TablesAfter.needsTable_iff
    {start paging : Paging}
    {base : PtrT}
    {count : Nat}
    (tables : TablesAfter start base count paging) :
    NeedsTable start base count ↔
      ¬paging.HasTable (pageAt base count) := by
  rw [tables, NeedsTable, not_or]
  simp only [not_exists, not_and]

/-- One more request adds its directory entry. -/
theorem TablesAfter.next
    {start paging later : Paging}
    {base : PtrT}
    {count : Nat}
    (tables : TablesAfter start base count paging)
    (added :
      ∀ vaddr,
        later.HasTable vaddr ↔
          paging.HasTable vaddr ∨
            vmmPdIndex vaddr = vmmPdIndex (pageAt base count)) :
    TablesAfter start base (count + 1) later := by
  intro vaddr
  rw [added, tables, or_assoc]
  refine or_congr_right ?_
  constructor
  · rintro (⟨i, below, same⟩ | same)
    · exact ⟨i, by omega, same⟩
    · exact ⟨count, Nat.lt_succ_self count, same.symm⟩
  · rintro ⟨i, below, same⟩
    rcases Nat.lt_succ_iff_lt_or_eq.mp below with earlier | rfl
    · exact Or.inl ⟨i, earlier, same⟩
    · exact Or.inr same.symm

/-- The state of the page structures and the supply after some requests. -/
structure SuppliedPages
    (start : Paging)
    (base : PtrT)
    (count : Nat)
    (paging : Paging) :
    Prop where
  structures : PageStructures paging
  tables : TablesAfter start base count paging
  supply :
    paging.pmm.supply + blocksFor start base count = start.pmm.supply

/-- Taking one block from a supply. -/
theorem Pmm.supply_afterOne_of_supply
    {pmm : Pmm}
    (supplied : 1 ≤ pmm.supply) :
    pmm.afterOne.supply + 1 = pmm.supply := by
  obtain ⟨block, _, _, allocation, used⟩ := allocate_of_supply supplied
  rw [afterOne, allocation]
  exact used

/-- A request for which the supply is enough. -/
theorem SuppliedPages.next
    {start paging later : Paging}
    {base : PtrT}
    {count : Nat}
    (supplied : SuppliedPages start base count paging)
    (requests : RequestsPage paging (pageAt base count) later)
    (enough : blocksFor start base (count + 1) ≤ start.pmm.supply) :
    SuppliedPages start base (count + 1) later ∧
      PageRequest paging (pageAt base count) later := by
  have supply := supplied.supply
  have needs := supplied.tables.needsTable_iff
  have used :
      blocksFor start base (count + 1) =
        blocksFor start base count +
          if NeedsTable start base count then 2 else 1 :=
    rfl
  by_cases present : paging.HasTable (pageAt base count)
  · rw [if_neg fun needed => needs.mp needed present] at used
    have request :=
      supplied.structures.requestsPage (fun missing => (missing present).elim)
        requests
    have pmm := request.pmm
    rw [if_pos present] at pmm
    have taken :=
      Pmm.supply_afterOne_of_supply
        (show 1 ≤ paging.pmm.supply by omega)
    refine ⟨⟨request.structures,
      supplied.tables.next (request.hasTable (Or.inl present)), ?_⟩, request⟩
    rw [pmm]
    omega
  · rw [if_pos (needs.mpr present)] at used
    have taken :=
      Pmm.supply_afterOne_of_supply
        (show 1 ≤ paging.pmm.supply by omega)
    have second : 1 ≤ paging.pmm.afterOne.supply := by omega
    have request :=
      supplied.structures.requestsPage
        (fun _ => Pmm.findsBelow4GiB_of_supply second) requests
    have pmm := request.pmm
    rw [if_neg present] at pmm
    have takenSecond := Pmm.supply_afterOne_of_supply second
    refine ⟨⟨request.structures,
      supplied.tables.next
        (request.hasTable (Or.inr (Pmm.grants_of_supply second))), ?_⟩,
      request⟩
    rw [pmm]
    omega

/-- The supply is enough for the table of the next page. -/
theorem SuppliedPages.possible
    {start paging : Paging}
    {base : PtrT}
    {count : Nat}
    (supplied : SuppliedPages start base count paging)
    (enough : blocksFor start base (count + 1) ≤ start.pmm.supply) :
    paging.HasTable (pageAt base count) ∨ paging.pmm.afterOne.Grants := by
  by_cases present : paging.HasTable (pageAt base count)
  · exact Or.inl present
  · right
    have supply := supplied.supply
    rw [blocksFor, if_pos (supplied.tables.needsTable_iff.mpr present)]
      at enough
    have taken :=
      Pmm.supply_afterOne_of_supply (show 1 ≤ paging.pmm.supply by omega)
    exact Pmm.grants_of_supply (by omega)

/-- Requests for which the supply is enough. -/
theorem Requested.supplied
    {start paging : Paging}
    {base : PtrT}
    {count : Nat}
    (requested : Requested start base count paging)
    (structures : PageStructures start)
    (enough : blocksFor start base count ≤ start.pmm.supply) :
    SuppliedPages start base count paging := by
  induction requested with
  | none =>
      refine ⟨structures, ?_, rfl⟩
      intro vaddr
      simp
  | @next count _ _ _ requests inductionHypothesis =>
      have less := blocksFor_lt_succ start base count
      have supplied := inductionHypothesis (by omega)
      exact (supplied.next requests enough).1

/-- With free blocks below 4 GiB only, a request needs nothing else. -/
theorem PageStructures.requestsPage_low
    {paging later : Paging}
    {vaddr : AddrT}
    (structures : PageStructures paging)
    (low : paging.pmm.FreeBelow4GiB)
    (requests : RequestsPage paging vaddr later) :
    PageRequest paging vaddr later :=
  structures.requestsPage
    (fun _ => low.afterOne.findsBelow4GiB (by decide)) requests

/-- A page that is refused its table stays without one. -/
theorem PageStructures.not_hasTable_requestsPage
    {paging later : Paging}
    {vaddr : AddrT}
    (structures : PageStructures paging)
    (low : paging.pmm.FreeBelow4GiB)
    (requests : RequestsPage paging vaddr later)
    (missing : ¬paging.HasTable vaddr)
    (refused : ¬paging.pmm.afterOne.Grants) :
    ¬later.HasTable vaddr := by
  obtain ⟨mapped, outcome⟩ :=
    structures.requestsPage_result
      (fun _ => low.afterOne.findsBelow4GiB (by decide)) requests
  have failed : mapped = false := by
    rw [← Bool.not_eq_true]
    exact fun held =>
      (outcome.mapped.mp held).elim missing refused
  exact fun held => missing ((outcome.refused failed vaddr).1.mp held)

/-- The page structures stay intact, whether blocks are left or not. -/
theorem Requested.pageStructures
    {start paging : Paging}
    {base : PtrT}
    {count : Nat}
    (requested : Requested start base count paging)
    (structures : PageStructures start)
    (low : start.pmm.FreeBelow4GiB) :
    PageStructures paging ∧ paging.pmm.FreeBelow4GiB := by
  induction requested with
  | none =>
      exact ⟨structures, low⟩
  | next _ requests inductionHypothesis =>
      obtain ⟨earlier, stillLow⟩ := inductionHypothesis
      have request := earlier.requestsPage_low stillLow requests
      refine ⟨request.structures, ?_⟩
      rw [request.pmm]
      split
      · exact stillLow.afterOne
      · exact stillLow.afterOne.afterOne

/-- A request uses up one unit of the supply, or two. -/
theorem PageRequest.supply
    {paging later : Paging}
    {vaddr : AddrT}
    (request : PageRequest paging vaddr later)
    (low : paging.pmm.FreeBelow4GiB) :
    later.pmm.supply =
      paging.pmm.supply - if paging.HasTable vaddr then 1 else 2 := by
  rw [request.pmm]
  split
  · exact Pmm.supply_afterOne low
  · rw [Pmm.supply_afterOne low.afterOne, Pmm.supply_afterOne low,
      Nat.sub_sub]

/-- Without enough supply, the manager runs out. -/
theorem Requested.exhausted
    {start paging : Paging}
    {base : PtrT}
    {count : Nat}
    (requested : Requested start base count paging)
    (structures : PageStructures start)
    (low : start.pmm.FreeBelow4GiB)
    (short : start.pmm.supply < blocksFor start base count) :
    paging.pmm.supply = 0 := by
  induction requested with
  | none =>
      exact (Nat.not_lt_zero _ short).elim
  | @next count paging later earlier requests inductionHypothesis =>
      obtain ⟨middle, stillLow⟩ := earlier.pageStructures structures low
      have request := middle.requestsPage_low stillLow requests
      rw [request.supply stillLow]
      by_cases already : start.pmm.supply < blocksFor start base count
      · rw [inductionHypothesis already, Nat.zero_sub]
      · have supplied := earlier.supplied structures (by omega)
        have supply := supplied.supply
        have needs := supplied.tables.needsTable_iff
        rw [blocksFor] at short
        by_cases present : paging.HasTable (pageAt base count)
        · rw [if_neg fun needed => needs.mp needed present] at short
          rw [if_pos present]
          omega
        · rw [if_pos (needs.mpr present)] at short
          rw [if_neg present]
          omega

/-- The next page is granted a block exactly if enough is left. -/
theorem Requested.grants_iff
    {start paging : Paging}
    {base : PtrT}
    {count : Nat}
    (requested : Requested start base count paging)
    (structures : PageStructures start)
    (low : start.pmm.FreeBelow4GiB) :
    paging.pmm.Grants ↔
      blocksFor start base count < start.pmm.supply := by
  obtain ⟨_, stillLow⟩ := requested.pageStructures structures low
  rw [Pmm.grants_iff_supply stillLow]
  by_cases short : start.pmm.supply < blocksFor start base count
  · have none := requested.exhausted structures low short
    omega
  · have supply := (requested.supplied structures (by omega)).supply
    omega

end HobbyOS
