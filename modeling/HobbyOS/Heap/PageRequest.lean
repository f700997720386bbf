import HobbyOS.PhysicalMemory.Supply
import HobbyOS.VirtualMemory.AddressSpace
import HobbyOS.Heap.Malloc

namespace HobbyOS

open Library

/-!
# Pages that the heap requests

The loop bodies of `vmm_malloc_init` and `vmm_malloc_next_block` take the
address of the page's entry before `vmm_map_page` creates a missing table.
Then `vmm_allocate_page` and the read/write attribute go to a word of page 0,
and the entry gets the frame and the present bit only.
-/

/-- The entry of a requested page under a table that was there before. -/
def requestedEntry (paddr entry : BitVec 32) : BitVec 32 :=
  vmmSetAttribute pteReadWrite (mappedEntry paddr entry)

/-- Mapping an entry that was just allocated changes nothing. -/
theorem mappedEntry_allocatedEntry (paddr entry : BitVec 32) :
    mappedEntry paddr (allocatedEntry paddr entry) =
      mappedEntry paddr entry := by
  have present :
      ptePresent &&& ~~~0x7FFFF000#32 = ptePresent := by
    decide
  simp only [mappedEntry, allocatedEntry, vmmSetFrame, vmmSetAttribute,
    BitVec.and_or_distrib_right, present, BitVec.and_assoc,
    BitVec.and_self]
  apply BitVec.eq_of_getLsbD_eq
  intro bit _
  simp only [BitVec.getLsbD_or, BitVec.getLsbD_and]
  cases paddr.getLsbD bit <;> cases ptePresent.getLsbD bit <;> simp

/-- The read/write attribute may be set before or after the mapping. -/
theorem mappedEntry_setReadWrite (paddr entry : BitVec 32) :
    mappedEntry paddr (vmmSetAttribute pteReadWrite entry) =
      requestedEntry paddr entry := by
  have kept :
      pteReadWrite &&& ~~~0x7FFFF000#32 = pteReadWrite := by
    decide
  simp only [requestedEntry, mappedEntry, vmmSetFrame, vmmSetAttribute,
    BitVec.and_or_distrib_right, kept]
  apply BitVec.eq_of_getLsbD_eq
  intro bit _
  simp only [BitVec.getLsbD_or, BitVec.getLsbD_and]
  cases paddr.getLsbD bit <;> cases pteReadWrite.getLsbD bit <;> simp

/-- Reserved blocks stay reserved. -/
theorem Pmm.reserved_afterOne
    {pmm : Pmm}
    {block : Nat}
    (reserved : pmm.Reserved block) :
    pmm.afterOne.Reserved block := by
  have allocates := pmmAllocateBlocks_allocatesOne pmm
  unfold afterOne
  generalize pmmAllocateBlocks pmm 1 = result at allocates
  cases allocates with
  | refused =>
      exact reserved
  | granted =>
      exact (Pmm.reserved_reserve _ _ _ _).mpr (Or.inr reserved)

/-- Below 4 GiB a refused allocation changes nothing. -/
theorem Pmm.FindsBelow4GiB.afterOne_of_refused
    {pmm : Pmm}
    (below : pmm.FindsBelow4GiB 1)
    (refused : ¬pmm.Grants) :
    pmm.afterOne = pmm := by
  have takes := below.takesBlocks (show 0 < (1 : SizeT).toNat by decide)
  unfold Pmm.Grants at refused
  unfold Pmm.afterOne
  generalize pmmAllocateBlocks pmm 1 = result at takes refused
  cases takes with
  | refused =>
      rfl
  | granted notZero small =>
      exact (refused (blockAddress_ne_zero notZero small)).elim

/-- What requesting a page does to the map from pages to entry words. -/
structure PageRequest
    (paging : Paging)
    (vaddr : AddrT)
    (later : Paging) :
    Prop where
  structures : PageStructures later
  pmm :
    later.pmm =
      if paging.HasTable vaddr then paging.pmm.afterOne
      else paging.pmm.afterOne.afterOne
  hasTable :
    paging.HasTable vaddr ∨ paging.pmm.afterOne.Grants →
    ∀ other,
      later.HasTable other ↔
        paging.HasTable other ∨ vmmPdIndex other = vmmPdIndex vaddr
  entries :
    paging.HasTable vaddr ∨ paging.pmm.afterOne.Grants →
    ∀ other,
      later.pageEntry other =
        if pageNumber other = pageNumber vaddr then
          if paging.HasTable vaddr then
            requestedEntry (pmmAllocateBlocks paging.pmm 1).1
              (paging.pageEntry vaddr)
          else
            mappedEntry (pmmAllocateBlocks paging.pmm 1).1 0
        else
          paging.pageEntry other

/-- `mallocInitPage` together with what its `vmm_map_page` returned. -/
def mallocInitPageCall (paging : Paging) (vaddr : PtrT) : Bool × Paging :=
  let page := vmmGetPage paging vaddr
  let (paddr, paging) := vmmAllocatePage paging page
  let memory := modifyWord paging.memory page (vmmSetAttribute pteReadWrite)
  vmmMapPage { paging with memory := memory } paddr vaddr

/-- `mallocGrowPage` together with what its `vmm_map_page` returned. -/
def mallocGrowPageCall (paging : Paging) (vaddr : PtrT) : Bool × Paging :=
  let page := vmmGetPage paging vaddr
  let (paddr, paging) := vmmAllocatePage paging page
  let (mapped, paging) := vmmMapPage paging paddr vaddr
  (mapped,
    { paging with
      memory :=
        modifyWord paging.memory page (vmmSetAttribute pteReadWrite) })

/-- A page request together with its result: it maps its page or nothing. -/
structure RequestResult
    (paging : Paging)
    (vaddr : AddrT)
    (result : Bool × Paging) :
    Prop where
  request : PageRequest paging vaddr result.2
  mapped :
    result.1 = true ↔
      paging.HasTable vaddr ∨ paging.pmm.afterOne.Grants
  refused :
    result.1 = false →
    ∀ other,
      (result.2.HasTable other ↔ paging.HasTable other) ∧
        result.2.pageEntry other = paging.pageEntry other

namespace PageStructures

variable
  {paging : Paging}
  {vaddr : AddrT}

/-! ## Under an existing table -/

/-- A page whose entry was written after an allocation. -/
theorem pageRequest_of_hasTable
    (structures : PageStructures paging)
    (present : paging.HasTable vaddr)
    {later : Paging}
    (written :
      later =
        { paging with
          memory :=
            writeWord paging.memory (vmmGetPage paging vaddr)
              (requestedEntry (pmmAllocateBlocks paging.pmm 1).1
                (paging.pageEntry vaddr))
          pmm := paging.pmm.afterOne }) :
    PageRequest paging vaddr later := by
  obtain ⟨wrote, directory, entries⟩ :=
    structures.writeEntry present
      (requestedEntry (pmmAllocateBlocks paging.pmm 1).1
        (paging.pageEntry vaddr))
  rw [written]
  refine ⟨?_, ?_, ?_, ?_⟩
  · exact wrote.of_sameDirectory rfl (fun _ => rfl)
      (fun _ held => Pmm.reserved_afterOne held)
  · rw [if_pos present]
  · intro _ other
    have same :
        Paging.directoryEntry
            { paging with
              memory :=
                writeWord paging.memory (vmmGetPage paging vaddr)
                  (requestedEntry (pmmAllocateBlocks paging.pmm 1).1
                    (paging.pageEntry vaddr))
              pmm := paging.pmm.afterOne } other =
          paging.directoryEntry other :=
      directory other
    rw [Paging.HasTable, same]
    constructor
    · exact Or.inl
    · rintro (held | index)
      · exact held
      · rw [Paging.directoryEntry, Paging.directoryEntryAddress, index]
        exact present
  · intro _ other
    rw [if_pos present]
    exact entries other

/-- Mapping a page with a table writes its entry. -/
theorem vmmMapPage_of_hasTable
    (present : paging.HasTable vaddr)
    (paddr : PtrT) :
    HobbyOS.vmmMapPage paging paddr vaddr =
      (true,
        { paging with
          memory :=
            writeWord paging.memory (vmmGetPage paging vaddr)
              (mappedEntry paddr (paging.pageEntry vaddr)) }) := by
  have test :
      vmmTestAttribute ptePresent
          (readWord paging.memory (paging.directoryEntryAddress vaddr)) =
        true :=
    present
  rw [HobbyOS.vmmMapPage]
  simp only [test, ↓reduceIte, HobbyOS.writePage,
    modifyWord_modifyWord_self]
  rw [modifyWord, pageEntry_of_hasTable present]
  rfl

/-- Mapping a page whose entry was written before overwrites the entry. -/
theorem vmmMapPage_writeEntry
    (structures : PageStructures paging)
    (present : paging.HasTable vaddr)
    (word : BitVec 32)
    (pmm : Pmm)
    (paddr : PtrT) :
    HobbyOS.vmmMapPage
        { paging with
          memory := writeWord paging.memory (vmmGetPage paging vaddr) word
          pmm := pmm }
        paddr vaddr =
      (true,
        { paging with
          memory :=
            writeWord paging.memory (vmmGetPage paging vaddr)
              (mappedEntry paddr word)
          pmm := pmm }) := by
  obtain ⟨_, directory, entries⟩ := structures.writeEntry present word
  generalize middleSame :
    ({ paging with
        memory := writeWord paging.memory (vmmGetPage paging vaddr) word
        pmm := pmm } : Paging) = middle
  have entry : middle.directoryEntry vaddr = paging.directoryEntry vaddr := by
    rw [← middleSame]
    exact directory vaddr
  have hasTable : middle.HasTable vaddr := by
    rw [Paging.HasTable, entry]
    exact present
  have page : vmmGetPage middle vaddr = vmmGetPage paging vaddr := by
    rw [vmmGetPage_eq, vmmGetPage_eq, Paging.tableOf, Paging.tableOf, entry]
  have value : middle.pageEntry vaddr = word := by
    have written := entries vaddr
    rw [if_pos rfl] at written
    rw [← middleSame]
    exact written
  rw [vmmMapPage_of_hasTable hasTable, page, value, ← middleSame]
  simp only [writeWord_writeWord_self]

/-- A page that `vmm_malloc_init` requests under an existing table. -/
theorem mallocInitPageCall_of_hasTable
    (structures : PageStructures paging)
    (present : paging.HasTable vaddr) :
    mallocInitPageCall paging vaddr =
      (true,
        { paging with
          memory :=
            writeWord paging.memory (vmmGetPage paging vaddr)
              (requestedEntry (pmmAllocateBlocks paging.pmm 1).1
                (paging.pageEntry vaddr))
          pmm := paging.pmm.afterOne }) := by
  unfold mallocInitPageCall Pmm.afterOne
  generalize allocation : pmmAllocateBlocks paging.pmm 1 = result
  obtain ⟨block, pmm⟩ := result
  have entry : paging.pageEntry vaddr =
      readWord paging.memory (vmmGetPage paging vaddr) :=
    pageEntry_of_hasTable present
  by_cases refused : block = 0
  · simp only [vmmAllocatePage_eq allocation, if_pos refused, modifyWord]
    rw [structures.vmmMapPage_writeEntry present,
      mappedEntry_setReadWrite, ← entry]
  · simp only [vmmAllocatePage_eq allocation, if_neg refused, modifyWord,
      readWord_writeWord_self, writeWord_writeWord_self]
    rw [structures.vmmMapPage_writeEntry present,
      mappedEntry_setReadWrite, requestedEntry, requestedEntry,
      mappedEntry_allocatedEntry, ← entry]

/-- A page that `vmm_malloc_next_block` requests under an existing table. -/
theorem mallocGrowPageCall_of_hasTable
    (structures : PageStructures paging)
    (present : paging.HasTable vaddr) :
    mallocGrowPageCall paging vaddr =
      (true,
        { paging with
          memory :=
            writeWord paging.memory (vmmGetPage paging vaddr)
              (requestedEntry (pmmAllocateBlocks paging.pmm 1).1
                (paging.pageEntry vaddr))
          pmm := paging.pmm.afterOne }) := by
  unfold mallocGrowPageCall Pmm.afterOne
  generalize allocation : pmmAllocateBlocks paging.pmm 1 = result
  obtain ⟨block, pmm⟩ := result
  have entry : paging.pageEntry vaddr =
      readWord paging.memory (vmmGetPage paging vaddr) :=
    pageEntry_of_hasTable present
  by_cases refused : block = 0
  · have middle : Paging.HasTable { paging with pmm := pmm } vaddr :=
      present
    have mapped :
        HobbyOS.vmmMapPage { paging with pmm := pmm } block vaddr =
          (true,
            { paging with
              memory :=
                writeWord paging.memory (vmmGetPage paging vaddr)
                  (mappedEntry block (paging.pageEntry vaddr))
              pmm := pmm }) :=
      vmmMapPage_of_hasTable middle block
    simp only [vmmAllocatePage_eq allocation, if_pos refused]
    rw [mapped]
    simp only [modifyWord, readWord_writeWord_self,
      writeWord_writeWord_self]
    rfl
  · simp only [vmmAllocatePage_eq allocation, if_neg refused]
    rw [structures.vmmMapPage_writeEntry present, mappedEntry_allocatedEntry,
      entry]
    simp only [modifyWord, readWord_writeWord_self,
      writeWord_writeWord_self]
    rfl

/-! ## Under an absent directory entry -/

/-- Without a table the entry's address is in page 0. -/
theorem modifyWord_nullPage
    (structures : PageStructures paging)
    (missing : ¬paging.HasTable vaddr)
    (memory : Memory)
    (update : BitVec 32 → BitVec 32) :
    AgreeOutside 0 4096 memory
      (modifyWord memory (vmmGetPage paging vaddr) update) := by
  have zero : PageAligned (0 : PtrT) := by
    simp [PageAligned, vmmPagePhysicalAddress]
  have index := vmmPtIndex_lt vaddr
  have room := entryAddress_room zero index
  have null : (0 : PtrT).toNat = 0 := rfl
  rw [vmmGetPage_eq, structures.tableOf_of_not_hasTable missing]
  exact (writeWord_agreeOutside memory _ (by omega)).mono
    (Nat.zero_le _) (by omega)

/-- A page is mapped after writes to page 0 only, and before more of these. -/
structure MapsAmongNullWrites
    (paging : Paging)
    (vaddr : AddrT)
    (middle : Paging)
    (result : Bool × Paging) :
    Prop where
  directory : middle.vmmCurrentDirectory = paging.vmmCurrentDirectory
  pmm : middle.pmm = paging.pmm.afterOne
  before : AgreeOutside 0 4096 paging.memory middle.memory
  mapped :
    result.1 =
      (HobbyOS.vmmMapPage middle (pmmAllocateBlocks paging.pmm 1).1
        vaddr).1
  after :
    ∃ memory,
      AgreeOutside 0 4096
          (HobbyOS.vmmMapPage middle (pmmAllocateBlocks paging.pmm 1).1
            vaddr).2.memory
          memory ∧
        result.2 =
          { (HobbyOS.vmmMapPage middle
              (pmmAllocateBlocks paging.pmm 1).1 vaddr).2 with
            memory := memory }

/-- A page without a table is requested with writes to page 0 around. -/
theorem requestResult_of_not_hasTable
    (structures : PageStructures paging)
    (missing : ¬paging.HasTable vaddr)
    (below : paging.pmm.afterOne.FindsBelow4GiB 1)
    (middle : Paging)
    {result : Bool × Paging}
    (request : MapsAmongNullWrites paging vaddr middle result) :
    RequestResult paging vaddr result := by
  obtain ⟨directory, pmm, agree, mapped, memory, outside, same⟩ := request
  obtain ⟨middleStructures, middleDirectory, middleEntries⟩ :=
    structures.of_nullPage directory agree
      (by rw [pmm]; exact fun _ held => Pmm.reserved_afterOne held)
  have sameTable
      (other : AddrT) :
      middle.HasTable other ↔ paging.HasTable other := by
    rw [Paging.HasTable, Paging.HasTable, middleDirectory]
  have middleMissing : ¬middle.HasTable vaddr :=
    fun held => missing ((sameTable vaddr).mp held)
  have maps :
      MapsPage middle (pmmAllocateBlocks paging.pmm 1).1 vaddr
        (HobbyOS.vmmMapPage middle (pmmAllocateBlocks paging.pmm 1).1
          vaddr) :=
    middleStructures.vmmMapPage fun _ => by rw [pmm]; exact below
  obtain ⟨flag, later⟩ := result
  dsimp only at mapped same
  subst mapped same
  generalize
    HobbyOS.vmmMapPage middle (pmmAllocateBlocks paging.pmm 1).1 vaddr =
      result at maps outside
  cases maps with
  | exhausted _ refused =>
      rw [pmm] at refused
      obtain ⟨laterStructures, laterDirectory, laterEntries⟩ :=
        middleStructures.of_nullPage
          (show ({ middle with memory := memory } : Paging
            ).vmmCurrentDirectory = _ from rfl) outside (fun _ held => held)
      have unchanged : paging.pmm.afterOne.afterOne = paging.pmm.afterOne :=
        below.afterOne_of_refused fun granted => granted refused
      have impossible :
          ¬(paging.HasTable vaddr ∨ paging.pmm.afterOne.Grants) := by
        rintro (held | granted)
        · exact missing held
        · exact granted refused
      refine ⟨⟨laterStructures, ?_, fun possible => ?_,
        fun possible => ?_⟩, ?_, fun _ other => ⟨?_, ?_⟩⟩
      · rw [if_neg missing, unchanged]
        exact pmm
      · exact (impossible possible).elim
      · exact (impossible possible).elim
      · exact iff_of_false Bool.false_ne_true impossible
      · rw [Paging.HasTable, laterDirectory]
        exact sameTable other
      · exact (laterEntries other).trans (middleEntries other)
  | @mapped result possible mappedStructures mappedPmm _ mappedTable
      mappedEntries =>
      obtain ⟨laterStructures, laterDirectory, laterEntries⟩ :=
        mappedStructures.of_nullPage
          (show ({ result with memory := memory } : Paging
            ).vmmCurrentDirectory = _ from rfl) outside (fun _ held => held)
      have granted : paging.pmm.afterOne.Grants := by
        have block := possible.resolve_left middleMissing
        rwa [pmm] at block
      refine ⟨⟨laterStructures, ?_, fun _ other => ?_, fun _ other => ?_⟩,
        iff_of_true rfl (Or.inr granted),
        fun refused => Bool.noConfusion refused⟩
      · show result.pmm = _
        rw [if_neg missing, mappedPmm, if_neg middleMissing, pmm]
        rfl
      · rw [Paging.HasTable, laterDirectory]
        exact (mappedTable other).trans (or_congr_left (sameTable other))
      · rw [if_neg missing, laterEntries, mappedEntries, middleEntries,
          middleEntries, pageEntry_of_not_hasTable missing]

/-- Without a table, `vmm_allocate_page` writes to page 0. -/
theorem vmmAllocatePage_nullPage
    (structures : PageStructures paging)
    (missing : ¬paging.HasTable vaddr) :
    let result := vmmAllocatePage paging (vmmGetPage paging vaddr)
    result.1 = (pmmAllocateBlocks paging.pmm 1).1 ∧
      result.2.vmmCurrentDirectory = paging.vmmCurrentDirectory ∧
      result.2.pmm = paging.pmm.afterOne ∧
      AgreeOutside 0 4096 paging.memory result.2.memory := by
  intro result
  have allocation :
      pmmAllocateBlocks paging.pmm 1 =
        ((pmmAllocateBlocks paging.pmm 1).1, paging.pmm.afterOne) :=
    rfl
  have shape := vmmAllocatePage_eq allocation (vmmGetPage paging vaddr)
  refine ⟨?_, ?_, ?_, ?_⟩
  · exact congrArg Prod.fst shape
  · exact congrArg (fun pair => pair.2.vmmCurrentDirectory) shape
  · exact congrArg (fun pair => pair.2.pmm) shape
  · have memory := congrArg (fun pair => pair.2.memory) shape
    dsimp only at memory
    rw [show result.2.memory = _ from memory]
    split
    · exact AgreeOutside.refl _ _ _
    · exact structures.modifyWord_nullPage missing paging.memory
        (allocatedEntry (pmmAllocateBlocks paging.pmm 1).1)

/-- A page with a table is requested by writing its entry. -/
theorem requestResult_of_hasTable
    (structures : PageStructures paging)
    (present : paging.HasTable vaddr)
    {result : Bool × Paging}
    (written :
      result =
        (true,
          { paging with
            memory :=
              writeWord paging.memory (vmmGetPage paging vaddr)
                (requestedEntry (pmmAllocateBlocks paging.pmm 1).1
                  (paging.pageEntry vaddr))
            pmm := paging.pmm.afterOne })) :
    RequestResult paging vaddr result := by
  rw [written]
  exact ⟨structures.pageRequest_of_hasTable present rfl,
    iff_of_true rfl (Or.inl present),
    fun refused => Bool.noConfusion refused⟩

/-- A page that `vmm_malloc_init` requests. -/
theorem mallocInitPageCall
    (structures : PageStructures paging)
    (below :
      ¬paging.HasTable vaddr → paging.pmm.afterOne.FindsBelow4GiB 1) :
    RequestResult paging vaddr
      (HobbyOS.mallocInitPageCall paging vaddr) := by
  by_cases present : paging.HasTable vaddr
  · exact structures.requestResult_of_hasTable present
      (structures.mallocInitPageCall_of_hasTable present)
  · obtain ⟨block, directory, pmm, agree⟩ :=
      structures.vmmAllocatePage_nullPage present
    have writes :=
      structures.modifyWord_nullPage present
        (vmmAllocatePage paging (vmmGetPage paging vaddr)).2.memory
        (vmmSetAttribute pteReadWrite)
    refine structures.requestResult_of_not_hasTable present (below present)
      { (vmmAllocatePage paging (vmmGetPage paging vaddr)).2 with
        memory :=
          modifyWord
            (vmmAllocatePage paging (vmmGetPage paging vaddr)).2.memory
            (vmmGetPage paging vaddr) (vmmSetAttribute pteReadWrite) }
      ⟨directory, pmm, agree.trans writes, ?_, _, AgreeOutside.refl _ _ _,
        ?_⟩
    · rw [HobbyOS.mallocInitPageCall, ← block]
    · rw [HobbyOS.mallocInitPageCall, ← block]

/-- A page that `vmm_malloc_next_block` requests. -/
theorem mallocGrowPageCall
    (structures : PageStructures paging)
    (below :
      ¬paging.HasTable vaddr → paging.pmm.afterOne.FindsBelow4GiB 1) :
    RequestResult paging vaddr
      (HobbyOS.mallocGrowPageCall paging vaddr) := by
  by_cases present : paging.HasTable vaddr
  · exact structures.requestResult_of_hasTable present
      (structures.mallocGrowPageCall_of_hasTable present)
  · obtain ⟨block, directory, pmm, agree⟩ :=
      structures.vmmAllocatePage_nullPage present
    refine structures.requestResult_of_not_hasTable present (below present)
      (vmmAllocatePage paging (vmmGetPage paging vaddr)).2
      ⟨directory, pmm, agree, ?_, _,
        structures.modifyWord_nullPage present _
          (vmmSetAttribute pteReadWrite), ?_⟩
    · rw [HobbyOS.mallocGrowPageCall, ← block]
    · rw [HobbyOS.mallocGrowPageCall, ← block]

end PageStructures

end HobbyOS
