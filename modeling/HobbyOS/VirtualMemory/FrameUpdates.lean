import HobbyOS.Library.TransitionSystem
import HobbyOS.VirtualMemory.FrameOwnership

namespace HobbyOS

open Library

/-!
# Frame updates of one entry

`vmm_map_page`, `vmm_unmap_page` and `vmm_allocate_page` put frames into an
entry with `VMM_SET_FRAME`, which clears bits 12 to 30 only.  The frame field
is the address that was set last unless bit 31 of an earlier frame was left
behind.  The attribute bits are changed by the attribute operations only.
-/

/-- What one call does to an entry. -/
inductive FrameUpdate where
  | map : PtrT → FrameUpdate
  | create : PtrT → FrameUpdate
  | allocate : PtrT → FrameUpdate
  | unmap : FrameUpdate
  | elsewhere : FrameUpdate

namespace FrameUpdate

/-- The address that was set last, after an update. -/
def frame : PtrT → FrameUpdate → PtrT
  | _, .map physicalAddress => physicalAddress
  | _, .create physicalAddress => physicalAddress
  | _, .allocate block => block
  | _, .unmap => 0
  | last, .elsewhere => last

/-- The attribute bits after an update. -/
def attributes : BitVec 32 → FrameUpdate → BitVec 32
  | bits, .map _ => vmmSetAttribute ptePresent bits
  | _, .create _ => ptePresent
  | bits, .allocate _ => vmmSetAttribute ptePresent bits
  | bits, .unmap => vmmClearAttribute ptePresent bits
  | bits, .elsewhere => bits

/-- A frame at or above 2 GiB has been set since the entry was cleared. -/
def HadHighFrame : Prop → FrameUpdate → Prop
  | high, .map physicalAddress => high ∨ 2 ^ 31 ≤ physicalAddress.toNat
  | _, .create physicalAddress => 2 ^ 31 ≤ physicalAddress.toNat
  | high, .allocate block => high ∨ 2 ^ 31 ≤ block.toNat
  | high, .unmap => high
  | high, .elsewhere => high

/-- The address that a sequence of updates has set last. -/
def lastFrame (initial : PtrT) (updates : List FrameUpdate) : PtrT :=
  updates.foldl frame initial

/-- The attribute bits that the attribute operations leave. -/
def lastAttributes (initial : BitVec 32) (updates : List FrameUpdate) :
    BitVec 32 :=
  updates.foldl attributes initial

/-- A frame at or above 2 GiB has been in the entry since it was cleared. -/
def KeptHighFrame (initial : Prop) (updates : List FrameUpdate) : Prop :=
  updates.foldl HadHighFrame initial

end FrameUpdate

/--
The calls that put a frame into the entry at `page`.  A call that creates the
page table finds the entry cleared; any other activity leaves it alone.
-/
inductive FrameUpdateStep (page : PtrT) :
    FrameUpdate → Paging → Paging → Prop where
  | map
      {paging : Paging}
      {physicalAddress virtualAddress : PtrT}
      (aligned : PageAligned physicalAddress)
      (present : paging.HasTable virtualAddress)
      (target : vmmGetPage paging virtualAddress = page) :
      FrameUpdateStep page (.map physicalAddress) paging
        (vmmMapPage paging physicalAddress virtualAddress).2
  | create
      {paging ready : Paging}
      {physicalAddress virtualAddress : PtrT}
      (aligned : PageAligned physicalAddress)
      (missing : ¬paging.HasTable virtualAddress)
      (created :
        createTable paging (paging.directoryEntryAddress virtualAddress) =
          (true, ready))
      (target : vmmGetPage ready virtualAddress = page)
      (cleared : readWord ready.memory page = 0) :
      FrameUpdateStep page (.create physicalAddress) paging
        (vmmMapPage paging physicalAddress virtualAddress).2
  | allocate
      {paging : Paging}
      (granted : (pmmAllocateBlocks paging.pmm 1).1 ≠ 0) :
      FrameUpdateStep page (.allocate (pmmAllocateBlocks paging.pmm 1).1)
        paging (vmmAllocatePage paging page).2
  | unmap
      {paging : Paging}
      {vaddr : PtrT}
      (target : vmmGetPage paging vaddr = page) :
      FrameUpdateStep page .unmap paging (vmmUnmapPage paging vaddr)
  | elsewhere
      {paging later : Paging}
      (unchanged :
        readWord later.memory page = readWord paging.memory page) :
      FrameUpdateStep page .elsewhere paging later

/-! ## The words of an entry -/

/-- The low bits of an aligned address are clear. -/
theorem PageAligned.and_low
    {address : BitVec 32}
    (aligned : PageAligned address) :
    address &&& 0xFFF#32 = 0#32 := by
  have masks : ~~~0xFFF#32 &&& 0xFFF#32 = 0#32 := by decide
  rw [← aligned, vmmPagePhysicalAddress, BitVec.and_assoc, masks]
  exact BitVec.and_zero

/-- The highest bit of an address says whether it is at or above 2 GiB. -/
theorem getLsbD_31_iff (word : BitVec 32) :
    word.getLsbD 31 = true ↔ 2 ^ 31 ≤ word.toNat := by
  have bit := BitVec.msb_eq_decide word
  rw [BitVec.msb_eq_getLsbD_last] at bit
  rw [bit, decide_eq_true_iff]

/-- What an entry word says after some updates. -/
structure EntryTracks
    (last attributes : BitVec 32)
    (high : Prop)
    (word : BitVec 32) :
    Prop where
  frame :
    vmmPagePhysicalAddress word = (word &&& 0x80000000#32) ||| last
  attributes : word &&& 0xFFF#32 = attributes
  high : 2 ^ 31 ≤ word.toNat ↔ high

namespace EntryTracks

variable
  {last attributes word : BitVec 32}
  {high : Prop}

/-- Every word tracks its own fields. -/
theorem initial (word : BitVec 32) :
    EntryTracks (vmmPagePhysicalAddress word) (word &&& 0xFFF#32)
      (2 ^ 31 ≤ word.toNat) word := by
  refine ⟨?_, rfl, Iff.rfl⟩
  have masks : 0x80000000#32 ||| ~~~0xFFF#32 = ~~~0xFFF#32 := by decide
  rw [vmmPagePhysicalAddress, ← BitVec.and_or_distrib_left, masks]

/-- Setting an aligned frame. -/
theorem setFrame
    (tracks : EntryTracks last attributes high word)
    {address : BitVec 32}
    (aligned : PageAligned address) :
    EntryTracks address attributes (high ∨ 2 ^ 31 ≤ address.toNat)
      (vmmSetFrame address word) := by
  refine ⟨?_, ?_, ?_⟩
  · have masks : ~~~0x7FFFF000#32 &&& 0x80000000#32 = 0x80000000#32 := by
      decide
    have absorbed : address &&& 0x80000000#32 ||| address = address := by
      apply BitVec.eq_of_getLsbD_eq
      intro bit _
      rw [BitVec.getLsbD_or, BitVec.getLsbD_and]
      cases address.getLsbD bit <;> simp
    rw [vmmPagePhysicalAddress_vmmSetFrame, aligned, vmmSetFrame,
      BitVec.and_or_distrib_right, BitVec.and_assoc, masks,
      BitVec.or_assoc, absorbed]
  · have masks : ~~~0x7FFFF000#32 &&& 0xFFF#32 = 0xFFF#32 := by decide
    rw [vmmSetFrame, BitVec.and_or_distrib_right, aligned.and_low,
      BitVec.and_assoc, masks, BitVec.or_zero]
    exact tracks.attributes
  · have kept : (~~~0x7FFFF000#32).getLsbD 31 = true := by decide
    rw [← tracks.high, ← getLsbD_31_iff, ← getLsbD_31_iff,
      ← getLsbD_31_iff, vmmSetFrame, BitVec.getLsbD_or,
      BitVec.getLsbD_and, kept, Bool.and_true, Bool.or_eq_true]

/-- Setting the present bit. -/
theorem setPresent
    (tracks : EntryTracks last attributes high word) :
    EntryTracks last (vmmSetAttribute ptePresent attributes) high
      (vmmSetAttribute ptePresent word) := by
  refine ⟨?_, ?_, ?_⟩
  · have frameMask : ptePresent &&& ~~~0xFFF#32 = 0#32 := by decide
    have highMask : ptePresent &&& 0x80000000#32 = 0#32 := by decide
    rw [vmmPagePhysicalAddress, vmmSetAttribute,
      BitVec.and_or_distrib_right, BitVec.and_or_distrib_right, frameMask,
      highMask, BitVec.or_zero, BitVec.or_zero]
    exact tracks.frame
  · have masks : ptePresent &&& 0xFFF#32 = ptePresent := by decide
    rw [vmmSetAttribute, BitVec.and_or_distrib_right, masks,
      tracks.attributes]
    rfl
  · have bit : ptePresent.getLsbD 31 = false := by decide
    rw [← tracks.high, ← getLsbD_31_iff, ← getLsbD_31_iff,
      vmmSetAttribute, BitVec.getLsbD_or, bit, Bool.or_false]

/-- Clearing the present bit. -/
theorem clearPresent
    (tracks : EntryTracks last attributes high word) :
    EntryTracks last (vmmClearAttribute ptePresent attributes) high
      (vmmClearAttribute ptePresent word) := by
  refine ⟨?_, ?_, ?_⟩
  · have frameMask : ~~~ptePresent &&& ~~~0xFFF#32 = ~~~0xFFF#32 := by
      decide
    have highMask : ~~~ptePresent &&& 0x80000000#32 = 0x80000000#32 := by
      decide
    rw [vmmPagePhysicalAddress, vmmClearAttribute, BitVec.and_assoc,
      BitVec.and_assoc, frameMask, highMask]
    exact tracks.frame
  · rw [vmmClearAttribute, BitVec.and_assoc,
      BitVec.and_comm (~~~ptePresent), ← BitVec.and_assoc,
      tracks.attributes]
    rfl
  · have bit : (~~~ptePresent).getLsbD 31 = true := by decide
    rw [← tracks.high, ← getLsbD_31_iff, ← getLsbD_31_iff,
      vmmClearAttribute, BitVec.getLsbD_and, bit, Bool.and_true]

/-- The frame field is the last frame unless a high bit was left behind. -/
theorem frame_iff
    (tracks : EntryTracks last attributes high word) :
    vmmPagePhysicalAddress word = last ↔
      (high → 2 ^ 31 ≤ last.toNat) := by
  rw [tracks.frame, ← tracks.high, ← getLsbD_31_iff, ← getLsbD_31_iff]
  constructor
  · intro same left
    rw [← same, BitVec.getLsbD_or, BitVec.getLsbD_and, left]
    rfl
  · intro agrees
    apply BitVec.eq_of_getLsbD_eq
    intro bit bound
    have mask :
        ∀ bit : Fin 32,
          (0x80000000#32).getLsbD bit.val = decide (bit.val = 31) := by
      decide
    have maskBit := mask ⟨bit, bound⟩
    dsimp only at maskBit
    rw [BitVec.getLsbD_or, BitVec.getLsbD_and, maskBit]
    by_cases isHigh : bit = 31
    · subst isHigh
      cases left : word.getLsbD 31 with
      | true =>
          rw [agrees left]
          rfl
      | false =>
          rw [Bool.false_and, Bool.false_or]
    · rw [decide_eq_false isHigh, Bool.and_false, Bool.false_or]

end EntryTracks

/-! ## Calls on an entry -/

/-- The word that an update gives an entry. -/
def FrameUpdate.word : FrameUpdate → BitVec 32 → BitVec 32
  | .map physicalAddress, entry => mappedEntry physicalAddress entry
  | .create physicalAddress, _ => mappedEntry physicalAddress 0
  | .allocate block, entry => allocatedEntry block entry
  | .unmap, entry => unmappedEntry entry
  | .elsewhere, entry => entry

/-- The frames that updates set are page aligned. -/
def FrameUpdate.Aligned : FrameUpdate → Prop
  | .map physicalAddress => PageAligned physicalAddress
  | .create physicalAddress => PageAligned physicalAddress
  | .allocate block => PageAligned block
  | .unmap => True
  | .elsewhere => True

/-- Updates of the word keep what it says up to date. -/
theorem EntryTracks.update
    {last attributes word : BitVec 32}
    {high : Prop}
    (tracks : EntryTracks last attributes high word)
    {update : FrameUpdate}
    (aligned : update.Aligned) :
    EntryTracks (update.frame last) (update.attributes attributes)
      (update.HadHighFrame high) (update.word word) := by
  cases update with
  | map physicalAddress =>
      exact tracks.setPresent.setFrame aligned
  | create physicalAddress =>
      have zero := (EntryTracks.initial 0).setPresent.setFrame aligned
      exact ⟨zero.frame, zero.attributes,
        zero.high.trans ⟨fun high => high.resolve_left (by decide),
          Or.inr⟩⟩
  | allocate block =>
      exact (tracks.setFrame aligned).setPresent
  | unmap =>
      have zero : PageAligned 0 := BitVec.zero_and
      have cleared := (tracks.setFrame zero).clearPresent
      exact ⟨cleared.frame, cleared.attributes,
        cleared.high.trans ⟨fun high => high.resolve_right (by decide),
          Or.inl⟩⟩
  | elsewhere =>
      exact tracks

/-- The end of `vmm_map_page` gives the page's entry its word. -/
theorem readWord_writePage
    (paging : Paging)
    (physicalAddress virtualAddress : PtrT) :
    readWord (writePage paging physicalAddress virtualAddress).memory
        (vmmGetPage paging virtualAddress) =
      mappedEntry physicalAddress
        (readWord paging.memory (vmmGetPage paging virtualAddress)) := by
  simp only [writePage, modifyWord_modifyWord_self]
  exact readWord_writeWord_self _ _ _

/-- Pointers to blocks are page aligned. -/
theorem pageAligned_pmmAllocateBlocks
    (pmm : Pmm)
    (size : SizeT) :
    PageAligned (pmmAllocateBlocks pmm size).1 := by
  have product (start : AddrT) : PageAligned (start * 4096) := by
    have pageSize : (4096 : BitVec 32).toNat = 4096 := rfl
    rw [pageAligned_iff, BitVec.toNat_mul, pageSize]
    omega
  unfold pmmAllocateBlocks
  split
  · exact BitVec.zero_and
  · dsimp only
    split
    · exact BitVec.zero_and
    · exact product _

/-- Every call gives the entry the word of its update. -/
theorem FrameUpdateStep.word_eq
    {page : PtrT}
    {update : FrameUpdate}
    {before after : Paging}
    (step : FrameUpdateStep page update before after) :
    update.Aligned ∧
      readWord after.memory page =
        update.word (readWord before.memory page) := by
  cases step with
  | @map _ physicalAddress virtualAddress aligned present target =>
      refine ⟨aligned, ?_⟩
      rw [← target, vmmMapPage_of_hasTable present]
      exact readWord_writePage before physicalAddress virtualAddress
  | @create _ ready physicalAddress virtualAddress aligned missing created
      target cleared =>
      refine ⟨aligned, ?_⟩
      have written :=
        readWord_writePage ready physicalAddress virtualAddress
      rw [target, cleared] at written
      rw [vmmMapPage_of_not_hasTable missing, created]
      exact written
  | allocate granted =>
      refine ⟨pageAligned_pmmAllocateBlocks before.pmm 1, ?_⟩
      generalize allocation : pmmAllocateBlocks before.pmm 1 = result
        at granted
      obtain ⟨block, pmm⟩ := result
      rw [vmmAllocatePage_eq allocation]
      simp only [granted, ↓reduceIte]
      exact readWord_writeWord_self _ _ _
  | @unmap _ vaddr target =>
      refine ⟨trivial, ?_⟩
      rw [← target, vmmUnmapPage]
      simp only [modifyWord_modifyWord_self]
      exact readWord_writeWord_self _ _ _
  | elsewhere unchanged =>
      exact ⟨trivial, unchanged⟩

/-- A table that is created starts with cleared entries. -/
theorem PageStructures.createTable_cleared
    {paging ready : Paging}
    (structures : PageStructures paging)
    (below : paging.pmm.FindsBelow4GiB 1)
    {virtualAddress : PtrT}
    (missing : ¬paging.HasTable virtualAddress)
    (created :
      HobbyOS.createTable paging
          (paging.directoryEntryAddress virtualAddress) =
        (true, ready)) :
    readWord ready.memory (vmmGetPage ready virtualAddress) = 0 := by
  have creates := structures.createTable below missing
  rw [created] at creates
  cases creates with
  | created _ _ _ _ hasTable _ entries =>
      have present := (hasTable virtualAddress).mpr (Or.inr rfl)
      have entry := entries virtualAddress
      rw [pageEntry_of_hasTable present,
        pageEntry_of_not_hasTable missing] at entry
      exact entry

/-- The entry has the frame and the attributes that were set last. -/
structure FrameExact
    (page : PtrT)
    (start : Paging)
    (updates : List FrameUpdate)
    (final : Paging) :
    Prop where
  frame :
    final.entryFrame page =
      FrameUpdate.lastFrame (start.entryFrame page) updates
  attributes :
    readWord final.memory page &&& 0xFFF#32 =
      FrameUpdate.lastAttributes
        (readWord start.memory page &&& 0xFFF#32) updates

/-- Every sequence of updates keeps what the entry says up to date. -/
theorem frameRun_tracks
    {page : PtrT}
    {start final : Paging}
    {updates : List FrameUpdate}
    (run : Run (FrameUpdateStep page) start updates final) :
    EntryTracks
      (FrameUpdate.lastFrame (start.entryFrame page) updates)
      (FrameUpdate.lastAttributes
        (readWord start.memory page &&& 0xFFF#32) updates)
      (FrameUpdate.KeptHighFrame
        (2 ^ 31 ≤ (readWord start.memory page).toNat) updates)
      (readWord final.memory page) := by
  induction run with
  | nil =>
      exact EntryTracks.initial _
  | snoc _ step inductionHypothesis =>
      obtain ⟨aligned, word⟩ := step.word_eq
      rw [word, FrameUpdate.lastFrame, FrameUpdate.lastAttributes,
        FrameUpdate.KeptHighFrame, List.foldl_append, List.foldl_append,
        List.foldl_append]
      exact inductionHypothesis.update aligned

/--
After any sequence of updates the entry has the frame that was set last and
the attributes of the attribute operations, exactly when that frame is at or
above 2 GiB or no such frame has been in the entry since it was cleared.
-/
theorem frameRun_exact_iff
    {page : PtrT}
    {start final : Paging}
    {updates : List FrameUpdate}
    (run : Run (FrameUpdateStep page) start updates final) :
    FrameExact page start updates final ↔
      (FrameUpdate.KeptHighFrame
          (2 ^ 31 ≤ (readWord start.memory page).toNat) updates →
        2 ^ 31 ≤
          (FrameUpdate.lastFrame (start.entryFrame page)
            updates).toNat) := by
  have tracks := frameRun_tracks run
  rw [← tracks.frame_iff]
  exact ⟨fun accurate => accurate.frame,
    fun frame => ⟨frame, tracks.attributes⟩⟩

/-- A directory at 0x1000 whose first table is at 0x2000. -/
def oneTablePaging : Paging where
  memory := writeWord (fun _ => 0) 0x1000 0x2003
  pmm := sixteenBlocks
  vmmCurrentDirectory := 0x1000

/-- A page that is mapped to a frame and then unmapped. -/
theorem frameRun_mapUnmap
    {physicalAddress : PtrT}
    (aligned : PageAligned physicalAddress) :
    ∃ final,
      Run (FrameUpdateStep 0x2000) oneTablePaging
        [.map physicalAddress, .unmap] final := by
  have present : oneTablePaging.HasTable 0 := by decide
  have target : vmmGetPage oneTablePaging 0 = 0x2000 := by decide
  have later :
      vmmGetPage (vmmMapPage oneTablePaging physicalAddress 0).2 0 =
        0x2000 := by
    rw [vmmMapPage_of_hasTable present, writePage, target,
      modifyWord_modifyWord_self]
    have directory :
        oneTablePaging.directoryEntryAddress 0 = 0x1000 := by
      decide
    have outside :=
      writeWord_agreeOutside oneTablePaging.memory
        (mappedEntry physicalAddress
          (readWord oneTablePaging.memory 0x2000))
        (show (0x2000 : PtrT).toNat + 4 ≤ 2 ^ 32 by decide)
    have same :=
      readWord_of_agreeOutside outside
        (show (0x1000 : PtrT).toNat + 4 ≤ 2 ^ 32 by decide)
        (Or.inl (by decide))
    rw [← target, vmmGetPage, vmmGetPage]
    exact congrArg
      (fun entry =>
        entryAddress (vmmPagePhysicalAddress entry) (vmmPtIndex 0))
      same
  exact ⟨_, (Run.nil.snoc (.map aligned present target)).snoc
    (.unmap later)⟩

/-- A page of low memory is unmapped without a trace. -/
theorem frameRun_exact_iff_low :
    ∃ final,
      FrameExact 0x2000 oneTablePaging [.map 0x3000, .unmap] final := by
  obtain ⟨final, run⟩ :=
    @frameRun_mapUnmap 0x3000 ((pageAligned_iff _).mpr (by decide))
  exact ⟨final,
    (frameRun_exact_iff run).mpr fun high =>
      absurd high (by
        simp only [FrameUpdate.KeptHighFrame, List.foldl_cons,
          List.foldl_nil, FrameUpdate.HadHighFrame]
        decide)⟩

/-- Unmapping a page of device memory at 2 GiB leaves bit 31 in the entry. -/
theorem frameRun_exact_fails :
    ¬∀ (page : PtrT) (start final : Paging) (updates : List FrameUpdate),
        Run (FrameUpdateStep page) start updates final →
        FrameExact page start updates final := by
  intro accurate
  obtain ⟨final, run⟩ :=
    @frameRun_mapUnmap 0x80000000 ((pageAligned_iff _).mpr (by decide))
  have tracks := frameRun_tracks run
  have frame := (accurate _ _ _ _ run).frame
  have agrees := tracks.frame_iff.mp frame
  have high :
      FrameUpdate.KeptHighFrame
        (2 ^ 31 ≤ (readWord oneTablePaging.memory 0x2000).toNat)
        [.map 0x80000000, .unmap] := by
    simp only [FrameUpdate.KeptHighFrame, List.foldl_cons, List.foldl_nil,
      FrameUpdate.HadHighFrame]
    exact Or.inr (by decide)
  exact absurd (agrees high) (by decide)

end HobbyOS
