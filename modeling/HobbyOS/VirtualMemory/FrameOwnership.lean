import Mathlib.Data.Set.Basic
import HobbyOS.VirtualMemory.AddressSpace

namespace HobbyOS

open Library

/-!
# Owners of page frames

`vmm_allocate_page` gives an entry a fresh frame and `vmm_free_page` returns
the frame of an entry.  The latter goes by the frame bits, which it leaves in
place, so freeing an entry a second time returns a frame that may belong to
another entry by then.  Frames have one owner in the histories that avoid
this, and in which no bit of an old frame survives under the new one.
-/

/-- The entry at an address is present. -/
def Paging.EntryPresent (paging : Paging) (page : PtrT) : Prop :=
  vmmTestAttribute ptePresent (readWord paging.memory page) = true

instance (paging : Paging) (page : PtrT) :
    Decidable (paging.EntryPresent page) :=
  inferInstanceAs (Decidable (_ = true))

/-- The frame in the entry at an address. -/
def Paging.entryFrame (paging : Paging) (page : PtrT) : PtrT :=
  vmmPagePhysicalAddress (readWord paging.memory page)

/-- Present entries hold distinct frames, all of them marked used. -/
structure FramesOwned (entries : Set PtrT) (paging : Paging) : Prop where
  exclusive :
    ∀ first ∈ entries,
      ∀ second ∈ entries,
        paging.EntryPresent first →
        paging.EntryPresent second →
        paging.entryFrame first = paging.entryFrame second →
        first = second
  used :
    ∀ page ∈ entries,
      paging.EntryPresent page →
      paging.pmm.Reserved ((paging.entryFrame page).toNat / 4096)

/-- Entries are words, aligned to their size. -/
def WordAligned (entries : Set PtrT) : Prop :=
  ∀ page ∈ entries, page.toNat % 4 = 0

/-- The calls on entries. -/
inductive FrameCall where
  | allocate : PtrT → FrameCall
  | free : PtrT → FrameCall

/-- Calls on the entries of a set. -/
inductive FrameStep (entries : Set PtrT) :
    FrameCall → Paging → Paging → Prop where
  | allocate
      {page : PtrT}
      {paging : Paging}
      (member : page ∈ entries) :
      FrameStep entries (.allocate page) paging
        (vmmAllocatePage paging page).2
  | free
      {page : PtrT}
      {paging : Paging}
      (member : page ∈ entries) :
      FrameStep entries (.free page) paging (vmmFreePage paging page)

/--
The condition for one owner.  An allocation must find its next block below
4 GiB, and above 2 GiB if the old frame of the entry was.  A free must not
find the frame of its entry in another present entry.
-/
def KeepsOwners (entries : Set PtrT) : FrameCall → Paging → Prop
  | .allocate page, paging =>
      ∀ block,
        paging.pmm.NextBlock block →
        block < 2 ^ 20 ∧
          ((readWord paging.memory page).getLsbD 31 = true →
            2 ^ 19 ≤ block)
  | .free page, paging =>
      paging.entryFrame page = 0 ∨
        ∀ other ∈ entries,
          paging.EntryPresent other →
          paging.entryFrame other = paging.entryFrame page →
          other = page

/-- Writing one entry of a set leaves the others alone. -/
theorem readWord_writeWord_entryOf
    {entries : Set PtrT}
    (aligned : WordAligned entries)
    (memory : Memory)
    {page other : PtrT}
    (member : page ∈ entries)
    (otherMember : other ∈ entries)
    (different : other ≠ page)
    (word : BitVec 32) :
    readWord (writeWord memory page word) other =
      readWord memory other := by
  have pageAligned := aligned page member
  have otherAligned := aligned other otherMember
  have pageBound := page.isLt
  have otherBound := other.isLt
  have values : other.toNat ≠ page.toNat :=
    fun same => different (BitVec.eq_of_toNat_eq same)
  exact readWord_writeWord_of_apart memory word
    (by omega) (by omega) (by omega)

/-- An allocated entry holds its block, if no old bit differs. -/
theorem vmmPagePhysicalAddress_allocatedEntry
    {block : Nat}
    {entry : BitVec 32}
    (small : block < 2 ^ 20)
    (agrees : entry.getLsbD 31 = true → 2 ^ 19 ≤ block) :
    vmmPagePhysicalAddress
        (allocatedEntry (blockAddress block) entry) =
      blockAddress block := by
  have attributes :
      ptePresent &&& ~~~0xFFF#32 = 0 := by
    decide
  have frame :
      vmmPagePhysicalAddress
          (allocatedEntry (blockAddress block) entry) =
        vmmPagePhysicalAddress (vmmSetFrame (blockAddress block) entry) := by
    rw [allocatedEntry, vmmPagePhysicalAddress, vmmSetAttribute,
      BitVec.and_or_distrib_right, attributes]
    exact BitVec.or_zero
  rw [frame, vmmPagePhysicalAddress_vmmSetFrame,
    pageAligned_blockAddress small]
  cases high : entry.getLsbD 31 with
  | false =>
      rw [and_high_eq_zero high]
      exact BitVec.zero_or
  | true =>
      have large := agrees high
      have value := toNat_blockAddress small
      have bit : 0x80000000#32 = BitVec.twoPow 32 31 := by decide
      have above : (blockAddress block).getLsbD 31 = true := by
        have top : (blockAddress block).msb = true :=
          BitVec.msb_eq_true_iff_two_mul_ge.mpr (by omega)
        rwa [BitVec.msb_eq_getLsbD_last] at top
      rw [bit, BitVec.and_twoPow, if_pos high]
      apply BitVec.eq_of_getLsbD_eq
      intro index _
      rw [BitVec.getLsbD_or, BitVec.getLsbD_twoPow]
      by_cases last : 31 = index
      · subst last
        simp [above]
      · simp [last]

namespace FramesOwned

variable
  {entries : Set PtrT}
  {paging : Paging}

/-- Writing an entry keeps what is known about the others. -/
theorem writeEntry
    (owned : FramesOwned entries paging)
    (aligned : WordAligned entries)
    {page : PtrT}
    (member : page ∈ entries)
    {later : Paging}
    (word : BitVec 32)
    (memory : later.memory = writeWord paging.memory page word)
    (reserved :
      ∀ other ∈ entries,
        other ≠ page →
        paging.EntryPresent other →
        paging.pmm.Reserved ((paging.entryFrame other).toNat / 4096) →
        later.pmm.Reserved ((paging.entryFrame other).toNat / 4096))
    (fresh :
      vmmTestAttribute ptePresent word = true →
      later.pmm.Reserved ((vmmPagePhysicalAddress word).toNat / 4096) ∧
        ∀ other ∈ entries,
          paging.EntryPresent other →
          other ≠ page →
          paging.entryFrame other ≠ vmmPagePhysicalAddress word) :
    FramesOwned entries later := by
  have here : readWord later.memory page = word := by
    rw [memory, readWord_writeWord_self]
  have elsewhere
      {other : PtrT}
      (otherMember : other ∈ entries)
      (different : other ≠ page) :
      readWord later.memory other = readWord paging.memory other := by
    rw [memory]
    exact readWord_writeWord_entryOf aligned paging.memory member
      otherMember different word
  have frameElsewhere
      {other : PtrT}
      (otherMember : other ∈ entries)
      (different : other ≠ page) :
      later.entryFrame other = paging.entryFrame other := by
    rw [Paging.entryFrame, elsewhere otherMember different]
    rfl
  have presentElsewhere
      {other : PtrT}
      (otherMember : other ∈ entries)
      (different : other ≠ page)
      (present : later.EntryPresent other) :
      paging.EntryPresent other := by
    rw [Paging.EntryPresent, elsewhere otherMember different] at present
    exact present
  have frameHere : later.entryFrame page = vmmPagePhysicalAddress word := by
    rw [Paging.entryFrame, here]
  have presentHere
      (present : later.EntryPresent page) :
      vmmTestAttribute ptePresent word = true := by
    rwa [Paging.EntryPresent, here] at present
  constructor
  · intro first firstMember second secondMember firstPresent
      secondPresent same
    by_cases firstHere : first = page
    · by_cases secondHere : second = page
      · rw [firstHere, secondHere]
      · subst first
        rw [frameHere, frameElsewhere secondMember secondHere] at same
        exact ((fresh (presentHere firstPresent)).2 second secondMember
          (presentElsewhere secondMember secondHere secondPresent)
          secondHere same.symm).elim
    · by_cases secondHere : second = page
      · subst second
        rw [frameHere, frameElsewhere firstMember firstHere] at same
        exact ((fresh (presentHere secondPresent)).2 first firstMember
          (presentElsewhere firstMember firstHere firstPresent)
          firstHere same).elim
      · rw [frameElsewhere firstMember firstHere,
          frameElsewhere secondMember secondHere] at same
        exact owned.exclusive first firstMember second secondMember
          (presentElsewhere firstMember firstHere firstPresent)
          (presentElsewhere secondMember secondHere secondPresent) same
  · intro other otherMember present
    by_cases otherHere : other = page
    · subst other
      rw [frameHere]
      exact (fresh (presentHere present)).1
    · rw [frameElsewhere otherMember otherHere]
      have before := presentElsewhere otherMember otherHere present
      exact reserved other otherMember otherHere before
        (owned.used other otherMember before)

/-- An allocation gives its entry a frame without an owner. -/
theorem allocate
    (owned : FramesOwned entries paging)
    (aligned : WordAligned entries)
    {page : PtrT}
    (member : page ∈ entries)
    (guarded : KeepsOwners entries (.allocate page) paging) :
    FramesOwned entries (vmmAllocatePage paging page).2 := by
  have allocates := pmmAllocateBlocks_allocatesOne paging.pmm
  generalize allocation : pmmAllocateBlocks paging.pmm 1 = result
    at allocates
  cases allocates with
  | refused =>
      rw [vmmAllocatePage_eq allocation]
      exact owned
  | @granted block next =>
      obtain ⟨small, agrees⟩ := guarded block next
      have value := toNat_blockAddress small
      have notNull := blockAddress_ne_zero next.notZero small
      have exact32 : block % 2 ^ 32 = block :=
        Nat.mod_eq_of_lt (by omega)
      have reserved
          (other : Nat)
          (held : paging.pmm.Reserved other) :
          (paging.pmm.reserve block 1).Reserved other :=
        (Pmm.reserved_reserve _ _ _ _).mpr (Or.inr held)
      have frame :=
        vmmPagePhysicalAddress_allocatedEntry small agrees
      rw [exact32] at allocation
      simp only [vmmAllocatePage_eq allocation, if_neg notNull]
      refine owned.writeEntry aligned member _ rfl
        (fun other _ _ _ held => reserved _ held) ?_
      intro _
      rw [frame, value, Nat.mul_div_cancel _ (by omega)]
      constructor
      · simp
      · intro other otherMember present _ same
        have held := owned.used other otherMember present
        rw [same, value, Nat.mul_div_cancel _ (by omega)] at held
        exact next.lowestFree.free held

/-- A free that finds its frame in no other entry keeps the owners. -/
theorem free
    (owned : FramesOwned entries paging)
    (aligned : WordAligned entries)
    {page : PtrT}
    (member : page ∈ entries)
    (guarded : KeepsOwners entries (.free page) paging) :
    FramesOwned entries (vmmFreePage paging page) := by
  have clears :
      vmmTestAttribute ptePresent
          (vmmClearAttribute ptePresent (readWord paging.memory page)) =
        false := by
    have bit : (~~~ptePresent).getLsbD 0 = false := by decide
    rw [vmmTestAttribute_ptePresent, vmmClearAttribute,
      BitVec.getLsbD_and, bit, Bool.and_false]
  refine owned.writeEntry aligned member
    (vmmClearAttribute ptePresent (readWord paging.memory page)) rfl
    ?_ ?_
  · intro other otherMember different present held
    simp only [vmmFreePage]
    split
    · exact held
    · rename_i notNull
      rcases guarded with null | noOther
      · exact (notNull null).elim
      · have one : (1 : SizeT).toNat = 1 := rfl
        have otherFrame :
            paging.entryFrame other ≠
              vmmPagePhysicalAddress (readWord paging.memory page) :=
          fun same => different (noOther other otherMember present same)
        have apart :=
          pages_apart
            (pageAligned_vmmPagePhysicalAddress
              (readWord paging.memory other))
            (pageAligned_vmmPagePhysicalAddress
              (readWord paging.memory page)) otherFrame
        refine (Pmm.reserved_pmmFreeBlocks _ _ _ _).mpr ⟨?_, held⟩
        rw [one]
        simp only [Paging.entryFrame] at *
        omega
  · intro present
    rw [clears] at present
    exact (Bool.false_ne_true present).elim

end FramesOwned

/-- Zero entries have no owners to conflict. -/
theorem FramesOwned.of_zero
    {entries : Set PtrT}
    {paging : Paging}
    (zero :
      ∀ page ∈ entries, readWord paging.memory page = 0) :
    FramesOwned entries paging := by
  have absent
      {page : PtrT}
      (member : page ∈ entries) :
      ¬paging.EntryPresent page := by
    rw [Paging.EntryPresent, zero page member]
    decide
  constructor
  · intro first firstMember _ _ firstPresent
    exact (absent firstMember firstPresent).elim
  · intro page member present
    exact (absent member present).elim

/--
In every history whose calls meet the condition, frames have one owner and
are marked used.
-/
theorem frameRun_framesOwned
    {entries : Set PtrT}
    (aligned : WordAligned entries)
    {start final : Paging}
    (zero :
      ∀ page ∈ entries, readWord start.memory page = 0)
    {calls : List FrameCall}
    (run :
      Run (Guarded (KeepsOwners entries) (FrameStep entries))
        start calls final) :
    FramesOwned entries final := by
  refine run.invariant (FramesOwned entries) ?_ (FramesOwned.of_zero zero)
  rintro call before after owned ⟨guarded, stepped⟩
  cases stepped with
  | allocate member =>
      exact owned.allocate aligned member guarded
  | free member =>
      exact owned.free aligned member guarded

/-- Two zero entries in zeroed memory. -/
def twoEntries : Set PtrT := {0x1000, 0x1004}

/-- The two entries are aligned words. -/
theorem wordAligned_twoEntries : WordAligned twoEntries := by
  rintro page (rfl | rfl) <;> decide

/-- An entry is given a frame, freed, and given a frame again. -/
theorem frameRun_framesOwned_reused :
    FramesOwned twoEntries
      (vmmAllocatePage
        (vmmFreePage (vmmAllocatePage bootPaging 0x1000).2 0x1000)
        0x1000).2 := by
  have small
      {paging : Paging}
      (managed : paging.pmm.maxMemoryBlocks = 16)
      {page : PtrT}
      (low : (readWord paging.memory page).getLsbD 31 = false) :
      KeepsOwners twoEntries (.allocate page) paging := by
    intro block next
    have scanned := next.lowestFree.scanned
    simp only [Pmm.scannedBlocks, managed] at scanned
    refine ⟨by omega, ?_⟩
    intro high
    rw [low] at high
    exact (Bool.false_ne_true high).elim
  have zero :
      ∀ page ∈ twoEntries, readWord bootPaging.memory page = 0 := by
    rintro page (rfl | rfl) <;> decide
  have member : (0x1000 : PtrT) ∈ twoEntries := Or.inl rfl
  have free :
      KeepsOwners twoEntries (.free 0x1000)
        (vmmAllocatePage bootPaging 0x1000).2 := by
    refine Or.inr ?_
    rintro other (rfl | rfl) present
    · exact fun _ => rfl
    · revert present
      decide +kernel
  exact frameRun_framesOwned wordAligned_twoEntries zero
    (((Run.nil.snoc ⟨small rfl (by decide), .allocate member⟩).snoc
      ⟨free, .free member⟩).snoc
      ⟨small rfl (by decide +kernel), .allocate member⟩)

/--
Freeing an entry twice, with an allocation by another entry in between,
leaves that entry present with a frame that is not marked used.
-/
theorem frameRun_framesOwned_fails :
    ¬∀ (entries : Set PtrT) (start final : Paging)
        (calls : List FrameCall),
        WordAligned entries →
        (∀ page ∈ entries, readWord start.memory page = 0) →
        Run (FrameStep entries) start calls final →
        FramesOwned entries final := by
  intro claimed
  have zero :
      ∀ page ∈ twoEntries, readWord bootPaging.memory page = 0 := by
    rintro page (rfl | rfl) <;> decide
  have first : (0x1000 : PtrT) ∈ twoEntries := Or.inl rfl
  have second : (0x1004 : PtrT) ∈ twoEntries := Or.inr rfl
  have owned :=
    claimed _ bootPaging _ _ wordAligned_twoEntries zero
      ((((Run.nil.snoc (.allocate first)).snoc (.free first)).snoc
        (.allocate second)).snoc (.free first))
  have used := owned.used _ second (by decide +kernel)
  revert used
  decide +kernel

end HobbyOS
