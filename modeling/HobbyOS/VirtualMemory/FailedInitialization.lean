import HobbyOS.PhysicalMemory.RunAddresses
import HobbyOS.VirtualMemory.AddressSpace

namespace HobbyOS

/-!
# A failed initialization

`initialize_virtual_memory_manager` takes blocks in three steps and gives none
of them back when a later step fails.  A failure leaves the manager as it was
only when it is the first request that is refused.
-/

/-- The manager takes runs of the sizes in turn, none of them at address 0. -/
def Pmm.GrantsRuns : List SizeT → Pmm → Prop
  | [], _ => True
  | size :: sizes, pmm =>
      ∃ first,
        pmm.TakesRun size first ∧
          first % 2 ^ 20 ≠ 0 ∧
          GrantsRuns sizes (pmm.reserve (first % 2 ^ 32) size)

/-- A failure leaves the bitmap, the counter and the directory alone. -/
def FailsUnchanged (before : Paging) : Prop :=
  ∀ later,
    initializeVirtualMemoryManager before = (false, later) →
    later.pmm.memoryBlocks = before.pmm.memoryBlocks ∧
      later.pmm.usedMemoryBlocks = before.pmm.usedMemoryBlocks ∧
      later.vmmCurrentDirectory = before.vmmCurrentDirectory

/-- A run is granted when its pointer is not null. -/
theorem Pmm.grantsRuns_cons_iff
    {pmm : Pmm}
    {size : SizeT}
    (positive : 1 ≤ size.toNat)
    (sizes : List SizeT) :
    pmm.GrantsRuns (size :: sizes) ↔
      (pmmAllocateBlocks pmm size).1 ≠ 0 ∧
        (pmmAllocateBlocks pmm size).2.GrantsRuns sizes := by
  constructor
  · rintro ⟨first, takes, notNull, others⟩
    rw [takes.allocate positive]
    exact ⟨(not_congr (blockAddress_eq_zero_iff first)).mpr notNull, others⟩
  · rintro ⟨notNull, others⟩
    rcases pmm.takesRun_or_refused positive with
      ⟨first, takes⟩ | ⟨refused, _⟩
    · rw [takes.allocate positive] at notNull others
      exact ⟨first, takes,
        (not_congr (blockAddress_eq_zero_iff first)).mp notNull, others⟩
    · rw [refused] at notNull
      exact (notNull rfl).elim

/-- A single block is counted as used when it is taken. -/
theorem usedMemoryBlocks_allocateOne (pmm : Pmm) :
    (pmmAllocateBlocks pmm 1).2.usedMemoryBlocks = pmm.usedMemoryBlocks ∨
      (pmmAllocateBlocks pmm 1).2.usedMemoryBlocks =
        pmm.usedMemoryBlocks + 1 := by
  rcases pmm.takesRun_or_refused (show 1 ≤ (1 : SizeT).toNat by decide) with
    ⟨first, takes⟩ | ⟨refused, _⟩
  · rw [takes.allocate (by decide)]
    exact Or.inr rfl
  · rw [refused]
    exact Or.inl rfl

/-- What a failed initialization leaves. -/
theorem initializeVirtualMemoryManager_failure
    {before later : Paging}
    (failure :
      initializeVirtualMemoryManager before = (false, later)) :
    let dir := pmmAllocateBlocks before.pmm 3
    let table := pmmAllocateBlocks dir.2 1
    let table3GB := pmmAllocateBlocks table.2 1
    later.vmmCurrentDirectory = before.vmmCurrentDirectory ∧
      ((dir.1 = 0 ∧ later.pmm = dir.2) ∨
        (dir.1 ≠ 0 ∧ table.1 = 0 ∧ later.pmm = table.2) ∨
        (dir.1 ≠ 0 ∧ table.1 ≠ 0 ∧ table3GB.1 = 0 ∧
          later.pmm = table3GB.2)) := by
  intro dir table table3GB
  unfold initializeVirtualMemoryManager at failure
  split at failure
  rename_i dirPointer dirPmm dirSame
  have dirValue : dir = (dirPointer, dirPmm) := dirSame
  split at failure
  · rename_i null
    cases failure
    exact ⟨rfl, Or.inl ⟨by rw [dirValue]; exact null, by rw [dirValue]⟩⟩
  · rename_i dirGranted
    simp only at failure
    split at failure
    · rename_i null
      cases failure
      refine ⟨rfl, Or.inr (Or.inl ?_)⟩
      simp only [table, dirValue]
      exact ⟨dirGranted, null, trivial⟩
    · rename_i tableGranted
      split at failure
      · rename_i null
        cases failure
        refine ⟨rfl, Or.inr (Or.inr ?_)⟩
        simp only [table3GB, table, dirValue]
        exact ⟨dirGranted, tableGranted, null, trivial⟩
      · simp at failure

/-- An initialization fails exactly when a request is not granted. -/
theorem initializeVirtualMemoryManager_succeeds_iff (before : Paging) :
    (initializeVirtualMemoryManager before).1 = true ↔
      before.pmm.GrantsRuns [3, 1, 1] := by
  have three : 1 ≤ (3 : SizeT).toNat := by decide
  have one : 1 ≤ (1 : SizeT).toNat := by decide
  rw [Pmm.grantsRuns_cons_iff three, Pmm.grantsRuns_cons_iff one,
    Pmm.grantsRuns_cons_iff one]
  cases result : initializeVirtualMemoryManager before with
  | mk succeeded later =>
      cases succeeded with
      | true =>
          obtain ⟨dir, table, table3GB, _⟩ :=
            initializeVirtualMemoryManager_success result
          exact iff_of_true rfl ⟨dir, table, table3GB, trivial⟩
      | false =>
          refine iff_of_false (by simp) ?_
          rintro ⟨dir, table, table3GB, _⟩
          rcases (initializeVirtualMemoryManager_failure result).2 with
            ⟨null, _⟩ | ⟨_, null, _⟩ | ⟨_, _, null, _⟩
          · exact dir null
          · exact table null
          · exact table3GB null

/--
A failed initialization leaves the manager and the directory as they were
exactly when the manager has no run of three blocks to take, or grants all
three requests.
-/
theorem initializeVirtualMemoryManager_failsUnchanged_iff
    (before : Paging) :
    FailsUnchanged before ↔
      (∀ first, ¬before.pmm.TakesRun 3 first) ∨
        before.pmm.GrantsRuns [3, 1, 1] := by
  have three : 1 ≤ (3 : SizeT).toNat := by decide
  constructor
  · intro unchanged
    by_contra neither
    rw [not_or, not_forall_not,
      ← initializeVirtualMemoryManager_succeeds_iff] at neither
    obtain ⟨⟨first, takes⟩, fails⟩ := neither
    have failure :
        initializeVirtualMemoryManager before =
          (false, (initializeVirtualMemoryManager before).2) := by
      rw [← Bool.eq_false_of_not_eq_true fails]
    have counter := (unchanged _ failure).2.1
    have left := (initializeVirtualMemoryManager_failure failure).2
    have table :=
      usedMemoryBlocks_allocateOne (pmmAllocateBlocks before.pmm 3).2
    have table3GB :=
      usedMemoryBlocks_allocateOne
        (pmmAllocateBlocks (pmmAllocateBlocks before.pmm 3).2 1).2
    have taken :
        (pmmAllocateBlocks before.pmm 3).2.usedMemoryBlocks =
          before.pmm.usedMemoryBlocks + 3 := by
      rw [takes.allocate three]
      rfl
    -- The three blocks stay counted, with up to two more.
    rw [taken] at table
    rcases left with ⟨_, same⟩ | ⟨_, _, same⟩ | ⟨_, _, _, same⟩
    · rw [same, taken] at counter
      bv_omega
    · rw [same] at counter
      rcases table with table | table <;> rw [table] at counter <;>
        bv_omega
    · rw [same] at counter
      rcases table with table | table <;>
        rw [table] at table3GB <;>
        rcases table3GB with table3GB | table3GB <;>
        rw [table3GB] at counter <;>
        bv_omega
  · rintro (none | grants) later failure
    · rcases before.pmm.takesRun_or_refused three with
        ⟨first, takes⟩ | ⟨refused, _⟩
      · exact (none first takes).elim
      · obtain ⟨directory, left⟩ :=
          initializeVirtualMemoryManager_failure failure
        have same : later.pmm = before.pmm := by
          rcases left with ⟨_, same⟩ | ⟨notNull, _⟩ | ⟨notNull, _⟩
          · rw [same, refused]
          · exact (notNull (by rw [refused])).elim
          · exact (notNull (by rw [refused])).elim
        rw [same]
        exact ⟨rfl, rfl, directory⟩
    · rw [← initializeVirtualMemoryManager_succeeds_iff, failure] at grants
      exact Bool.noConfusion grants

/-- A manager of sixteen blocks, three of which are free. -/
def threeFree : Pmm where
  memoryBlocks := fun index => if index = 0 then 0xFF else 0x1F
  maxMemoryBlocks := 16
  usedMemoryBlocks := 13
  fits := sixteenBlocks.fits

/-- The directory takes the last three blocks, which stay used. -/
theorem initializeVirtualMemoryManager_failsUnchanged_fails :
    ¬∀ before, FailsUnchanged before := by
  intro unchanged
  have failure :
      initializeVirtualMemoryManager
          { memory := fun _ => 0, pmm := threeFree,
            vmmCurrentDirectory := 0 } =
        (false,
          (initializeVirtualMemoryManager
            { memory := fun _ => 0, pmm := threeFree,
              vmmCurrentDirectory := 0 }).2) :=
    rfl
  have counter := (unchanged _ _ failure).2.1
  exact absurd counter (by decide)

end HobbyOS
