import HobbyOS.PhysicalMemory.Manager

namespace HobbyOS

/-!
# The search for a run of free blocks

The run counter of `pmm_find_first_free_run` is the requested size less the
length of the streak of free blocks that ends just before the current block,
across byte boundaries.  Both ways of resetting the counter only forget a
streak, so every run that is found is free.  For single blocks nothing is
forgotten, and the search finds the lowest free block.
-/

/-- Number of blocks covered by whole bytes, which are the ones scanned. -/
def Pmm.scannedBlocks (pmm : Pmm) : Nat :=
  pmm.maxMemoryBlocks / 8 * 8

/-- Only managed blocks are scanned. -/
theorem Pmm.scannedBlocks_le (pmm : Pmm) :
    pmm.scannedBlocks ≤ pmm.maxMemoryBlocks :=
  Nat.div_mul_le_self _ _

/-- The run counter in front of the block `position`. -/
structure Streak
    (memoryBlocks : Bitmap)
    (size : SizeT)
    (position : Nat)
    (run : SizeT) :
    Prop where
  positive : 0 < run.toNat
  bounded : run.toNat ≤ size.toNat
  inside : size.toNat - run.toNat ≤ position
  free :
    ∀ block,
      position - (size.toNat - run.toNat) ≤ block →
      block < position →
      pmmTestBlock memoryBlocks block = false

/-- The `size` blocks up to and including `last` are free. -/
structure FreeRun
    (memoryBlocks : Bitmap)
    (size : SizeT)
    (last : Nat) :
    Prop where
  inside : size.toNat ≤ last + 1
  free :
    ∀ block,
      last + 1 - size.toNat ≤ block →
      block ≤ last →
      pmmTestBlock memoryBlocks block = false

namespace Streak

variable
  {memoryBlocks : Bitmap}
  {size run : SizeT}
  {position : Nat}

/-- A reset counter stands for the empty streak, wherever it is. -/
theorem reset
    (positive : 0 < size.toNat)
    (position : Nat) :
    Streak memoryBlocks size position size where
  positive := positive
  bounded := Nat.le_refl _
  inside := by omega
  free := by
    intro block lower upper
    omega

/-- The blocks of the streak and a free block behind it are free. -/
theorem free_through
    (streak : Streak memoryBlocks size position run)
    (free : pmmTestBlock memoryBlocks position = false)
    (block : Nat)
    (lower : position - (size.toNat - run.toNat) ≤ block)
    (upper : block ≤ position) :
    pmmTestBlock memoryBlocks block = false := by
  rcases Nat.lt_or_eq_of_le upper with before | newest
  · exact streak.free block lower before
  · rwa [newest]

/-- A free block extends the streak. -/
theorem extend
    (streak : Streak memoryBlocks size position run)
    (free : pmmTestBlock memoryBlocks position = false)
    (unfinished : run - 1 ≠ 0) :
    Streak memoryBlocks size (position + 1) (run - 1) := by
  have positive := streak.positive
  have bounded := streak.bounded
  have inside := streak.inside
  have counter : (run - 1).toNat = run.toNat - 1 := by bv_omega
  have remaining : (run - 1).toNat ≠ 0 := by bv_omega
  refine ⟨by omega, by omega, by omega, fun block lower upper => ?_⟩
  exact streak.free_through free block (by omega) (by omega)

/-- A free block that exhausts the counter completes a run. -/
theorem complete
    (streak : Streak memoryBlocks size position run)
    (free : pmmTestBlock memoryBlocks position = false)
    (finished : run - 1 = 0) :
    FreeRun memoryBlocks size position := by
  have inside := streak.inside
  have counter : run.toNat = 1 := by bv_omega
  refine ⟨by omega, fun block lower upper => ?_⟩
  exact streak.free_through free block (by omega) (by omega)

end Streak

/-- The inner loop tests the bits of the byte as block bits. -/
theorem byteBit_iff
    (memoryBlocks : Bitmap)
    (i : Nat)
    {j : Nat}
    (bit : j < 8) :
    memoryBlocks i &&& (0x80#8 >>> j) ≠ 0 ↔
      pmmTestBlock memoryBlocks (i * 8 + j) = true := by
  have byte : (i * 8 + j) / 8 = i := by omega
  have position : (i * 8 + j) % 8 = j := by omega
  simp [pmmTestBlock, blockMask, byte, position]

/-- A byte of ones reserves its eight blocks. -/
theorem pmmTestBlock_of_byte_full
    {memoryBlocks : Bitmap}
    {block : Nat}
    (full : memoryBlocks (block / 8) = 0xFF) :
    pmmTestBlock memoryBlocks block = true := by
  have ones : ∀ bit : Fin 8, (0xFF#8).getLsbD bit.val = true := by
    decide
  rw [pmmTestBlock_eq_getLsbD, full]
  exact ones ⟨7 - block % 8, by omega⟩

/-! ## Rules for the two loops -/

section Rules

variable
  {memoryBlocks : Bitmap}
  {size : SizeT}
  {holds : Nat → SizeT → Prop}
  {found : Nat → Prop}

/-- What the loop over the bits of a byte keeps, or has found. -/
theorem findRunInByte_rule
    (positive : 0 < size.toNat)
    (i : Nat)
    (passes :
      ∀ {position run},
        i * 8 ≤ position →
        position < (i + 1) * 8 →
        holds position run →
        pmmTestBlock memoryBlocks position = true →
        holds (position + 1) size)
    (continues :
      ∀ {position run},
        i * 8 ≤ position →
        position < (i + 1) * 8 →
        holds position run →
        pmmTestBlock memoryBlocks position = false →
        run - 1 ≠ 0 →
        holds (position + 1) (run - 1))
    (completes :
      ∀ {position run},
        i * 8 ≤ position →
        position < (i + 1) * 8 →
        holds position run →
        pmmTestBlock memoryBlocks position = false →
        run - 1 = 0 →
        found position)
    {bits j : Nat}
    (remaining : bits + j = 8)
    {run : SizeT}
    (initially : holds (i * 8 + j) run) :
    match findRunInByte size i (memoryBlocks i) bits j run with
    | .ok run' => holds ((i + 1) * 8) run'
    | .error last => found last := by
  induction bits generalizing j run with
  | zero =>
      have atEnd : i * 8 + j = (i + 1) * 8 := by omega
      rw [atEnd] at initially
      exact initially
  | succ bits inductionHypothesis =>
      have bit := byteBit_iff memoryBlocks i (show j < 8 by omega)
      have lower : i * 8 ≤ i * 8 + j := Nat.le_add_right _ _
      have upper : i * 8 + j < (i + 1) * 8 := by omega
      rw [findRunInByte]
      by_cases reserved :
          pmmTestBlock memoryBlocks (i * 8 + j) = true
      · have sizeNonzero : size ≠ 0 := by bv_omega
        rw [if_pos (bit.mpr reserved)]
        simp only [sizeNonzero, ↓reduceIte]
        exact inductionHypothesis (by omega)
          (passes lower upper initially reserved)
      · rw [if_neg (fun set => reserved (bit.mp set))]
        have free : pmmTestBlock memoryBlocks (i * 8 + j) = false :=
          Bool.eq_false_iff.mpr reserved
        by_cases finished : run - 1 = 0
        · simp only [finished, ↓reduceIte]
          exact completes lower upper initially free finished
        · simp only [finished, ↓reduceIte]
          exact inductionHypothesis (by omega)
            (continues lower upper initially free finished)

/-- What the loop over the bytes keeps, or has found. -/
theorem findRunFrom_rule
    {limit : Nat}
    (skips :
      ∀ {index run},
        index < limit →
        holds (index * 8) run →
        (8 ≤ run.toNat ∧ memoryBlocks index ≠ 0) ∨
          memoryBlocks index = 0xFF →
        holds ((index + 1) * 8) size)
    (looks :
      ∀ {index run},
        index < limit →
        holds (index * 8) run →
        ¬((8 ≤ run.toNat ∧ memoryBlocks index ≠ 0) ∨
          memoryBlocks index = 0xFF) →
        match findRunInByte size index (memoryBlocks index) 8 0 run with
        | .ok run' => holds ((index + 1) * 8) run'
        | .error last => found last)
    {bytes i : Nat}
    (remaining : i + bytes = limit)
    {run : SizeT}
    (initially : holds (i * 8) run) :
    match findRunFrom memoryBlocks size bytes i run with
    | some last => found last
    | none => ∃ run', holds (limit * 8) run' := by
  induction bytes generalizing i run with
  | zero =>
      rw [Nat.add_zero] at remaining
      rw [remaining] at initially
      exact ⟨run, initially⟩
  | succ bytes inductionHypothesis =>
      have inside : i < limit := by omega
      rw [findRunFrom]
      by_cases skipped :
          (8 ≤ run.toNat ∧ memoryBlocks i ≠ 0) ∨ memoryBlocks i = 0xFF
      · rw [if_pos skipped]
        exact inductionHypothesis (by omega)
          (skips inside initially skipped)
      · rw [if_neg skipped]
        have byte := looks inside initially skipped
        cases inByte : findRunInByte size i (memoryBlocks i) 8 0 run with
        | error last =>
            rw [inByte] at byte
            exact byte
        | ok run' =>
            rw [inByte] at byte
            exact inductionHypothesis (by omega) byte

end Rules

/-! ## Runs that are found -/

/-- Every run the scan stops at is free and lies in the scanned bytes. -/
theorem findRunFrom_spec
    {memoryBlocks : Bitmap}
    {size : SizeT}
    (positive : 0 < size.toNat)
    {bytes i : Nat}
    {run : SizeT}
    (streak : Streak memoryBlocks size (i * 8) run)
    {last : Nat}
    (found : findRunFrom memoryBlocks size bytes i run = some last) :
    FreeRun memoryBlocks size last ∧ last < (i + bytes) * 8 := by
  have scanned :=
    @findRunFrom_rule memoryBlocks size (Streak memoryBlocks size)
      (fun last =>
        FreeRun memoryBlocks size last ∧ last < (i + bytes) * 8)
      (i + bytes) (fun _ _ _ => Streak.reset positive _) ?_ bytes i rfl
      run streak
  · rwa [found] at scanned
  · intro index run inside streak _
    refine findRunInByte_rule positive index ?_ ?_ ?_ rfl streak
    · intro _ _ _ _ _ _
      exact Streak.reset positive _
    · intro _ _ _ _ streak free unfinished
      exact streak.extend free unfinished
    · intro position _ _ upper streak free finished
      exact ⟨streak.complete free finished, by omega⟩

/-- The run the search stops at is free and lies in the scanned bytes. -/
theorem Pmm.lastOfRun_spec
    {pmm : Pmm}
    {size : SizeT}
    (positive : 0 < size.toNat)
    {last : Nat}
    (found : pmm.lastOfRun size = some last) :
    FreeRun pmm.memoryBlocks size last ∧ last < pmm.scannedBlocks := by
  have spec :=
    findRunFrom_spec positive (Streak.reset positive (0 * 8)) found
  rwa [Nat.zero_add] at spec

/-- The blocks from `first` on, up to `position`, are reserved. -/
def ReservedBetween
    (memoryBlocks : Bitmap)
    (first position : Nat) :
    Prop :=
  ∀ block,
    first ≤ block →
    block < position →
    pmmTestBlock memoryBlocks block = true

/-- One more reserved block. -/
theorem ReservedBetween.next
    {memoryBlocks : Bitmap}
    {first position : Nat}
    (passed : ReservedBetween memoryBlocks first position)
    (reserved : pmmTestBlock memoryBlocks position = true) :
    ReservedBetween memoryBlocks first (position + 1) := by
  intro block lower upper
  rcases Nat.lt_or_eq_of_le (Nat.le_of_lt_succ upper) with before | rfl
  · exact passed block lower before
  · exact reserved

/-- For one block, a byte of ones is the only one that is skipped. -/
theorem ReservedBetween.skip
    {memoryBlocks : Bitmap}
    {first i : Nat}
    (passed : ReservedBetween memoryBlocks first (i * 8))
    (skipped :
      (8 ≤ (1 : SizeT).toNat ∧ memoryBlocks i ≠ 0) ∨
        memoryBlocks i = 0xFF) :
    ReservedBetween memoryBlocks first ((i + 1) * 8) := by
  have full : memoryBlocks i = 0xFF := by simpa using skipped
  intro block lower upper
  rcases Nat.lt_or_ge block (i * 8) with before | inByte
  · exact passed block lower before
  · apply pmmTestBlock_of_byte_full
    rw [show block / 8 = i by omega]
    exact full

/-- For one block, only reserved blocks are passed over. -/
theorem findRunFrom_one
    (memoryBlocks : Bitmap)
    (bytes i : Nat)
    {block : Nat}
    (lower : i * 8 ≤ block)
    (upper :
      block <
        (findRunFrom memoryBlocks 1 bytes i 1).getD ((i + bytes) * 8)) :
    pmmTestBlock memoryBlocks block = true := by
  have scanned :=
    @findRunFrom_rule memoryBlocks 1
      (fun position run =>
        run = 1 ∧ ReservedBetween memoryBlocks (i * 8) position)
      (ReservedBetween memoryBlocks (i * 8)) (i + bytes) ?_ ?_ bytes i rfl
      1 ⟨rfl, fun block lower upper => by omega⟩
  · cases search : findRunFrom memoryBlocks 1 bytes i 1 with
    | none =>
        rw [search] at scanned upper
        obtain ⟨_, _, passed⟩ := scanned
        exact passed block lower upper
    | some last =>
        rw [search] at scanned upper
        exact scanned block lower upper
  · rintro index run _ ⟨rfl, passed⟩ skipped
    exact ⟨rfl, passed.skip skipped⟩
  · intro index run _ held _
    have positive : 0 < (1 : SizeT).toNat := by decide
    refine
      @findRunInByte_rule memoryBlocks 1
        (fun position run =>
          run = 1 ∧ ReservedBetween memoryBlocks (i * 8) position)
        (ReservedBetween memoryBlocks (i * 8)) positive index ?_ ?_ ?_ 8 0
        rfl run held
    · rintro position run _ _ ⟨_, passed⟩ reserved
      exact ⟨rfl, passed.next reserved⟩
    · rintro position run _ _ ⟨rfl, _⟩ _ unfinished
      exact (unfinished (by decide)).elim
    · rintro position run _ _ ⟨_, passed⟩ _ _
      exact passed

/-- The lowest free block among the scanned ones. -/
structure Pmm.LowestFree (pmm : Pmm) (block : Nat) : Prop where
  scanned : block < pmm.scannedBlocks
  free : ¬pmm.Reserved block
  lowest : ∀ lower < block, pmm.Reserved lower

/-- For one block, the search finds the lowest free block. -/
theorem Pmm.lastOfRun_one_of_some
    {pmm : Pmm}
    {block : Nat}
    (found : pmm.lastOfRun 1 = some block) :
    pmm.LowestFree block := by
  have spec := Pmm.lastOfRun_spec (by decide) found
  refine ⟨spec.2, ?_, ?_⟩
  · have free := spec.1.free block (by simp) (Nat.le_refl _)
    simp [Reserved, free]
  · intro lower below
    refine findRunFrom_one pmm.memoryBlocks
      (pmm.maxMemoryBlocks / 8) 0 (by omega) ?_
    have stopped :
        findRunFrom pmm.memoryBlocks 1 (pmm.maxMemoryBlocks / 8) 0 1 =
          some block :=
      found
    rwa [stopped]

/-- For one block, the search fails only when nothing is free. -/
theorem Pmm.reserved_of_lastOfRun_one_none
    {pmm : Pmm}
    (notFound : pmm.lastOfRun 1 = none)
    {block : Nat}
    (scanned : block < pmm.scannedBlocks) :
    pmm.Reserved block := by
  refine findRunFrom_one pmm.memoryBlocks
    (pmm.maxMemoryBlocks / 8) 0 (by omega) ?_
  have exhausted :
      findRunFrom pmm.memoryBlocks 1 (pmm.maxMemoryBlocks / 8) 0 1 =
        none :=
    notFound
  rwa [exhausted, Option.getD_none, Nat.zero_add]

/-- The lowest free block is what a search for one block finds. -/
theorem Pmm.LowestFree.found
    {pmm : Pmm}
    {block : Nat}
    (lowest : pmm.LowestFree block) :
    pmm.lastOfRun 1 = some block := by
  cases search : pmm.lastOfRun 1 with
  | none =>
      exact (lowest.free
        (Pmm.reserved_of_lastOfRun_one_none search lowest.scanned)).elim
  | some other =>
      have found := Pmm.lastOfRun_one_of_some search
      rcases Nat.lt_trichotomy other block with below | same | above
      · exact (found.free (lowest.lowest other below)).elim
      · rw [same]
      · exact (lowest.free (found.lowest block above)).elim

end HobbyOS
