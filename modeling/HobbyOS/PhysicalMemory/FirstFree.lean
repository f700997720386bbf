import HobbyOS.PhysicalMemory.RunSearch

namespace HobbyOS

/-!
# The search for a single block

`pmm_find_first_free` of `physical_memory_manager.c` goes through the bytes
and bits of the bitmap without a run counter.  It stops at the lowest free
block, where the search for a run of one block stops, too.  Both searches
number the block in 32 bits.
-/

/-- The loop over the bits of byte `i` in `pmm_find_first_free`. -/
def findFreeInByte
    (i : Nat)
    (byte : Byte) :
    Nat → Nat → Option Nat
  | 0, _ => none
  | bits + 1, j =>
      if byte &&& (0x80#8 >>> j) = 0 then
        some (i * 8 + j)
      else
        findFreeInByte i byte bits (j + 1)

/-- The loop over the bytes in `pmm_find_first_free`, from byte `i` on. -/
def findFreeFrom (memoryBlocks : Bitmap) : Nat → Nat → Option Nat
  | 0, _ => none
  | bytes + 1, i =>
      if memoryBlocks i = 0xFF then
        findFreeFrom memoryBlocks bytes (i + 1)
      else
        match findFreeInByte i (memoryBlocks i) 8 0 with
        | some block => some block
        | none => findFreeFrom memoryBlocks bytes (i + 1)

/-- The block that `pmm_find_first_free` stops at. -/
def Pmm.firstFree (pmm : Pmm) : Option Nat :=
  findFreeFrom pmm.memoryBlocks (pmm.maxMemoryBlocks / 8) 0

/-- `pmm_find_first_free`. -/
def pmmFindFirstFree (pmm : Pmm) : AddrT :=
  if pmm.usedMemoryBlocks = BitVec.ofNat 64 pmm.maxMemoryBlocks then
    -1
  else
    match pmm.firstFree with
    | some block => BitVec.ofNat 32 block
    | none => 0

section Loops

variable {memoryBlocks : Bitmap}

/-- The loop over the bits stops at the first free block. -/
theorem findFreeInByte_spec
    {i bits j : Nat}
    (remaining : bits + j = 8)
    (passed : ReservedBetween memoryBlocks 0 (i * 8 + j)) :
    match findFreeInByte i (memoryBlocks i) bits j with
    | some block =>
        block < (i + 1) * 8 ∧
          pmmTestBlock memoryBlocks block = false ∧
          ReservedBetween memoryBlocks 0 block
    | none => ReservedBetween memoryBlocks 0 ((i + 1) * 8) := by
  induction bits generalizing j with
  | zero =>
      have atEnd : i * 8 + j = (i + 1) * 8 := by omega
      rw [atEnd] at passed
      exact passed
  | succ bits inductionHypothesis =>
      have bit := byteBit_iff memoryBlocks i (show j < 8 by omega)
      rw [findFreeInByte]
      by_cases clear : memoryBlocks i &&& (0x80#8 >>> j) = 0
      · rw [if_pos clear]
        refine ⟨by omega, ?_, passed⟩
        exact Bool.eq_false_iff.mpr fun set => bit.mpr set clear
      · rw [if_neg clear]
        exact inductionHypothesis (by omega) (passed.next (bit.mp clear))

/-- The loop over the bytes stops at the first free block. -/
theorem findFreeFrom_spec
    {bytes i : Nat}
    (passed : ReservedBetween memoryBlocks 0 (i * 8)) :
    match findFreeFrom memoryBlocks bytes i with
    | some block =>
        block < (i + bytes) * 8 ∧
          pmmTestBlock memoryBlocks block = false ∧
          ReservedBetween memoryBlocks 0 block
    | none => ReservedBetween memoryBlocks 0 ((i + bytes) * 8) := by
  induction bytes generalizing i with
  | zero =>
      exact passed
  | succ bytes inductionHypothesis =>
      have shift : i + (bytes + 1) = i + 1 + bytes := by omega
      rw [findFreeFrom, shift]
      by_cases full : memoryBlocks i = 0xFF
      · rw [if_pos full]
        exact inductionHypothesis (passed.skip (.inr full))
      · rw [if_neg full]
        have inByte := findFreeInByte_spec (show 8 + 0 = 8 from rfl) passed
        cases found : findFreeInByte i (memoryBlocks i) 8 0 with
        | some block =>
            rw [found] at inByte
            obtain ⟨below, free, lowest⟩ := inByte
            exact ⟨by omega, free, lowest⟩
        | none =>
            rw [found] at inByte
            exact inductionHypothesis inByte

end Loops

section Searches

variable {pmm : Pmm}

/-- The search stops at the lowest free block. -/
theorem Pmm.lowestFree_of_firstFree
    {block : Nat}
    (found : pmm.firstFree = some block) :
    pmm.LowestFree block := by
  have spec :=
    @findFreeFrom_spec pmm.memoryBlocks (pmm.maxMemoryBlocks / 8) 0
      fun _ _ absurd => (Nat.not_lt_zero _ absurd).elim
  rw [show findFreeFrom pmm.memoryBlocks (pmm.maxMemoryBlocks / 8) 0 =
      some block from found, Nat.zero_add] at spec
  obtain ⟨scanned, free, reserved⟩ := spec
  exact
    ⟨scanned, Bool.eq_false_iff.mp free,
      fun lower below => reserved lower (Nat.zero_le lower) below⟩

/-- The search fails only when all scanned blocks are reserved. -/
theorem Pmm.reserved_of_firstFree_none
    (notFound : pmm.firstFree = none)
    {block : Nat}
    (scanned : block < pmm.scannedBlocks) :
    pmm.Reserved block := by
  have spec :=
    @findFreeFrom_spec pmm.memoryBlocks (pmm.maxMemoryBlocks / 8) 0
      fun _ _ absurd => (Nat.not_lt_zero _ absurd).elim
  rw [show findFreeFrom pmm.memoryBlocks (pmm.maxMemoryBlocks / 8) 0 =
      none from notFound, Nat.zero_add] at spec
  exact spec block (Nat.zero_le block) scanned

/-- Both searches stop at the same block. -/
theorem Pmm.firstFree_eq_lastOfRun (pmm : Pmm) :
    pmm.firstFree = pmm.lastOfRun 1 := by
  cases found : pmm.firstFree with
  | some block =>
      rw [(Pmm.lowestFree_of_firstFree found).found]
  | none =>
      cases run : pmm.lastOfRun 1 with
      | none =>
          rfl
      | some block =>
          have lowest := Pmm.lastOfRun_one_of_some run
          exact
            (lowest.free
              (Pmm.reserved_of_firstFree_none found lowest.scanned)).elim

/-- The two functions agree while not all blocks are in use. -/
theorem pmmFindFirstFree_eq
    (notFull :
      pmm.usedMemoryBlocks ≠ BitVec.ofNat 64 pmm.maxMemoryBlocks) :
    pmmFindFirstFree pmm = pmmFindFirstFreeRun pmm 1 := by
  have last (block : Nat) :
      BitVec.ofNat 32 block - ((1 : SizeT) - 1) = BitVec.ofNat 32 block :=
    BitVec.sub_zero _
  rw [pmmFindFirstFree, if_neg notFull, pmmFindFirstFreeRun,
    Pmm.firstFree_eq_lastOfRun]
  cases pmm.lastOfRun 1 with
  | some block =>
      exact (last block).symm
  | none =>
      rfl

/-- The lowest free block is returned by its 32-bit number. -/
theorem Pmm.LowestFree.pmmFindFirstFree
    {block : Nat}
    (lowest : pmm.LowestFree block)
    (notFull :
      pmm.usedMemoryBlocks ≠ BitVec.ofNat 64 pmm.maxMemoryBlocks) :
    pmmFindFirstFree pmm = BitVec.ofNat 32 block := by
  rw [HobbyOS.pmmFindFirstFree, if_neg notFull, Pmm.firstFree_eq_lastOfRun,
    lowest.found]

end Searches

/--
Both searches return the number of the lowest free block among the scanned
ones, or 0 if there is none.
-/
structure FindsLowest (pmm : Pmm) : Prop where
  agree : pmmFindFirstFree pmm = pmmFindFirstFreeRun pmm 1
  lowest :
    ∀ block, pmm.LowestFree block → (pmmFindFirstFree pmm).toNat = block
  exhausted :
    (∀ block < pmm.scannedBlocks, pmm.Reserved block) →
      pmmFindFirstFree pmm = 0

/--
The searches find the lowest free block exactly if it has a 32-bit number, or
there is none.
-/
theorem pmmFindFirstFree_findsLowest_iff
    {pmm : Pmm}
    (notFull :
      pmm.usedMemoryBlocks ≠ BitVec.ofNat 64 pmm.maxMemoryBlocks) :
    FindsLowest pmm ↔ ∀ block, pmm.LowestFree block → block < 2 ^ 32 := by
  constructor
  · intro finds block lowest
    rw [← finds.lowest block lowest]
    exact BitVec.isLt _
  · intro small
    refine ⟨pmmFindFirstFree_eq notFull, fun block lowest => ?_,
      fun reserved => ?_⟩
    · rw [lowest.pmmFindFirstFree notFull, BitVec.toNat_ofNat,
        Nat.mod_eq_of_lt (small block lowest)]
    · have none : pmm.firstFree = none := by
        cases found : pmm.firstFree with
        | none =>
            rfl
        | some block =>
            have lowest := Pmm.lowestFree_of_firstFree found
            exact (lowest.free (reserved block lowest.scanned)).elim
      rw [pmmFindFirstFree, if_neg notFull, none]

/-- A manager of 24 blocks whose first three blocks are reserved. -/
def threeReserved : Pmm where
  memoryBlocks := fun index => if index = 0 then 0xE0 else 0
  maxMemoryBlocks := 24
  usedMemoryBlocks := 3
  fits := by decide

/-- The lowest free block of a manager of 24 blocks. -/
theorem pmmFindFirstFree_findsLowest_iff_threeReserved :
    FindsLowest threeReserved := by
  refine (pmmFindFirstFree_findsLowest_iff (by decide)).mpr ?_
  intro block lowest
  have scanned := lowest.scanned
  have blocks : threeReserved.scannedBlocks = 24 := rfl
  omega

/-- A manager whose only free blocks are those from `2 ^ 32` on. -/
def above16TiB : Pmm where
  memoryBlocks := fun index => if index < 2 ^ 29 then 0xFF else 0
  maxMemoryBlocks := 2 ^ 32 + 8
  usedMemoryBlocks := 0x100000000
  fits := by decide

/-- Block `2 ^ 32` is returned as 0. -/
theorem pmmFindFirstFree_findsLowest_fails :
    ¬∀ pmm : Pmm,
      pmm.usedMemoryBlocks ≠ BitVec.ofNat 64 pmm.maxMemoryBlocks →
      FindsLowest pmm := by
  intro finds
  have notFull :
      above16TiB.usedMemoryBlocks ≠
        BitVec.ofNat 64 above16TiB.maxMemoryBlocks := by
    decide
  have lowest : above16TiB.LowestFree (2 ^ 32) :=
    { scanned := by decide
      free := by decide
      lowest := fun lower below =>
        pmmTestBlock_of_byte_full (if_pos (by omega)) }
  have number := (finds above16TiB notFull).lowest _ lowest
  rw [lowest.pmmFindFirstFree notFull] at number
  cases number

end HobbyOS
