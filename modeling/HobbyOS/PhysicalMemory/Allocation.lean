import Mathlib.Algebra.BigOperators.Group.List.Basic
import Mathlib.Algebra.GroupWithZero.Nat
import HobbyOS.Library.Ownership
import HobbyOS.PhysicalMemory.RunSearch

namespace HobbyOS

open Library

/-!
# Allocation and release of blocks

`pmm_allocate_blocks` either leaves the state alone or reserves a free run of
the scanned blocks.  A client that frees only what it holds therefore turns
the bitmap into a ledger: every live allocation owns its blocks exclusively,
and the bitmap is the starting bitmap together with the owned blocks.
-/

/-- Reserve `size` blocks from `first` upwards, as an allocation does. -/
def Pmm.reserve (pmm : Pmm) (first : Nat) (size : SizeT) : Pmm :=
  { pmm with
    memoryBlocks := setBlocks pmm.memoryBlocks first size.toNat
    usedMemoryBlocks := pmm.usedMemoryBlocks + size.setWidth 64 }

/-- Reserving adds exactly the blocks of the run. -/
@[simp] theorem Pmm.reserved_reserve
    (pmm : Pmm)
    (first : Nat)
    (size : SizeT)
    (block : Nat) :
    (pmm.reserve first size).Reserved block ↔
      (first ≤ block ∧ block < first + size.toNat) ∨
        pmm.Reserved block := by
  simp [Reserved, reserve]

/-- Freeing removes exactly the blocks of the range. -/
@[simp] theorem Pmm.reserved_pmmFreeBlocks
    (pmm : Pmm)
    (address : PtrT)
    (size : SizeT)
    (block : Nat) :
    (pmmFreeBlocks pmm address size).Reserved block ↔
      ¬(address.toNat / 4096 ≤ block ∧
          block < address.toNat / 4096 + size.toNat) ∧
        pmm.Reserved block := by
  simp only [Reserved, pmmFreeBlocks, pmmTestBlock_unsetBlocks,
    Bool.and_eq_true, decide_eq_true_eq]

/-- The first block of a run, from the last one, in 32-bit arithmetic. -/
theorem toNat_firstOfRun
    {size : SizeT}
    {last : Nat}
    (positive : 0 < size.toNat)
    (inside : size.toNat ≤ last + 1) :
    (BitVec.ofNat 32 last - (size - 1)).toNat =
      (last + 1 - size.toNat) % 2 ^ 32 := by
  have lastValue : (BitVec.ofNat 32 last).toNat = last % 2 ^ 32 :=
    BitVec.toNat_ofNat last 32
  bv_omega

/--
What an allocation of a positive size can do.  The run is found among all
scanned blocks, but its number is kept in 32 bits before it is marked.
-/
inductive Allocates (pmm : Pmm) (size : SizeT) : PtrT × Pmm → Prop where
  | refused :
      Allocates pmm size (0, pmm)
  | granted
      {first : Nat}
      (notZero : first % 2 ^ 32 ≠ 0)
      (scanned : first + size.toNat ≤ pmm.scannedBlocks)
      (free :
        ∀ block,
          first ≤ block →
          block < first + size.toNat →
          ¬pmm.Reserved block)
      (found : pmm.lastOfRun size = some (first + size.toNat - 1)) :
      Allocates pmm size
        (BitVec.ofNat 32 (first * 4096),
          pmm.reserve (first % 2 ^ 32) size)

/-- The first block of the run that the search stops at. -/
theorem pmmFindFirstFreeRun_of_found
    {pmm : Pmm}
    {size : SizeT}
    (positive : 0 < size.toNat)
    {first : Nat}
    (found : pmm.lastOfRun size = some (first + size.toNat - 1)) :
    pmmFindFirstFreeRun pmm size = BitVec.ofNat 32 first := by
  have firstValue :=
    @toNat_firstOfRun size (first + size.toNat - 1) positive (by omega)
  have position : first + size.toNat - 1 + 1 - size.toNat = first := by
    omega
  rw [position] at firstValue
  rw [pmmFindFirstFreeRun, found]
  apply BitVec.eq_of_toNat_eq
  rw [BitVec.toNat_ofNat]
  exact firstValue

/-- A block number that is not 0 in 32 bits. -/
theorem ofNat_ne_zero
    {first : Nat}
    (notZero : first % 2 ^ 32 ≠ 0) :
    BitVec.ofNat 32 first ≠ 0 := by
  intro zero
  have value := congrArg BitVec.toNat zero
  rw [BitVec.toNat_ofNat] at value
  exact notZero value

/-- What an allocation returns for the run that the search stops at. -/
theorem pmmAllocateBlocks_of_found
    {pmm : Pmm}
    {size : SizeT}
    (positive : 0 < size.toNat)
    (enough :
      ¬BitVec.ofNat 64 pmm.maxMemoryBlocks - pmm.usedMemoryBlocks <
        size.setWidth 64)
    {first : Nat}
    (found : pmm.lastOfRun size = some (first + size.toNat - 1))
    (notZero : first % 2 ^ 32 ≠ 0) :
    pmmAllocateBlocks pmm size =
      (BitVec.ofNat 32 (first * 4096),
        pmm.reserve (first % 2 ^ 32) size) := by
  have pointer :
      BitVec.ofNat 32 first * 4096 = BitVec.ofNat 32 (first * 4096) :=
    (BitVec.ofNat_mul first 4096).symm
  rw [pmmAllocateBlocks, if_neg enough,
    pmmFindFirstFreeRun_of_found positive found]
  simp only [ofNat_ne_zero notZero, ↓reduceIte, pointer]
  rfl

/-- An allocation is refused, or marks a run that the search found free. -/
theorem pmmAllocateBlocks_allocates
    (pmm : Pmm)
    {size : SizeT}
    (positive : 0 < size.toNat) :
    Allocates pmm size (pmmAllocateBlocks pmm size) := by
  by_cases refused :
      BitVec.ofNat 64 pmm.maxMemoryBlocks - pmm.usedMemoryBlocks <
        size.setWidth 64
  · rw [pmmAllocateBlocks, if_pos refused]
    exact .refused
  · cases search : pmm.lastOfRun size with
    | none =>
        rw [pmmAllocateBlocks, if_neg refused]
        simp only [pmmFindFirstFreeRun, search, ↓reduceIte]
        exact .refused
    | some last =>
        obtain ⟨run, scanned⟩ := Pmm.lastOfRun_spec positive search
        have inside := run.inside
        have firstValue := toNat_firstOfRun positive inside
        obtain ⟨first, rfl⟩ :
            ∃ first, last = first + size.toNat - 1 :=
          ⟨last + 1 - size.toNat, by omega⟩
        have position :
            first + size.toNat - 1 + 1 - size.toNat = first := by
          omega
        rw [position] at firstValue
        by_cases zero : first % 2 ^ 32 = 0
        · have start :
              BitVec.ofNat 32 (first + size.toNat - 1) - (size - 1) = 0 :=
            BitVec.eq_of_toNat_eq (firstValue.trans zero)
          rw [pmmAllocateBlocks, if_neg refused]
          simp only [pmmFindFirstFreeRun, search, start, ↓reduceIte]
          exact .refused
        · have free
              (block : Nat)
              (lower : first ≤ block)
              (upper : block < first + size.toNat) :
              ¬pmm.Reserved block := by
            have clear := run.free block (by omega) (by omega)
            simp [Pmm.Reserved, clear]
          rw [pmmAllocateBlocks_of_found positive refused search zero]
          exact .granted zero (by omega) free search

/-- An allocation that returns the null pointer below 4 GiB changes nothing. -/
theorem Allocates.unchanged_of_null
    {pmm : Pmm}
    {size : SizeT}
    {result : PtrT × Pmm}
    (allocates : Allocates pmm size result)
    (positive : 0 < size.toNat)
    (small : pmm.scannedBlocks ≤ 2 ^ 20)
    (null : result.1 = 0) :
    result.2 = pmm := by
  cases allocates with
  | refused =>
      rfl
  | @granted first notZero scanned free _ =>
      exfalso
      have value := congrArg BitVec.toNat null
      rw [BitVec.toNat_ofNat, Nat.mod_eq_of_lt (by omega)] at value
      have product : first * 4096 = 0 := value
      omega

/-- No allocation changes the number of managed blocks. -/
@[simp] theorem pmmAllocateBlocks_maxMemoryBlocks
    (pmm : Pmm)
    (size : SizeT) :
    (pmmAllocateBlocks pmm size).2.maxMemoryBlocks =
      pmm.maxMemoryBlocks := by
  unfold pmmAllocateBlocks
  split
  · rfl
  · simp only []
    split <;> rfl

/-- One allocation as its client knows it. -/
structure Allocation where
  pointer : PtrT
  size : SizeT
  deriving DecidableEq

/-- The blocks of an allocation. -/
def Allocation.Owns (allocation : Allocation) (block : Nat) : Prop :=
  allocation.pointer.toNat / 4096 ≤ block ∧
    block < allocation.pointer.toNat / 4096 + allocation.size.toNat

/-- An allocation answers a request for its size. -/
def Allocation.Answers (size : SizeT) (allocation : Allocation) : Prop :=
  allocation.size = size

/-- The manager together with the allocations its clients hold. -/
structure PmmClient where
  pmm : Pmm
  live : List Allocation

/-- A client calls `pmm_allocate_blocks` and keeps a non-null result. -/
def PmmClient.allocate (client : PmmClient) (size : SizeT) : PmmClient :=
  let result := pmmAllocateBlocks client.pmm size
  { pmm := result.2
    live :=
      if result.1 = 0 then client.live
      else ⟨result.1, size⟩ :: client.live }

/-- A client calls `pmm_free_blocks` and forgets the allocation. -/
def PmmClient.free (client : PmmClient) (allocation : Allocation) :
    PmmClient where
  pmm := pmmFreeBlocks client.pmm allocation.pointer allocation.size
  live := client.live.erase allocation

/-- Requests of positive size, and releases of live allocations. -/
inductive PmmStep :
    LedgerEvent SizeT Allocation → PmmClient → PmmClient → Prop where
  | allocate
      {size : SizeT}
      {client : PmmClient}
      (positive : 1 ≤ size.toNat) :
      PmmStep (.request size) client (client.allocate size)
  | free
      {allocation : Allocation}
      {client : PmmClient}
      (held : allocation ∈ client.live) :
      PmmStep (.release allocation) client (client.free allocation)

/-- Sum of the sizes of allocations. -/
def totalSize (allocations : List Allocation) : Nat :=
  (allocations.map fun allocation => allocation.size.toNat).sum

/-- Releasing one allocation takes its size off the sum. -/
theorem totalSize_erase
    {allocations : List Allocation}
    {allocation : Allocation}
    (held : allocation ∈ allocations) :
    totalSize allocations =
      allocation.size.toNat + totalSize (allocations.erase allocation) := by
  have arranged :=
    (List.perm_cons_erase held).map
      fun allocation => allocation.size.toNat
  simpa [totalSize] using arranged.sum_eq

/-- Blocks a client may be given: managed, not block 0, free at the start. -/
def Grantable (start : Pmm) (block : Nat) : Prop :=
  block ≠ 0 ∧ block < start.maxMemoryBlocks ∧ ¬start.Reserved block

/-- The manager's state is the start state plus the ledger's entries. -/
structure TracksLedger
    (start : Pmm)
    (client : PmmClient)
    (ledger : Ledger Allocation.Owns (Grantable start)) :
    Prop where
  live : client.live = ledger.entries
  managed : client.pmm.maxMemoryBlocks = start.maxMemoryBlocks
  bitmap :
    ∀ block,
      client.pmm.Reserved block ↔
        start.Reserved block ∨ ledger.Owned block
  used :
    client.pmm.usedMemoryBlocks.toNat =
      (start.usedMemoryBlocks.toNat + totalSize client.live) % 2 ^ 64

namespace TracksLedger

variable
  {start : Pmm}
  {client : PmmClient}
  {ledger : Ledger Allocation.Owns (Grantable start)}

/-- An allocation grants a ledger entry of the requested size, or refuses. -/
theorem allocate
    (tracks : TracksLedger start client ledger)
    (small : start.maxMemoryBlocks ≤ 2 ^ 20)
    {size : SizeT}
    (positive : 1 ≤ size.toNat) :
    ∃ ledger',
      Ledger.Step Allocation.Answers (.request size) ledger ledger' ∧
        TracksLedger start (client.allocate size) ledger' := by
  have managed := tracks.managed
  have scannedSmall : client.pmm.scannedBlocks ≤ 2 ^ 20 :=
    client.pmm.scannedBlocks_le.trans (by omega)
  have allocates := pmmAllocateBlocks_allocates client.pmm positive
  unfold PmmClient.allocate
  revert allocates
  generalize pmmAllocateBlocks client.pmm size = result
  intro allocates
  cases allocates with
  | refused =>
      exact ⟨ledger, .refuse, tracks⟩
  | @granted first notZero scanned free _ =>
      have exact32 : first % 2 ^ 32 = first := by
        rw [Nat.mod_eq_of_lt]
        omega
      rw [exact32]
      rw [exact32] at notZero
      have value :
          (BitVec.ofNat 32 (first * 4096)).toNat = first * 4096 :=
        Nat.mod_eq_of_lt (by omega)
      have firstBlock :
          (BitVec.ofNat 32 (first * 4096)).toNat / 4096 = first := by
        omega
      have notNull : BitVec.ofNat 32 (first * 4096) ≠ 0 := by
        intro null
        have product : first * 4096 = 0 :=
          value.symm.trans (congrArg BitVec.toNat null)
        omega
      have fresh :
          ∀ block,
            Allocation.Owns ⟨BitVec.ofNat 32 (first * 4096), size⟩ block →
            Grantable start block ∧ ¬ledger.Owned block := by
        rintro block ⟨lower, upper⟩
        simp only [firstBlock] at lower upper
        have clear := free block lower upper
        rw [tracks.bitmap block, not_or] at clear
        have bounded : block < start.maxMemoryBlocks := by
          have within := client.pmm.scannedBlocks_le
          omega
        exact ⟨⟨by omega, bounded, clear.1⟩, clear.2⟩
      have answers :
          Allocation.Answers size
            ⟨BitVec.ofNat 32 (first * 4096), size⟩ :=
        rfl
      refine ⟨ledger.grant _ fresh, .grant answers fresh, ?_⟩
      simp only [notNull, ↓reduceIte]
      refine ⟨?_, managed, ?_, ?_⟩
      · simp [Ledger.grant, tracks.live]
      · intro block
        rw [Pmm.reserved_reserve, tracks.bitmap block,
          Ledger.owned_grant ledger fresh block]
        simp only [Allocation.Owns, firstBlock]
        tauto
      · have used := tracks.used
        have bounded := size.isLt
        simp only [Pmm.reserve, BitVec.toNat_add, BitVec.toNat_setWidth,
          totalSize, List.map_cons, List.sum_cons] at used ⊢
        omega

/-- Freeing a live allocation releases its ledger entry. -/
theorem free
    (tracks : TracksLedger start client ledger)
    {allocation : Allocation}
    (held : allocation ∈ client.live) :
    ∃ ledger',
      Ledger.Step Allocation.Answers (.release allocation) ledger ledger' ∧
        TracksLedger start (client.free allocation) ledger' := by
  have granted : allocation ∈ ledger.entries := tracks.live ▸ held
  refine ⟨ledger.release allocation, .release granted,
    ?_, tracks.managed, ?_, ?_⟩
  · simp [PmmClient.free, Ledger.release, tracks.live]
  · intro block
    have notStart :
        allocation.Owns block → ¬start.Reserved block :=
      fun owned => (ledger.inside allocation granted block owned).2.2
    simp only [PmmClient.free, Pmm.reserved_pmmFreeBlocks,
      tracks.bitmap block, Ledger.owned_release ledger granted block]
    unfold Allocation.Owns at notStart ⊢
    tauto
  · have used := tracks.used
    have total := totalSize_erase held
    have bounded := allocation.size.isLt
    simp only [PmmClient.free, pmmFreeBlocks, BitVec.toNat_sub,
      BitVec.toNat_setWidth] at used ⊢
    omega

/-- Every step of a client is a step of the ledger. -/
theorem step
    (small : start.maxMemoryBlocks ≤ 2 ^ 20)
    {event : LedgerEvent SizeT Allocation}
    {before after : PmmClient}
    {ledger : Ledger Allocation.Owns (Grantable start)}
    (tracks : TracksLedger start before ledger)
    (stepped : PmmStep event before after) :
    ∃ ledger',
      Ledger.Step Allocation.Answers event ledger ledger' ∧
        TracksLedger start after ledger' := by
  cases stepped with
  | allocate positive =>
      exact tracks.allocate small positive
  | free held =>
      exact tracks.free held

end TracksLedger

/--
What holds between the start state of the manager and a later state in which
the client holds `client.live`.
-/
structure OwnsLiveBlocks (start : Pmm) (client : PmmClient) : Prop where
  exclusive :
    client.live.Pairwise fun first second =>
      ∀ block, first.Owns block → ¬second.Owns block
  grantable :
    ∀ allocation ∈ client.live,
      ∀ block, allocation.Owns block → Grantable start block
  bitmap :
    ∀ block,
      client.pmm.Reserved block ↔
        start.Reserved block ∨
          ∃ allocation ∈ client.live, allocation.Owns block
  used :
    client.pmm.usedMemoryBlocks.toNat =
      (start.usedMemoryBlocks.toNat + totalSize client.live) % 2 ^ 64
  refusal :
    ∀ size : SizeT,
      1 ≤ size.toNat →
      (pmmAllocateBlocks client.pmm size).1 = 0 →
      (pmmAllocateBlocks client.pmm size).2 = client.pmm

/-- A state that tracks a ledger owns its live blocks exclusively. -/
theorem TracksLedger.ownsLiveBlocks
    {start : Pmm}
    {client : PmmClient}
    {ledger : Ledger Allocation.Owns (Grantable start)}
    (small : start.maxMemoryBlocks ≤ 2 ^ 20)
    (tracks : TracksLedger start client ledger) :
    OwnsLiveBlocks start client := by
  have managed := tracks.managed
  have scannedSmall : client.pmm.scannedBlocks ≤ 2 ^ 20 :=
    client.pmm.scannedBlocks_le.trans (by omega)
  refine ⟨?_, ?_, ?_, tracks.used, ?_⟩
  · rw [tracks.live]
    exact ledger.exclusive
  · rw [tracks.live]
    exact ledger.inside
  · intro block
    rw [tracks.bitmap block, tracks.live]
    rfl
  · intro size positive null
    have allocates := pmmAllocateBlocks_allocates client.pmm positive
    exact allocates.unchanged_of_null positive scannedSmall null

/-- At the start nothing is live and the ledger is empty. -/
theorem TracksLedger.initial (start : Pmm) :
    TracksLedger start ⟨start, []⟩ Ledger.empty where
  live := rfl
  managed := rfl
  bitmap := by
    intro block
    simp
  used := by
    simp only [totalSize, List.map_nil, List.sum_nil, Nat.add_zero]
    exact (Nat.mod_eq_of_lt start.usedMemoryBlocks.isLt).symm

/--
In every state a client reaches, the live allocations own their blocks
exclusively and the bitmap is the starting bitmap plus exactly those blocks.
-/
theorem pmmRun_ownsLiveBlocks
    {start : Pmm}
    (small : start.maxMemoryBlocks ≤ 2 ^ 20)
    {events : List (LedgerEvent SizeT Allocation)}
    {client : PmmClient}
    (run : Run PmmStep ⟨start, []⟩ events client) :
    OwnsLiveBlocks start client := by
  obtain ⟨ledger, _, tracks⟩ :=
    run.simulate (Ledger.Step Allocation.Answers) (TracksLedger start)
      (TracksLedger.step small) (TracksLedger.initial start)
  exact tracks.ownsLiveBlocks small

/-- A manager of sixteen blocks, of which the first eight are reserved. -/
def sixteenBlocks : Pmm where
  memoryBlocks := fun index => if index = 0 then 0xFF else 0
  maxMemoryBlocks := 16
  usedMemoryBlocks := 8
  fits := by decide

/-- Three blocks taken, two more taken, and the first three returned. -/
theorem pmmRun_ownsLiveBlocks_sixteenBlocks :
    OwnsLiveBlocks sixteenBlocks
      ((((PmmClient.mk sixteenBlocks []).allocate 3).allocate 2).free
        ⟨0x8000, 3⟩) := by
  have three : 1 ≤ (3 : SizeT).toNat := by decide
  have two : 1 ≤ (2 : SizeT).toNat := by decide
  exact pmmRun_ownsLiveBlocks (by decide)
    (((Run.nil.snoc (PmmStep.allocate three)).snoc
      (PmmStep.allocate two)).snoc (PmmStep.free (by decide)))

end HobbyOS
