import HobbyOS.PhysicalMemory.Accounting
import HobbyOS.PhysicalMemory.SingleBlock

namespace HobbyOS

/-!
# Which runs the search finds

`pmm_find_first_free_run` looks at the bits of a byte only when the byte is
clear or fewer than eight blocks are missing.  A run that starts inside a byte
is therefore counted from its start only when the streak in front of that byte
was nearly long enough already.  The search stops at the lowest run among
those it counts, so an allocation takes the lowest free run exactly when the
scan counts that run from its start.
-/

/-- The blocks from `first` up to `stop` are free. -/
def FreeBetween
    (memoryBlocks : Bitmap)
    (first stop : Nat) :
    Prop :=
  ∀ block,
    first ≤ block →
    block < stop →
    pmmTestBlock memoryBlocks block = false

/--
A streak that starts at the block is counted from there: the block starts a
byte, or a counted streak lacks at most seven blocks in front of its byte.
-/
inductive Counted (memoryBlocks : Bitmap) (size : SizeT) : Nat → Prop where
  | aligned
      {block : Nat}
      (startsByte : block % 8 = 0) :
      Counted memoryBlocks size block
  | entered
      {block earlier : Nat}
      (counted : Counted memoryBlocks size earlier)
      (long : earlier + (size.toNat - 7) ≤ block / 8 * 8)
      (free : FreeBetween memoryBlocks earlier (block / 8 * 8)) :
      Counted memoryBlocks size block

/-- A free run that is counted from its first block. -/
structure CountedRun
    (memoryBlocks : Bitmap)
    (size : SizeT)
    (first : Nat) :
    Prop where
  counted : Counted memoryBlocks size first
  free : FreeBetween memoryBlocks first (first + size.toNat)

/-- The lowest of the runs that are counted. -/
structure LowestCounted
    (memoryBlocks : Bitmap)
    (size : SizeT)
    (first : Nat) :
    Prop where
  run : CountedRun memoryBlocks size first
  lowest :
    ∀ other,
      CountedRun memoryBlocks size other →
      first ≤ other

/-- Requests of at most seven blocks count a streak wherever it starts. -/
theorem Counted.of_small
    {memoryBlocks : Bitmap}
    {size : SizeT}
    (small : size.toNat ≤ 7)
    (block : Nat) :
    Counted memoryBlocks size block := by
  have start : Counted memoryBlocks size (block / 8 * 8) :=
    .aligned (Nat.mul_mod_left _ _)
  refine .entered start (by omega) ?_
  intro other lower upper
  omega

/-- Only one run is the lowest. -/
theorem LowestCounted.unique
    {memoryBlocks : Bitmap}
    {size : SizeT}
    {first other : Nat}
    (lowest : LowestCounted memoryBlocks size first)
    (otherLowest : LowestCounted memoryBlocks size other) :
    first = other :=
  Nat.le_antisymm
    (lowest.lowest other otherLowest.run)
    (otherLowest.lowest first lowest.run)

/--
The run counter in front of `position`: it stands for the longest streak that
is counted, and no counted run ends at or below the position.
-/
structure CountsStreak
    (memoryBlocks : Bitmap)
    (size : SizeT)
    (position : Nat)
    (run : SizeT) :
    Prop
    extends Streak memoryBlocks size position run where
  counted :
    run = size ∨
      Counted memoryBlocks size (position - (size.toNat - run.toNat))
  longest :
    ∀ earlier ≤ position,
      Counted memoryBlocks size earlier →
      FreeBetween memoryBlocks earlier position →
      position - earlier ≤ size.toNat - run.toNat
  unfinished :
    ∀ first,
      CountedRun memoryBlocks size first →
      position < first + size.toNat

/-- A clear byte frees its eight blocks. -/
theorem pmmTestBlock_of_byte_zero
    {memoryBlocks : Bitmap}
    {block : Nat}
    (clear : memoryBlocks (block / 8) = 0) :
    pmmTestBlock memoryBlocks block = false := by
  simp [pmmTestBlock_eq_getLsbD, clear]

/-- A byte that is not clear has a reserved block. -/
theorem exists_reserved_of_byte_nonzero
    {memoryBlocks : Bitmap}
    {i : Nat}
    (notClear : memoryBlocks i ≠ 0) :
    ∃ block,
      i * 8 ≤ block ∧ block < (i + 1) * 8 ∧
        pmmTestBlock memoryBlocks block = true := by
  by_contra allFree
  push Not at allFree
  apply notClear
  apply BitVec.eq_of_getLsbD_eq
  intro bit inside
  have free := allFree (i * 8 + (7 - bit)) (by omega) (by omega)
  have byte : (i * 8 + (7 - bit)) / 8 = i := by omega
  have position : 7 - (i * 8 + (7 - bit)) % 8 = bit := by omega
  rw [pmmTestBlock_eq_getLsbD, byte, position] at free
  simpa using free

namespace CountsStreak

variable
  {memoryBlocks : Bitmap}
  {size run : SizeT}
  {position : Nat}

/-- Before the first block nothing is counted. -/
theorem initial
    (positive : 0 < size.toNat) :
    CountsStreak memoryBlocks size 0 size where
  toStreak := Streak.reset positive 0
  counted := Or.inl rfl
  longest := by
    intro earlier atStart _ _
    omega
  unfinished := by
    intro first _
    omega

/-- A reserved block ends every streak. -/
theorem passReserved
    (streak : CountsStreak memoryBlocks size position run)
    (positive : 0 < size.toNat)
    (taken : pmmTestBlock memoryBlocks position = true) :
    CountsStreak memoryBlocks size (position + 1) size where
  toStreak := Streak.reset positive _
  counted := Or.inl rfl
  longest := by
    intro earlier inside _ free
    by_contra longer
    have clear := free position (by omega) (by omega)
    rw [taken] at clear
    contradiction
  unfinished := by
    intro first counted
    have before := streak.unfinished first counted
    by_contra ends
    have clear := counted.free position (by omega) (by omega)
    rw [taken] at clear
    contradiction

/-- The first block of the streak is counted. -/
theorem counted_first
    (streak : CountsStreak memoryBlocks size position run)
    (starts : run = size → Counted memoryBlocks size position) :
    Counted memoryBlocks size (position - (size.toNat - run.toNat)) := by
  rcases streak.counted with fresh | counted
  · rw [fresh, Nat.sub_self, Nat.sub_zero]
    exact starts fresh
  · exact counted

/-- A free block extends the longest streak, or starts one. -/
theorem passFree
    (streak : CountsStreak memoryBlocks size position run)
    (starts : run = size → Counted memoryBlocks size position)
    (clear : pmmTestBlock memoryBlocks position = false)
    (remains : run - 1 ≠ 0) :
    CountsStreak memoryBlocks size (position + 1) (run - 1) := by
  have positive := streak.positive
  have bounded := streak.bounded
  have inside := streak.inside
  have counter : (run - 1).toNat = run.toNat - 1 := by bv_omega
  have remaining : (run - 1).toNat ≠ 0 := by bv_omega
  have shorter
      {earlier : Nat}
      (below : earlier ≤ position)
      (counted : Counted memoryBlocks size earlier)
      (free : FreeBetween memoryBlocks earlier (position + 1)) :
      position - earlier ≤ size.toNat - run.toNat := by
    refine streak.longest earlier below counted ?_
    intro block lower upper
    exact free block lower (by omega)
  refine ⟨streak.toStreak.extend clear remains, Or.inr ?_, ?_, ?_⟩
  · have start :
        position + 1 - (size.toNat - (run - 1).toNat) =
          position - (size.toNat - run.toNat) := by
      omega
    rw [start]
    exact streak.counted_first starts
  · intro earlier below counted free
    rcases Nat.lt_or_ge position earlier with newest | older
    · omega
    · have bound := shorter older counted free
      omega
  · intro first counted
    have before := streak.unfinished first counted
    by_contra ends
    have free : FreeBetween memoryBlocks first (position + 1) := by
      intro block lower upper
      exact counted.free block lower (by omega)
    have bound := shorter (by omega) counted.counted free
    omega

/-- A free block that exhausts the counter completes the lowest run. -/
theorem complete
    (streak : CountsStreak memoryBlocks size position run)
    (starts : run = size → Counted memoryBlocks size position)
    (clear : pmmTestBlock memoryBlocks position = false)
    (finished : run - 1 = 0) :
    LowestCounted memoryBlocks size (position + 1 - size.toNat) := by
  have inside := streak.inside
  have counter : run.toNat = 1 := by bv_omega
  have completed := streak.toStreak.complete clear finished
  refine ⟨⟨?_, ?_⟩, ?_⟩
  · have start :
        position + 1 - size.toNat =
          position - (size.toNat - run.toNat) := by
      have bounded := streak.bounded
      omega
    rw [start]
    exact streak.counted_first starts
  · intro block lower upper
    have bounded := streak.bounded
    exact completed.free block lower (by omega)
  · intro other counted
    have before := streak.unfinished other counted
    omega

/--
A block inside a byte is counted only when the counter in front of the byte is
at most seven.
-/
theorem le_seven_of_counted
    {i : Nat}
    (streak : CountsStreak memoryBlocks size (i * 8) run)
    {block : Nat}
    (lower : i * 8 < block)
    (upper : block < (i + 1) * 8)
    (counted : Counted memoryBlocks size block) :
    run.toNat ≤ 7 := by
  have bounded := streak.bounded
  have byte : block / 8 * 8 = i * 8 := by omega
  cases counted with
  | aligned startsByte =>
      omega
  | @entered _ earlier counted long free =>
      rw [byte] at long free
      have longest := streak.longest earlier (by omega) counted free
      omega

/-- A byte that is skipped holds a reserved block. -/
theorem exists_reserved_of_skipped
    {i : Nat}
    (skipped :
      (8 ≤ run.toNat ∧ memoryBlocks i ≠ 0) ∨ memoryBlocks i = 0xFF) :
    ∃ block,
      i * 8 ≤ block ∧ block < (i + 1) * 8 ∧
        pmmTestBlock memoryBlocks block = true := by
  apply exists_reserved_of_byte_nonzero
  rcases skipped with ⟨_, notClear⟩ | full
  · exact notClear
  · rw [full]
    decide

/-- A counted block inside a skipped byte is reserved. -/
theorem reserved_of_skipped
    {i : Nat}
    (streak : CountsStreak memoryBlocks size (i * 8) run)
    (skipped :
      (8 ≤ run.toNat ∧ memoryBlocks i ≠ 0) ∨ memoryBlocks i = 0xFF)
    {block : Nat}
    (lower : i * 8 < block)
    (upper : block < (i + 1) * 8)
    (counted : Counted memoryBlocks size block) :
    pmmTestBlock memoryBlocks block = true := by
  have few := streak.le_seven_of_counted lower upper counted
  rcases skipped with ⟨many, _⟩ | full
  · omega
  · apply pmmTestBlock_of_byte_full
    rw [show block / 8 = i by omega]
    exact full

/-- Skipping a byte forgets no streak that is counted. -/
theorem skipByte
    {i : Nat}
    (streak : CountsStreak memoryBlocks size (i * 8) run)
    (positive : 0 < size.toNat)
    (skipped :
      (8 ≤ run.toNat ∧ memoryBlocks i ≠ 0) ∨ memoryBlocks i = 0xFF) :
    CountsStreak memoryBlocks size ((i + 1) * 8) size where
  toStreak := Streak.reset positive _
  counted := Or.inl rfl
  longest := by
    obtain ⟨taken, lower, upper, reserved⟩ :=
      exists_reserved_of_skipped skipped
    intro earlier inside counted free
    by_contra longer
    rcases Nat.lt_or_ge (i * 8) earlier with within | before
    · have clear := free earlier (Nat.le_refl _) (by omega)
      rw [streak.reserved_of_skipped skipped within (by omega) counted]
        at clear
      contradiction
    · have clear := free taken (by omega) upper
      rw [reserved] at clear
      contradiction
  unfinished := by
    obtain ⟨taken, lower, upper, reserved⟩ :=
      exists_reserved_of_skipped skipped
    intro first counted
    have after := streak.unfinished first counted
    by_contra ends
    rcases Nat.lt_or_ge (i * 8) first with within | before
    · have clear := counted.free first (Nat.le_refl _) (by omega)
      rw [streak.reserved_of_skipped skipped within (by omega)
        counted.counted] at clear
      contradiction
    · have free : FreeBetween memoryBlocks first (i * 8) := by
        intro block lower upper
        exact counted.free block lower (by omega)
      have longest :=
        streak.longest first before counted.counted free
      have bounded := streak.bounded
      rcases skipped with ⟨many, _⟩ | full
      · have clear := counted.free taken (by omega) (by omega)
        rw [reserved] at clear
        contradiction
      · have clear := counted.free (i * 8) before after
        have byteFull : memoryBlocks (i * 8 / 8) = 0xFF := by
          rw [Nat.mul_div_cancel i (by omega)]
          exact full
        rw [pmmTestBlock_of_byte_full byteFull] at clear
        contradiction

/-- In a byte that is looked at, a fresh counter starts at a counted block. -/
theorem starts_of_entered
    {i : Nat}
    (streak : CountsStreak memoryBlocks size (i * 8) run)
    (entered :
      ¬((8 ≤ run.toNat ∧ memoryBlocks i ≠ 0) ∨ memoryBlocks i = 0xFF)) :
    memoryBlocks i = 0 ∨
      ∀ block,
        i * 8 ≤ block →
        block < (i + 1) * 8 →
        Counted memoryBlocks size block := by
  by_cases clear : memoryBlocks i = 0
  · exact Or.inl clear
  · have few : run.toNat ≤ 7 := by
      by_contra many
      exact entered (Or.inl ⟨by omega, clear⟩)
    have bounded := streak.bounded
    have inside := streak.inside
    refine Or.inr ?_
    intro block lower upper
    have byte : block / 8 * 8 = i * 8 := by omega
    rcases streak.counted with fresh | counted
    · rw [fresh] at few
      exact Counted.of_small few block
    · refine .entered counted (by omega) ?_
      rw [byte]
      exact streak.free

/-- A fresh counter in a byte that is looked at starts a counted streak. -/
theorem starts
    {i : Nat}
    (streak : CountsStreak memoryBlocks size position run)
    (lower : i * 8 ≤ position)
    (upper : position < (i + 1) * 8)
    (entered :
      memoryBlocks i = 0 ∨
        ∀ block,
          i * 8 ≤ block →
          block < (i + 1) * 8 →
          Counted memoryBlocks size block)
    (fresh : run = size) :
    Counted memoryBlocks size position := by
  rcases entered with clear | counted
  · have free : FreeBetween memoryBlocks (i * 8) position := by
      intro block above below
      apply pmmTestBlock_of_byte_zero
      rw [show block / 8 = i by omega]
      exact clear
    -- In a clear byte the counter is fresh in front of the first bit only.
    have longest :=
      streak.longest (i * 8) lower (.aligned (by omega)) free
    rw [fresh, Nat.sub_self] at longest
    exact .aligned (by omega)
  · exact counted position lower upper

end CountsStreak

section Search

variable
  {memoryBlocks : Bitmap}
  {size : SizeT}

/-- One byte keeps the longest streak, or completes the lowest run. -/
theorem findRunInByte_counts
    (positive : 0 < size.toNat)
    (i : Nat)
    (entered :
      memoryBlocks i = 0 ∨
        ∀ block,
          i * 8 ≤ block →
          block < (i + 1) * 8 →
          Counted memoryBlocks size block)
    {run : SizeT}
    (streak : CountsStreak memoryBlocks size (i * 8) run) :
    match findRunInByte size i (memoryBlocks i) 8 0 run with
    | .ok run' => CountsStreak memoryBlocks size ((i + 1) * 8) run'
    | .error last =>
        LowestCounted memoryBlocks size (last + 1 - size.toNat) := by
  refine
    @findRunInByte_rule memoryBlocks size (CountsStreak memoryBlocks size)
      (fun last =>
        LowestCounted memoryBlocks size (last + 1 - size.toNat))
      positive i ?_ ?_ ?_ 8 0 rfl run streak
  · intro _ _ _ _ streak reserved
    exact streak.passReserved positive reserved
  · intro _ _ lower upper streak free unfinished
    exact
      streak.passFree (streak.starts lower upper entered) free unfinished
  · intro _ _ lower upper streak free finished
    exact
      streak.complete (streak.starts lower upper entered) free finished

/-- The scan stops at the lowest counted run, or passes no counted run. -/
theorem findRunFrom_counts
    (positive : 0 < size.toNat)
    {bytes i : Nat}
    {run : SizeT}
    (streak : CountsStreak memoryBlocks size (i * 8) run) :
    match findRunFrom memoryBlocks size bytes i run with
    | some last =>
        LowestCounted memoryBlocks size (last + 1 - size.toNat)
    | none =>
        ∀ first,
          CountedRun memoryBlocks size first →
          (i + bytes) * 8 < first + size.toNat := by
  have scanned :=
    @findRunFrom_rule memoryBlocks size (CountsStreak memoryBlocks size)
      (fun last =>
        LowestCounted memoryBlocks size (last + 1 - size.toNat))
      (i + bytes)
      (fun _ streak skipped => streak.skipByte positive skipped)
      (fun _ streak entered =>
        findRunInByte_counts positive _
          (streak.starts_of_entered entered) streak)
      bytes i rfl run streak
  cases search : findRunFrom memoryBlocks size bytes i run with
  | some last =>
      rwa [search] at scanned
  | none =>
      rw [search] at scanned
      obtain ⟨_, streak⟩ := scanned
      exact streak.unfinished

end Search

/-- The search finds exactly the lowest counted run, if it is scanned. -/
theorem Pmm.lastOfRun_eq_some_iff
    {pmm : Pmm}
    {size : SizeT}
    (positive : 0 < size.toNat)
    (first : Nat) :
    pmm.lastOfRun size = some (first + size.toNat - 1) ↔
      LowestCounted pmm.memoryBlocks size first ∧
        first + size.toNat ≤ pmm.scannedBlocks := by
  have initial :
      CountsStreak pmm.memoryBlocks size (0 * 8) size :=
    CountsStreak.initial positive
  have counts :
      match pmm.lastOfRun size with
      | some last =>
          LowestCounted pmm.memoryBlocks size (last + 1 - size.toNat)
      | none =>
          ∀ first,
            CountedRun pmm.memoryBlocks size first →
            (0 + pmm.maxMemoryBlocks / 8) * 8 < first + size.toNat :=
    findRunFrom_counts positive initial
  rw [Nat.zero_add] at counts
  constructor
  · intro found
    rw [found] at counts
    have scanned := (Pmm.lastOfRun_spec positive found).2
    have position :
        first + size.toNat - 1 + 1 - size.toNat = first := by
      omega
    simp only [position] at counts
    exact ⟨counts, by omega⟩
  · rintro ⟨lowest, scanned⟩
    cases search : pmm.lastOfRun size with
    | none =>
        rw [search] at counts
        have beyond := counts first lowest.run
        unfold Pmm.scannedBlocks at scanned
        omega
    | some last =>
        rw [search] at counts
        have inside := (Pmm.lastOfRun_spec positive search).1.inside
        have same := counts.unique lowest
        congr 1
        omega

/-- The `size` blocks from `first` upwards are managed and free. -/
structure Pmm.IsFreeRun
    (pmm : Pmm)
    (size : SizeT)
    (first : Nat) :
    Prop where
  managed : first + size.toNat ≤ pmm.maxMemoryBlocks
  free :
    ∀ block,
      first ≤ block →
      block < first + size.toNat →
      ¬pmm.Reserved block

/-- The lowest run of `size` free managed blocks. -/
structure Pmm.LowestRun
    (pmm : Pmm)
    (size : SizeT)
    (first : Nat) :
    Prop where
  run : pmm.IsFreeRun size first
  lowest : ∀ other < first, ¬pmm.IsFreeRun size other

/--
An allocation takes the lowest free run whenever there is a free run: it
returns the run's address, which is not null, and reserves exactly the run.
-/
def AllocatesLowest (pmm : Pmm) (size : SizeT) : Prop :=
  ∀ first,
    pmm.LowestRun size first →
    (pmmAllocateBlocks pmm size).1 = blockAddress first ∧
      (pmmAllocateBlocks pmm size).1 ≠ 0 ∧
      ∀ block,
        (pmmAllocateBlocks pmm size).2.Reserved block ↔
          (first ≤ block ∧ block < first + size.toNat) ∨
            pmm.Reserved block

/--
The scan counts the lowest run: it is the lowest counted run of the scanned
blocks, up to the 32 bits its first block number is kept in, and its pointer
is not null.
-/
structure Pmm.ScanCounts
    (pmm : Pmm)
    (size : SizeT)
    (first : Nat) :
    Prop where
  counted :
    ∃ found,
      LowestCounted pmm.memoryBlocks size found ∧
        found + size.toNat ≤ pmm.scannedBlocks ∧
        found % 2 ^ 32 = first
  named : first % 2 ^ 20 ≠ 0

/-- A pointer to a block is null exactly for multiples of 4 GiB. -/
theorem blockAddress_eq_zero_iff (block : Nat) :
    blockAddress block = 0 ↔ block % 2 ^ 20 = 0 := by
  have value : (blockAddress block).toNat = block * 4096 % 2 ^ 32 :=
    BitVec.toNat_ofNat _ _
  constructor
  · intro null
    rw [null] at value
    have product : 0 = block * 4096 % 2 ^ 32 := value
    omega
  · intro multiple
    apply BitVec.eq_of_toNat_eq
    rw [value]
    show block * 4096 % 2 ^ 32 = 0
    omega

/-- A run that the scan counts is the one an allocation takes. -/
theorem Pmm.ScanCounts.allocates
    {pmm : Pmm}
    {size : SizeT}
    {first : Nat}
    (counts : pmm.ScanCounts size first)
    (accounted : pmm.Accounted)
    (positive : 1 ≤ size.toNat)
    (lowest : pmm.LowestRun size first) :
    pmmAllocateBlocks pmm size =
      (blockAddress first, pmm.reserve first size) := by
  obtain ⟨found, lowestCounted, scanned, same⟩ := counts.counted
  have named := counts.named
  have enough := accounted.enough lowest.run.managed lowest.run.free
  have search :=
    (Pmm.lastOfRun_eq_some_iff positive found).mpr
      ⟨lowestCounted, scanned⟩
  have notZero : found % 2 ^ 32 ≠ 0 := by omega
  have pointer :
      BitVec.ofNat 32 (found * 4096) = BitVec.ofNat 32 (first * 4096) := by
    apply BitVec.eq_of_toNat_eq
    rw [BitVec.toNat_ofNat, BitVec.toNat_ofNat, ← same,
      Nat.mod_mul_mod]
  rw [pmmAllocateBlocks_of_found positive enough search notZero, same,
    pointer]
  rfl

/-- The allocation that takes the lowest run took a run the scan counts. -/
theorem Pmm.scanCounts_of_allocates
    {pmm : Pmm}
    {size : SizeT}
    {first : Nat}
    (positive : 1 ≤ size.toNat)
    (lowest : pmm.LowestRun size first)
    (pointer : (pmmAllocateBlocks pmm size).1 = blockAddress first)
    (notNull : (pmmAllocateBlocks pmm size).1 ≠ 0)
    (takes :
      ∀ block,
        (pmmAllocateBlocks pmm size).2.Reserved block ↔
          (first ≤ block ∧ block < first + size.toNat) ∨
            pmm.Reserved block) :
    pmm.ScanCounts size first := by
  have bounded := size.isLt
  have named : first % 2 ^ 20 ≠ 0 := by
    intro multiple
    rw [pointer] at notNull
    exact notNull ((blockAddress_eq_zero_iff first).mpr multiple)
  have allocates := pmmAllocateBlocks_allocates pmm positive
  revert allocates notNull takes
  generalize pmmAllocateBlocks pmm size = result
  intro notNull takes allocates
  cases allocates with
  | refused =>
      exact (notNull rfl).elim
  | @granted found _ _ _ search =>
      obtain ⟨lowestCounted, scanned⟩ :=
        (Pmm.lastOfRun_eq_some_iff positive found).mp search
      -- The free blocks of the run lie in the range that was marked.
      have marked
          (block : Nat)
          (lower : first ≤ block)
          (upper : block < first + size.toNat) :
          found % 2 ^ 32 ≤ block ∧
            block < found % 2 ^ 32 + size.toNat := by
        have taken := (takes block).mpr (Or.inl ⟨lower, upper⟩)
        rw [Pmm.reserved_reserve] at taken
        exact taken.resolve_right (lowest.run.free block lower upper)
      have lower := (marked first (Nat.le_refl _) (by omega)).1
      have upper :=
        (marked (first + size.toNat - 1) (by omega) (by omega)).2
      exact ⟨⟨found, lowestCounted, scanned, by omega⟩, named⟩

/--
An allocation takes the lowest free run whenever there is one exactly when the
scan counts that run.
-/
theorem pmmAllocateBlocks_lowest_iff
    {pmm : Pmm}
    (accounted : pmm.Accounted)
    {size : SizeT}
    (positive : 1 ≤ size.toNat) :
    AllocatesLowest pmm size ↔
      ∀ first,
        pmm.LowestRun size first →
        pmm.ScanCounts size first := by
  constructor
  · intro allocates first lowest
    obtain ⟨pointer, notNull, takes⟩ := allocates first lowest
    exact Pmm.scanCounts_of_allocates positive lowest pointer notNull takes
  · intro counts first lowest
    have counted := counts first lowest
    rw [counted.allocates accounted positive lowest]
    refine ⟨rfl, ?_, ?_⟩
    · intro null
      exact counted.named ((blockAddress_eq_zero_iff first).mp null)
    · exact Pmm.reserved_reserve pmm first size

/-- Three blocks are taken from the eight free ones behind the first byte. -/
theorem pmmAllocateBlocks_lowest_iff_sixteenBlocks :
    AllocatesLowest sixteenBlocks 3 := by
  have accounted : sixteenBlocks.Accounted := by
    decide
  have free :
      ∀ block < 16, sixteenBlocks.Reserved block ↔ block < 8 := by
    decide
  have size : (3 : SizeT).toNat = 3 := rfl
  have scanned : sixteenBlocks.scannedBlocks = 16 := rfl
  have managed : sixteenBlocks.maxMemoryBlocks = 16 := rfl
  refine (pmmAllocateBlocks_lowest_iff accounted (by decide)).mpr ?_
  intro first lowest
  have firstManaged := lowest.run.managed
  have firstFree := lowest.run.free first (Nat.le_refl _) (by omega)
  rw [free first (by omega)] at firstFree
  have eight : sixteenBlocks.IsFreeRun 3 8 := by
    refine ⟨by decide, ?_⟩
    intro block lower upper
    rw [free block (by omega)]
    omega
  obtain rfl : first = 8 := by
    by_contra different
    exact lowest.lowest 8 (by omega) eight
  refine ⟨⟨8, ⟨⟨Counted.of_small (by decide) 8, ?_⟩, ?_⟩, ?_, ?_⟩, ?_⟩
  · intro block lower upper
    exact Bool.eq_false_iff.mpr (eight.free block lower upper)
  · intro other counted
    by_contra below
    have otherFree := counted.free other (Nat.le_refl _) (by omega)
    have reserved := (free other (by omega)).mpr (by omega)
    rw [Pmm.Reserved, otherFree] at reserved
    contradiction
  · decide
  · decide
  · decide

/-- A manager of sixteen blocks, of which the eight in the middle are free. -/
def middleBlocks : Pmm where
  memoryBlocks := fun index => if index = 0 then 0xF0 else 0x0F
  maxMemoryBlocks := 16
  usedMemoryBlocks := 8
  fits := sixteenBlocks.fits

/-- The eight free blocks in the middle of two bytes are not found. -/
theorem pmmAllocateBlocks_lowest_fails :
    ¬∀ (pmm : Pmm) (size : SizeT),
      pmm.Accounted →
      pmm.Reserved 0 →
      1 ≤ size.toNat →
      AllocatesLowest pmm size := by
  intro complete
  have accounted : middleBlocks.Accounted := by
    decide
  have free :
      ∀ block < 16,
        middleBlocks.Reserved block ↔ block < 4 ∨ 12 ≤ block := by
    decide
  have size : (8 : SizeT).toNat = 8 := rfl
  have run : middleBlocks.IsFreeRun 8 4 := by
    refine ⟨by decide, ?_⟩
    intro block lower upper
    rw [free block (by omega)]
    omega
  have lowest : middleBlocks.LowestRun 8 4 := by
    refine ⟨run, ?_⟩
    intro other below otherRun
    refine otherRun.free other (Nat.le_refl _) (by omega) ?_
    exact (free other (by omega)).mpr (Or.inl below)
  have refused : (pmmAllocateBlocks middleBlocks 8).1 = 0 := by
    decide
  exact (complete middleBlocks 8 accounted (by decide) (by decide)
    4 lowest).2.1 refused

end HobbyOS
