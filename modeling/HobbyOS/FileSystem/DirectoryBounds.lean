import HobbyOS.FileSystem.DirectorySearch

namespace HobbyOS

open Library

/-!
# The end of the root directory

The loop of `find_entry` is bounded by the contents of the directory only: by
an entry that starts with 0, or by the entry it looks for.  It stays in the
512 entries of `RootDirectory` exactly if one of them stops it.
-/

/-- The entries that the loop of `find_entry` inspects, in order. -/
def findEntryVisits
    (memory : Memory)
    (nameExt : PtrT) :
    Nat → PtrT → List PtrT
  | 0, _ => []
  | fuel + 1, entry =>
      entry ::
        if memory entry ≠ 0 then
          if memcmp memory entry nameExt 11 = 0 then
            []
          else
            findEntryVisits memory nameExt fuel
              (entry + BitVec.ofNat 32 directoryEntrySize)
        else
          []

/-- The bytes from an address on. -/
def bytesFrom (memory : Memory) (address : PtrT) (offset : Nat) : Byte :=
  memory (address + BitVec.ofNat 32 offset)

/--
`find_entry` ends with the first matching entry in front of the end marker, or
with 0 if there is none, and inspects entries of `RootDirectory` only.
-/
structure FindsFirst
    (memory : Memory)
    (rootDirectory nameExt : PtrT) :
    Prop where
  inspects :
    ∀ fuel,
      ∀ entry ∈ findEntryVisits memory nameExt fuel rootDirectory,
        ∃ number < 512,
          entry = rootDirectory + BitVec.ofNat 32 (number * 32)
  finds :
    ∃ selected,
      Selects (bytesFrom memory rootDirectory) (bytesFrom memory nameExt)
        selected ∧
      ∃ fuel,
        findEntry fuel memory rootDirectory nameExt =
          some
            (match selected with
            | some entry => rootDirectory + BitVec.ofNat 32 (entry * 32)
            | none => 0)

section Directories

variable
  {memory : Memory}
  {rootDirectory nameExt : PtrT}

/-- `memcmp` compares the name of an entry. -/
theorem memcmp_eq_zero_iff_matches
    {entry : Nat} :
    memcmp memory (rootDirectory + BitVec.ofNat 32 (entry * 32)) nameExt
          11 =
        0 ↔
      Matches (bytesFrom memory rootDirectory) (bytesFrom memory nameExt)
        entry := by
  rw [memcmp_eq_zero_iff]
  unfold Matches bytesFrom
  refine forall_congr' fun offset => forall_congr' fun _ => ?_
  rw [BitVec.add_assoc, ← BitVec.ofNat_add]

/-- The loop goes on behind entries without the marker and the name. -/
theorem kernelProbe_eq_none_iff
    {entry : Nat} :
    kernelProbe memory rootDirectory nameExt entry = none ↔
      bytesFrom memory rootDirectory (entry * 32) ≠ 0 ∧
        ¬Matches (bytesFrom memory rootDirectory)
          (bytesFrom memory nameExt) entry := by
  rw [kernelProbe, ← memcmp_eq_zero_iff_matches]
  unfold bytesFrom
  split
  · simp_all
  · split <;> simp_all

/-- The inspected entries are the probed positions. -/
theorem findEntryVisits_eq_probed
    (fuel entry : Nat) :
    findEntryVisits memory nameExt fuel
        (rootDirectory + BitVec.ofNat 32 (entry * 32)) =
      (probed (kernelProbe memory rootDirectory nameExt) fuel entry).map
        fun number => rootDirectory + BitVec.ofNat 32 (number * 32) := by
  induction fuel generalizing entry with
  | zero =>
      rfl
  | succ fuel inductionHypothesis =>
      have next :
          rootDirectory + BitVec.ofNat 32 (entry * 32) +
              BitVec.ofNat 32 directoryEntrySize =
            rootDirectory + BitVec.ofNat 32 ((entry + 1) * 32) := by
        rw [directoryEntrySize, Nat.succ_mul, BitVec.ofNat_add,
          ← BitVec.add_assoc]
      rw [findEntryVisits, probed, List.map_cons, next, inductionHypothesis,
        kernelProbe]
      congr 1
      by_cases marker :
          memory (rootDirectory + BitVec.ofNat 32 (entry * 32)) = 0
      · rw [if_neg (not_not.mpr marker), if_pos marker]
        rfl
      · rw [if_pos marker, if_neg marker]
        split
        · rfl
        · rfl

/-- The loop stays in the directory exactly if an entry of it stops it. -/
theorem findEntryVisits_inside_iff :
    (∀ fuel,
        ∀ entry ∈ findEntryVisits memory nameExt fuel rootDirectory,
          ∃ number < 512,
            entry = rootDirectory + BitVec.ofNat 32 (number * 32)) ↔
      ∃ entry < 512,
        kernelProbe memory rootDirectory nameExt entry ≠ none := by
  have fromStart (fuel : Nat) :
      findEntryVisits memory nameExt fuel rootDirectory =
        (probed (kernelProbe memory rootDirectory nameExt) fuel 0).map
          fun number => rootDirectory + BitVec.ofNat 32 (number * 32) := by
    rw [← findEntryVisits_eq_probed, Nat.zero_mul, BitVec.add_zero]
  rw [← probed_below_iff]
  constructor
  · intro inside
    by_contra outside
    push Not at outside
    obtain ⟨fuel, position, reached, beyond⟩ := outside
    -- All positions in front of the one outside are probed, 512 too.
    obtain ⟨_, _, before⟩ := mem_probed_iff.mp reached
    have last :
        512 ∈ probed (kernelProbe memory rootDirectory nameExt) 513 0 :=
      mem_probed_iff.mpr
        ⟨Nat.zero_le 512, by omega, fun other lower upper =>
          before other lower (Nat.lt_of_lt_of_le upper beyond)⟩
    obtain ⟨number, small, same⟩ :=
      inside 513 (rootDirectory + BitVec.ofNat 32 (512 * 32)) (by
        rw [fromStart]
        exact List.mem_map.mpr ⟨512, last, rfl⟩)
    have distances := congrArg (fun entry => (entry - rootDirectory).toNat) same
    rw [toNat_distance rootDirectory (by omega),
      toNat_distance rootDirectory (by omega)] at distances
    omega
  · intro below fuel entry visited
    rw [fromStart, List.mem_map] at visited
    obtain ⟨number, reached, rfl⟩ := visited
    exact ⟨number, below fuel number reached, rfl⟩

/-- The loop ends at the first entry that stops it. -/
theorem findEntry_of_first
    {entry : Nat}
    {result : PtrT}
    (stops :
      kernelProbe memory rootDirectory nameExt entry = some result)
    (before :
      ∀ other < entry,
        kernelProbe memory rootDirectory nameExt other = none) :
    findEntry (entry + 1) memory rootDirectory nameExt = some result := by
  have scanned :=
    scan_eq_some (Nat.zero_le entry) stops
      (fun other _ inFront => before other inFront)
      (Nat.lt_succ_self entry)
  rwa [← findEntryLoop_eq_scan, Nat.zero_mul, BitVec.add_zero] at scanned

/--
`find_entry` finds the first matching entry inside the directory exactly if
one of the 512 entries is the end marker or has the name.
-/
theorem findEntry_findsFirst_iff :
    FindsFirst memory rootDirectory nameExt ↔
      ∃ entry < 512,
        bytesFrom memory rootDirectory (entry * 32) = 0 ∨
          Matches (bytesFrom memory rootDirectory)
            (bytesFrom memory nameExt) entry := by
  have stopping (entry : Nat) :
      kernelProbe memory rootDirectory nameExt entry ≠ none ↔
        bytesFrom memory rootDirectory (entry * 32) = 0 ∨
          Matches (bytesFrom memory rootDirectory)
            (bytesFrom memory nameExt) entry := by
    rw [ne_eq, kernelProbe_eq_none_iff]
    tauto
  simp only [← stopping]
  constructor
  · exact fun found => findEntryVisits_inside_iff.mp found.inspects
  · intro stopped
    refine ⟨findEntryVisits_inside_iff.mpr stopped, ?_⟩
    classical
    obtain ⟨inside, stops⟩ := Nat.find_spec stopped
    have before (other : Nat) (inFront : other < Nat.find stopped) :
        kernelProbe memory rootDirectory nameExt other = none := by
      by_contra found
      exact Nat.find_min stopped inFront
        ⟨Nat.lt_trans inFront inside, found⟩
    have passed (other : Nat) (inFront : other < Nat.find stopped) :=
      kernelProbe_eq_none_iff.mp (before other inFront)
    generalize Nat.find stopped = entry at *
    by_cases marker : bytesFrom memory rootDirectory (entry * 32) = 0
    · -- The marker ends the search with 0, and no entry in front matches.
      refine ⟨none, ?_, entry + 1, findEntry_of_first ?_ before⟩
      · intro other listed
        refine (passed other ?_).2
        by_contra behind
        exact listed.2 entry (Nat.le_of_not_lt behind) marker
      · exact if_pos marker
    · have matched := ((stopping entry).mp stops).resolve_left marker
      refine ⟨some entry, ⟨⟨inside, ?_⟩, matched, ?_⟩, entry + 1,
        findEntry_of_first ?_ before⟩
      · intro other upTo
        rcases Nat.lt_or_eq_of_le upTo with inFront | rfl
        · exact (passed other inFront).1
        · exact marker
      · exact fun other inFront => (passed other inFront).2
      · exact (if_neg marker).trans
          (if_pos (memcmp_eq_zero_iff_matches.mpr matched))

end Directories

/-- The second of two entries is found. -/
theorem findEntry_findsFirst_iff_second :
    FindsFirst (fun address => twoEntryDirectory address.toNat) 0 32 := by
  refine findEntry_findsFirst_iff.mpr ⟨1, by decide, Or.inr ?_⟩
  unfold Matches
  decide

/-- A full directory without the name is searched behind its end. -/
theorem findEntry_findsFirst_fails :
    ¬∀ (memory : Memory) (rootDirectory nameExt : PtrT),
      FindsFirst memory rootDirectory nameExt := by
  intro claimed
  -- 512 entries of spaces at address 0, and a name of letters behind them.
  let memory : Memory := fun address =>
    if address.toNat < 512 * 32 then 0x20 else 0x41
  have spaces (offset : Nat) (inside : offset < 512 * 32) :
      bytesFrom memory 0 offset = 0x20 := by
    refine if_pos ?_
    bv_omega
  have stopped :=
    findEntryVisits_inside_iff.mp (claimed memory 0 0x10000).inspects
  obtain ⟨entry, inside, stops⟩ := stopped
  refine stops (kernelProbe_eq_none_iff.mpr ⟨?_, ?_⟩)
  · rw [spaces _ (by omega)]
    decide
  · intro matched
    have first := matched 0 (by omega)
    rw [spaces _ (by omega)] at first
    exact absurd first (by decide)

end HobbyOS
