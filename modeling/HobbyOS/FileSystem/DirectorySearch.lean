import Mathlib.Order.Nat
import HobbyOS.Library.LinearSearch
import HobbyOS.Boot.FindEntry
import HobbyOS.FileSystem.Fat16

namespace HobbyOS

open Library

/-!
# The two directory searches

The kernel's search stops at the end marker, an entry that starts with 0.  The
search of the boot loader compares the name with one entry after the other and
stops at a match only.  They agree exactly on the names that the directory
lists.
-/

/-! ## The directory -/

/-- The first 11 bytes of an entry are the name. -/
def Matches (directory name : Nat → Byte) (entry : Nat) : Prop :=
  ∀ offset < 11, directory (entry * 32 + offset) = name offset

/-- An entry in front of the end marker, and of the end of the directory. -/
def BeforeEnd (directory : Nat → Byte) (entry : Nat) : Prop :=
  entry < 512 ∧ ∀ other ≤ entry, directory (other * 32) ≠ 0

/-- The first entry in front of the end marker that matches, if any. -/
def Selects (directory name : Nat → Byte) : Option Nat → Prop
  | some entry =>
      BeforeEnd directory entry ∧
        Matches directory name entry ∧
        ∀ other < entry, ¬Matches directory name other
  | none =>
      ∀ entry, BeforeEnd directory entry → ¬Matches directory name entry

/-- What the two searches are given: the same directory and name. -/
structure Searched
    (directory name : Nat → Byte)
    (memory : Memory)
    (rootDirectory nameExt : PtrT)
    (ds es : SegmentMemory)
    (si : BitVec 16) :
    Prop where
  kernelDirectory :
    ∀ offset < 512 * 32,
      memory (rootDirectory + BitVec.ofNat 32 offset) = directory offset
  bootDirectory :
    ∀ offset < 512 * 32,
      es (rootDirectoryOffset + BitVec.ofNat 16 offset) = directory offset
  kernelName :
    ∀ offset < 11, memory (nameExt + BitVec.ofNat 32 offset) = name offset
  bootName :
    ∀ offset < 11, ds (si + BitVec.ofNat 16 offset) = name offset

/--
Both searches end with the first matching entry in front of the end marker:
the kernel's with its address, or 0 if there is none, the boot loader's
behind its name.
-/
def SearchesAgree
    (directory name : Nat → Byte)
    (memory : Memory)
    (rootDirectory nameExt : PtrT)
    (ds es : SegmentMemory)
    (si : BitVec 16) :
    Prop :=
  ∃ selected,
    Selects directory name selected ∧
    ∃ enough,
      ∀ fuel ≥ enough,
        findEntry fuel memory rootDirectory nameExt =
          some
            (match selected with
            | some entry => rootDirectory + BitVec.ofNat 32 (entry * 32)
            | none => 0) ∧
        (search ds es si fuel rootDirectoryOffset).map some =
          some
            (selected.map fun entry =>
              rootDirectoryOffset + BitVec.ofNat 16 (entry * 32 + 11))

/-! ## The search of the boot loader -/

/-- A compare stops with both pointers moved on alike. -/
theorem repeCmpsb_spec
    (ds es : SegmentMemory)
    (cx : Nat)
    (si di : BitVec 16) :
    ∃ equal consumed,
      repeCmpsb ds es cx si di =
        (equal, si + BitVec.ofNat 16 consumed,
          di + BitVec.ofNat 16 consumed) ∧
      (equal = true → consumed = cx) ∧
      (equal = true ↔
        ∀ offset < cx,
          ds (si + BitVec.ofNat 16 offset) =
            es (di + BitVec.ofNat 16 offset)) := by
  induction cx generalizing si di with
  | zero =>
      exact ⟨true, 0, by simp [repeCmpsb], fun _ => rfl, by simp⟩
  | succ cx inductionHypothesis =>
      rw [repeCmpsb]
      by_cases first : ds si = es di
      · obtain ⟨equal, consumed, compared, whole, same⟩ :=
          inductionHypothesis (si + 1) (di + 1)
        rw [if_pos first]
        refine ⟨equal, consumed + 1, ?_, ?_, ?_⟩
        · rw [compared, add_one_add_ofNat, add_one_add_ofNat]
        · intro isEqual
          rw [whole isEqual]
        · rw [same]
          constructor
          · intro rest offset inside
            cases offset with
            | zero =>
                simpa using first
            | succ offset =>
                rw [← add_one_add_ofNat, ← add_one_add_ofNat]
                exact rest offset (by omega)
          · intro all offset inside
            rw [add_one_add_ofNat, add_one_add_ofNat]
            exact all (offset + 1) (by omega)
      · rw [if_neg first]
        refine ⟨false, 1, rfl, fun impossible => ?_, ?_⟩
        · exact Bool.noConfusion impossible
        · constructor
          · intro impossible
            exact Bool.noConfusion impossible
          · intro all
            have equal := all 0 (Nat.succ_pos cx)
            exact (first (by simpa using equal)).elim

/-- The name occurs in the segment at the place of an entry. -/
def MatchesAt
    (ds es : SegmentMemory)
    (si : BitVec 16)
    (entry : Nat) :
    Prop :=
  ∀ offset < 11,
    ds (si + BitVec.ofNat 16 offset) =
      es (rootDirectoryOffset + BitVec.ofNat 16 (entry * 32) +
        BitVec.ofNat 16 offset)

instance
    (ds es : SegmentMemory)
    (si : BitVec 16)
    (entry : Nat) :
    Decidable (MatchesAt ds es si entry) :=
  inferInstanceAs (Decidable (∀ offset < 11, _ = _))

/-- What one round of the boot loader's loop finds. -/
def bootProbe
    (ds es : SegmentMemory)
    (si : BitVec 16)
    (entry : Nat) :
    Option (BitVec 16) :=
  if MatchesAt ds es si entry then
    some (rootDirectoryOffset + BitVec.ofNat 16 (entry * 32 + 11))
  else
    none

/-- The loop of the boot loader probes one entry after the other. -/
theorem search_eq_scan
    (ds es : SegmentMemory)
    (si : BitVec 16)
    (fuel entry : Nat) :
    search ds es si fuel
        (rootDirectoryOffset + BitVec.ofNat 16 (entry * 32)) =
      scan (bootProbe ds es si) fuel entry := by
  refine eq_scan
    (fun fuel entry =>
      search ds es si fuel
        (rootDirectoryOffset + BitVec.ofNat 16 (entry * 32)))
    (fun _ => rfl) ?_ fuel entry
  intro fuel entry
  obtain ⟨equal, consumed, compared, whole, same⟩ :=
    repeCmpsb_spec ds es 11 si
      (rootDirectoryOffset + BitVec.ofNat 16 (entry * 32))
  rw [search, compared, bootProbe]
  by_cases here : MatchesAt ds es si entry
  · have isEqual := same.mpr here
    rw [if_pos here]
    dsimp only
    rw [if_pos isEqual, whole isEqual, BitVec.add_assoc,
      ← BitVec.ofNat_add]
  · have isDifferent : ¬equal = true := fun isEqual =>
      here (same.mp isEqual)
    have rewound (base advance : BitVec 16) :
        base + advance - (si + advance - si) + 32 = base + 32 := by
      bv_omega
    rw [if_neg here]
    dsimp only
    rw [if_neg isDifferent, rewound, Nat.succ_mul, BitVec.ofNat_add,
      ← BitVec.add_assoc]
    rfl

/-! ## The search of the kernel -/

/-- What one round of the kernel's loop finds. -/
def kernelProbe
    (memory : Memory)
    (rootDirectory nameExt : PtrT)
    (entry : Nat) :
    Option PtrT :=
  if memory (rootDirectory + BitVec.ofNat 32 (entry * 32)) = 0 then
    some 0
  else if
      memcmp memory (rootDirectory + BitVec.ofNat 32 (entry * 32)) nameExt
          11 =
        0 then
    some (rootDirectory + BitVec.ofNat 32 (entry * 32))
  else
    none

/-- The kernel's loop probes one entry after the other. -/
theorem findEntryLoop_eq_scan
    (memory : Memory)
    (rootDirectory nameExt : PtrT)
    (fuel entry : Nat) :
    findEntryLoop memory nameExt fuel
        (rootDirectory + BitVec.ofNat 32 (entry * 32)) =
      scan (kernelProbe memory rootDirectory nameExt) fuel entry := by
  refine eq_scan
    (fun fuel entry =>
      findEntryLoop memory nameExt fuel
        (rootDirectory + BitVec.ofNat 32 (entry * 32)))
    (fun _ => rfl) ?_ fuel entry
  intro fuel entry
  rw [findEntryLoop, kernelProbe]
  by_cases marker :
      memory (rootDirectory + BitVec.ofNat 32 (entry * 32)) = 0
  · rw [if_neg (not_not.mpr marker), if_pos marker]
  · rw [if_pos marker, if_neg marker]
    by_cases equal :
        memcmp memory (rootDirectory + BitVec.ofNat 32 (entry * 32))
            nameExt 11 =
          0
    · rw [if_pos equal, if_pos equal]
    · rw [if_neg equal, if_neg equal, directoryEntrySize, Nat.succ_mul,
        BitVec.ofNat_add, ← BitVec.add_assoc]

/-! ## The same entry -/

section Searches

variable
  {directory name : Nat → Byte}
  {memory : Memory}
  {rootDirectory nameExt : PtrT}
  {ds es : SegmentMemory}
  {si : BitVec 16}

/-- What the boot loader compares are the names. -/
theorem Searched.matchesAt_iff
    (searched :
      Searched directory name memory rootDirectory nameExt ds es si)
    {entry : Nat}
    (inside : entry < 512) :
    MatchesAt ds es si entry ↔ Matches directory name entry := by
  unfold MatchesAt Matches
  refine forall_congr' fun offset => forall_congr' fun small => ?_
  rw [searched.bootName offset small, BitVec.add_assoc,
    ← BitVec.ofNat_add, searched.bootDirectory _ (by omega)]
  exact eq_comm

/-- What the kernel compares are the names. -/
theorem Searched.memcmp_eq_zero_iff
    (searched :
      Searched directory name memory rootDirectory nameExt ds es si)
    {entry : Nat}
    (inside : entry < 512) :
    memcmp memory (rootDirectory + BitVec.ofNat 32 (entry * 32)) nameExt
          11 =
        0 ↔
      Matches directory name entry := by
  rw [HobbyOS.memcmp_eq_zero_iff]
  unfold Matches
  refine forall_congr' fun offset => forall_congr' fun small => ?_
  have small : offset < 11 := small
  rw [searched.kernelName offset small, BitVec.add_assoc,
    ← BitVec.ofNat_add, searched.kernelDirectory _ (by omega)]

/-- Both searches end with the first matching entry. -/
theorem searchesAgree_of_first
    (searched :
      Searched directory name memory rootDirectory nameExt ds es si)
    {entry : Nat}
    (first : Selects directory name (some entry)) :
    SearchesAgree directory name memory rootDirectory nameExt ds es si := by
  obtain ⟨⟨inside, filled⟩, matched, earlier⟩ := first
  refine
    ⟨some entry, ⟨⟨inside, filled⟩, matched, earlier⟩, entry + 1, ?_⟩
  intro fuel fueled
  have notMarker (other : Nat) (upTo : other ≤ entry) :
      ¬memory (rootDirectory + BitVec.ofNat 32 (other * 32)) = 0 := by
    rw [searched.kernelDirectory _ (by omega)]
    exact filled other upTo
  constructor
  · have kernel :
        scan (kernelProbe memory rootDirectory nameExt) fuel 0 =
          some (rootDirectory + BitVec.ofNat 32 (entry * 32)) := by
      refine scan_eq_some (Nat.zero_le entry) ?_ ?_ fueled
      · rw [kernelProbe, if_neg (notMarker entry (Nat.le_refl entry)),
          if_pos ((searched.memcmp_eq_zero_iff inside).mpr matched)]
      · intro other _ before
        rw [kernelProbe, if_neg (notMarker other (Nat.le_of_lt before)),
          if_neg]
        rw [searched.memcmp_eq_zero_iff (by omega)]
        exact earlier other before
    rwa [← findEntryLoop_eq_scan, Nat.zero_mul, BitVec.add_zero] at kernel
  · have boot :
        scan (bootProbe ds es si) fuel 0 =
          some
            (rootDirectoryOffset + BitVec.ofNat 16 (entry * 32 + 11)) := by
      refine scan_eq_some (Nat.zero_le entry) ?_ ?_ fueled
      · exact if_pos ((searched.matchesAt_iff inside).mpr matched)
      · intro other _ before
        refine if_neg ?_
        rw [searched.matchesAt_iff (by omega)]
        exact earlier other before
    rw [← search_eq_scan, Nat.zero_mul, BitVec.add_zero] at boot
    rw [boot]
    rfl

/-- The boot loader's search does not end without an entry. -/
theorem exists_of_searchesAgree
    (agree :
      SearchesAgree directory name memory rootDirectory nameExt ds es si) :
    ∃ entry, BeforeEnd directory entry ∧ Matches directory name entry := by
  obtain ⟨selected, selects, enough, ends⟩ := agree
  cases selected with
  | some entry =>
      exact ⟨entry, selects.1, selects.2.1⟩
  | none =>
      have boot := (ends enough (Nat.le_refl enough)).2
      cases found : search ds es si enough rootDirectoryOffset with
      | some di =>
          simp [found] at boot
      | none =>
          simp [found] at boot

/--
The searches agree exactly on the names of entries in front of the end marker.
-/
theorem findEntry_search_agree_iff
    (searched :
      Searched directory name memory rootDirectory nameExt ds es si) :
    SearchesAgree directory name memory rootDirectory nameExt ds es si ↔
      ∃ entry,
        BeforeEnd directory entry ∧ Matches directory name entry := by
  classical
  constructor
  · exact exists_of_searchesAgree
  · intro listed
    obtain ⟨filled, matched⟩ := Nat.find_spec listed
    refine searchesAgree_of_first searched ⟨filled, matched, ?_⟩
    intro other before matchesToo
    refine Nat.find_min listed before ⟨⟨?_, ?_⟩, matchesToo⟩
    · exact Nat.lt_trans before filled.1
    · intro earlier upTo
      exact filled.2 earlier (Nat.le_trans upTo (Nat.le_of_lt before))

end Searches

/-! ## A name that is listed and one that is not -/

/-- An entry of spaces, one of the letter A, and the end marker. -/
def twoEntryDirectory (offset : Nat) : Byte :=
  if offset < 32 then 0x20 else if offset < 64 then 0x41 else 0

/-- The directory at address 0 with a name in its second entry. -/
theorem findEntry_search_agree_iff_second :
    SearchesAgree twoEntryDirectory (fun _ => 0x41)
      (fun address => twoEntryDirectory address.toNat) 0 32
      (fun offset => twoEntryDirectory (offset - rootDirectoryOffset).toNat)
      (fun offset => twoEntryDirectory (offset - rootDirectoryOffset).toNat)
      (rootDirectoryOffset + 32) := by
  refine (findEntry_search_agree_iff ?_).mpr
    ⟨1, ⟨by decide, ?_⟩, ?_⟩
  · have behind (base offset : BitVec 16) : base + offset - base = offset := by
      bv_omega
    constructor
    · intro offset inside
      refine congrArg twoEntryDirectory ?_
      bv_omega
    · intro offset inside
      refine congrArg twoEntryDirectory ?_
      rw [behind, BitVec.toNat_ofNat, Nat.mod_eq_of_lt (by omega)]
    · decide
    · decide
  · decide
  · unfold Matches
    decide

/-- The boot loader does not end without an entry of the name. -/
theorem findEntry_search_agree_fails :
    ¬∀ (directory name : Nat → Byte)
        (memory : Memory)
        (rootDirectory nameExt : PtrT)
        (ds es : SegmentMemory)
        (si : BitVec 16),
      Searched directory name memory rootDirectory nameExt ds es si →
      SearchesAgree directory name memory rootDirectory nameExt ds es
        si := by
  intro agree
  -- An empty directory at 0x20000 and the name at address 0.
  have searched :
      Searched (fun _ => 0) (fun _ => 0x41)
        (fun address => if address.toNat < 11 then 0x41 else 0) 0x20000 0
        (fun _ => 0x41) (fun _ => 0) 0 := by
    constructor
    · intro offset inside
      refine if_neg ?_
      bv_omega
    · intro offset inside
      rfl
    · intro offset inside
      refine if_pos ?_
      bv_omega
    · intro offset inside
      rfl
  obtain ⟨entry, before, _⟩ :=
    exists_of_searchesAgree
      (agree _ _ _ _ _ _ _ _ searched)
  exact before.2 0 (Nat.zero_le entry) rfl

end HobbyOS
