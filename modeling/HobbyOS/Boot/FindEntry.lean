import HobbyOS.Library.BlockTransfer
import HobbyOS.Library.LinkedChain
import HobbyOS.Stddef

namespace HobbyOS

open Library

/-!
# The file search of the boot loader

`find_entry` of `_FAT16.asm`.  It runs in real mode: the name lies in the data
segment, and the cluster table with the root directory behind it fills the
extra segment from offset 0 on.  The sectors go to other segments, so the
loads are recorded in order.  The loops take fuel.
-/

/-- A segment of 64 KiB, by offset. -/
abbrev SegmentMemory := BitVec 16 → Byte

/-- `BS_NumSecPerFAT`. -/
def bsNumSecPerFAT : BitVec 16 := 12

/-- `BS_BytesPerSec`. -/
def bsBytesPerSec : BitVec 16 := 512

/-- The offset of the root directory, as it is multiplied out. -/
def rootDirectoryOffset : BitVec 16 := bsNumSecPerFAT * bsBytesPerSec

/-- `repe cmpsb` with `cx` bytes to go: the zero flag, `si` and `di`. -/
def repeCmpsb (ds es : SegmentMemory) :
    Nat → BitVec 16 → BitVec 16 → Bool × BitVec 16 × BitVec 16
  | 0, si, di => (true, si, di)
  | cx + 1, si, di =>
      if ds si = es di then
        repeCmpsb ds es cx (si + 1) (di + 1)
      else
        (false, si + 1, di + 1)

/--
The loop from `search` on, with the offset of `found`.  Nothing but a match
ends it.
-/
def search (ds es : SegmentMemory) (si : BitVec 16) :
    Nat → BitVec 16 → Option (BitVec 16)
  | 0, _ => none
  | fuel + 1, di =>
      let (equal, consumed, di) := repeCmpsb ds es 11 si di
      if equal then
        some di
      else
        search ds es si fuel (di - (consumed - si) + 32)

/-- One call of `load_lba_sector` for one sector. -/
structure Load where
  transferBufferEs : BitVec 16
  lowerLba : BitVec 16
  deriving DecidableEq

/-- The loop from `more` on, with the loads it makes. -/
def more (es : SegmentMemory) :
    Nat → BitVec 16 → BitVec 16 → Option (List Load)
  | 0, _, _ => none
  | fuel + 1, di, transferBufferEs =>
      let si := readHalf es di
      let load := Load.mk transferBufferEs si
      let di := si <<< 1
      let ax := readHalf es di &&& 0xFFF0
      if ax = 0xFFF0 then
        some [load]
      else do
        let loads ← more es fuel di (transferBufferEs + 0x20)
        return load :: loads

/-! ## The chain that is loaded -/

/-- The values that end a chain of clusters. -/
def EndsChain (cluster : BitVec 16) : Prop :=
  0xFFF0 ≤ cluster.toNat

/-- One load for each cluster, 512 bytes one behind the other. -/
def loadsOf (transferBufferEs : BitVec 16) :
    List (BitVec 16) → List Load
  | [] => []
  | cluster :: rest =>
      ⟨transferBufferEs, cluster⟩ :: loadsOf (transferBufferEs + 0x20) rest

/-- The mask of the boot loader selects the values that end a chain. -/
theorem mask_eq_iff (value : BitVec 16) :
    value &&& 0xFFF0 = 0xFFF0 ↔ EndsChain value := by
  have mask : (0xFFF0 : BitVec 16).toNat = (2 ^ 12 - 1) <<< 4 := rfl
  have parts :
      value.toNat &&& (2 ^ 12 - 1) <<< 4 =
        (value.toNat >>> 4 &&& 2 ^ 12 - 1) <<< 4 := by
    refine Nat.eq_of_testBit_eq fun index => ?_
    rw [Nat.shiftLeft_and_distrib, Nat.testBit_and, Nat.testBit_and,
      Nat.testBit_shiftLeft, Nat.testBit_shiftLeft, Nat.testBit_shiftRight]
    by_cases high : 4 ≤ index
    · simp [high]
    · simp [high]
  rw [← BitVec.toNat_inj, BitVec.toNat_and, mask, parts,
    Nat.and_two_pow_sub_one_eq_mod, Nat.shiftRight_eq_div_pow,
    Nat.shiftLeft_eq, Nat.shiftLeft_eq, EndsChain]
  have bounded := value.isLt
  omega

/-- An entry of a table lies at twice its number. -/
def HoldsTable
    (es : SegmentMemory)
    (clusterTable : BitVec 16 → BitVec 16) :
    Prop :=
  ∀ cluster : BitVec 16,
    cluster.toNat < 0xC00 →
    readHalf es (cluster <<< 1) = clusterTable cluster

/-- The loop loads the clusters of the chain in order. -/
theorem more_eq
    {es : SegmentMemory}
    {clusterTable : BitVec 16 → BitVec 16}
    (holds : HoldsTable es clusterTable)
    {cluster : BitVec 16}
    {rest : List (BitVec 16)}
    (chain :
      LinkedChain clusterTable EndsChain cluster (cluster :: rest))
    (inside : ∀ other ∈ cluster :: rest, other.toNat < 0xC00)
    {di : BitVec 16}
    (here : readHalf es di = cluster)
    (transferBufferEs : BitVec 16)
    {fuel : Nat}
    (enough : rest.length < fuel) :
    more es fuel di transferBufferEs =
      some (loadsOf transferBufferEs (cluster :: rest)) := by
  induction rest generalizing cluster di transferBufferEs fuel with
  | nil =>
      obtain ⟨fuel, rfl⟩ := Nat.exists_eq_succ_of_ne_zero
        (Nat.ne_zero_of_lt enough)
      have entry := holds cluster (inside cluster (by simp))
      have ended : EndsChain (clusterTable cluster) := by
        cases chain with
        | cons _ tail =>
            cases tail with
            | nil ended =>
                exact ended
      simp only [more, here, entry]
      rw [if_pos ((mask_eq_iff _).mpr ended)]
      rfl
  | cons next rest inductionHypothesis =>
      obtain ⟨fuel, rfl⟩ := Nat.exists_eq_succ_of_ne_zero
        (Nat.ne_zero_of_lt enough)
      have entry := holds cluster (inside cluster (by simp))
      obtain ⟨nextIs, tail⟩ :
          clusterTable cluster = next ∧
            LinkedChain clusterTable EndsChain next (next :: rest) := by
        cases chain with
        | cons _ tail =>
            cases tail with
            | cons continues last =>
                exact ⟨rfl, .cons continues last⟩
      rw [nextIs] at entry
      have goesOn : ¬EndsChain next := tail.not_ends (by simp)
      have loaded :=
        inductionHypothesis tail
          (fun other member => inside other (List.mem_cons_of_mem _ member))
          entry (transferBufferEs + 0x20) (Nat.lt_of_succ_lt_succ enough)
      simp only [more, here, entry]
      rw [if_neg fun masked => goesOn ((mask_eq_iff _).mp masked), loaded]
      rfl

end HobbyOS
