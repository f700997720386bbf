import HobbyOS.FileSystem.ChainReading
import HobbyOS.FileSystem.StraightChain

namespace HobbyOS

open Library

/-!
# The two readers of a chain

The boot loader loads the clusters of a chain one at a time, and `read_all_to`
reads them in runs.  Both deliver the same bytes exactly when the chain has no
256 clusters that lie one behind the other.
-/

/--
The boot loader loads the clusters of the chain in order, and `read_all_to`
stores their sectors in this order at the destination and changes nothing
else.
-/
structure ReadsAsLoaded
    (info : DiskFSInfo)
    (clusterTable : ClusterTable)
    (startingCluster : BitVec 16)
    (clusters : List (BitVec 16)) :
    Prop where
  loaded :
    ∀ (es : SegmentMemory) (di transferBufferEs : BitVec 16),
      HoldsTable es clusterTable →
      readHalf es di = startingCluster →
      ∃ enough loads,
        (∀ fuel ≥ enough, more es fuel di transferBufferEs = some loads) ∧
        loads.map Load.lowerLba = clusters
  stored :
    ∀ (memory : Memory) (drive : Drive) (destination entry : PtrT),
      readHalf memory (entry + BitVec.ofNat 32 startingClusterOffset) =
        startingCluster →
      ∃ enough later,
        later.disk = drive.disk ∧
        ∀ fuel ≥ enough,
          readAllTo fuel info clusterTable memory drive destination entry =
            some
              (storeBytes memory destination
                (chainBytes drive.disk clusters) (clusters.length * 512),
                later)

/-- The loads name the clusters. -/
theorem map_lowerLba_loadsOf
    (transferBufferEs : BitVec 16)
    (clusters : List (BitVec 16)) :
    (loadsOf transferBufferEs clusters).map Load.lowerLba = clusters := by
  induction clusters generalizing transferBufferEs with
  | nil =>
      rfl
  | cons cluster rest inductionHypothesis =>
      rw [loadsOf, List.map_cons, inductionHypothesis]

/-- A chain on a disk full of ones is full of ones. -/
theorem chainBytes_ones
    (clusters : List (BitVec 16))
    {offset : Nat}
    (inside : offset < clusters.length * 512) :
    chainBytes (fun _ _ => 0xFF) clusters offset = 0xFF := by
  induction clusters generalizing offset with
  | nil =>
      rw [List.length_nil, Nat.zero_mul] at inside
      exact (Nat.not_lt_zero _ inside).elim
  | cons cluster rest inductionHypothesis =>
      rw [chainBytes, appendBytes]
      split
      · rfl
      · refine inductionHypothesis ?_
        rw [List.length_cons] at inside
        omega

section Readers

variable
  {info : DiskFSInfo}
  {clusterTable : ClusterTable}
  {startingCluster : BitVec 16}
  {clusters : List (BitVec 16)}

/-- A chain inside the table has no more sectors than the table entries. -/
theorem chain_sectors_le
    (chain :
      LinkedChain clusterTable EndsChain startingCluster clusters)
    (inside : ∀ cluster ∈ clusters, cluster.toNat < 0xC00) :
    clusters.length * 512 ≤ 0xC00 * 512 := by
  have few :=
    chain.length_le BitVec.toNat
      (fun _ _ => BitVec.eq_of_toNat_eq) inside
  exact Nat.mul_le_mul_right 512 few

/-- A chain inside the table is shorter than the memory. -/
theorem chain_fits
    (chain :
      LinkedChain clusterTable EndsChain startingCluster clusters)
    (inside : ∀ cluster ∈ clusters, cluster.toNat < 0xC00) :
    clusters.length * 512 < 2 ^ 32 :=
  Nat.lt_of_le_of_lt (chain_sectors_le chain inside) (by decide)

/-- What `read_all_to` does with a chain. -/
theorem readAllTo_eq
    (sectorSize : info.bytesPerSector = 512)
    (oneSector : info.sectorsPerCluster = 1)
    (chain :
      LinkedChain clusterTable EndsChain startingCluster clusters)
    (inside : ∀ cluster ∈ clusters, cluster.toNat < 0xC00)
    (memory : Memory)
    (drive : Drive)
    (destination entry : PtrT)
    (starts :
      readHalf memory (entry + BitVec.ofNat 32 startingClusterOffset) =
        startingCluster) :
    ∃ enough memory' later,
      ChainRead drive.disk memory destination clusters memory' ∧
      later.disk = drive.disk ∧
      ∀ fuel ≥ enough,
        readAllTo fuel info clusterTable memory drive destination entry =
          some (memory', later) := by
  obtain ⟨enough, memory', later, stored, disk, ends⟩ :=
    readRuns_eq sectorSize oneSector chain inside
      (chain_fits chain inside) memory drive destination
  refine ⟨max enough (clusters.length + 1), memory', later, stored, disk,
    ?_⟩
  intro fuel fueled
  rw [readAllTo, starts]
  exact ends fuel (Nat.le_trans (Nat.le_max_left _ _) fueled) fuel
    (Nat.le_trans (Nat.le_max_right _ _) fueled)

/-- A run of 256 clusters is missing at the destination. -/
theorem not_readsAsLoaded_of_hasRun
    (sectorSize : info.bytesPerSector = 512)
    (oneSector : info.sectorsPerCluster = 1)
    (chain :
      LinkedChain clusterTable EndsChain startingCluster clusters)
    (inside : ∀ cluster ∈ clusters, cluster.toNat < 0xC00)
    (has : HasRun Consecutive 256 clusters) :
    ¬ReadsAsLoaded info clusterTable startingCluster clusters := by
  intro reads
  -- The disk is full of ones, and the memory is empty but for the entry.
  let drive : Drive := { emptyDrive with disk := fun _ _ => 0xFF }
  let memory : Memory := writeHalf (fun _ => 0) 26 startingCluster
  have starts :
      readHalf memory (0 + BitVec.ofNat 32 startingClusterOffset) =
        startingCluster :=
    readHalf_writeHalf_self _ _ _
  obtain ⟨enough, memory', later, stored, _, ends⟩ :=
    readAllTo_eq sectorSize oneSector chain inside memory drive 0x100000 0
      starts
  obtain ⟨enoughSpec, laterSpec, _, endsSpec⟩ :=
    reads.stored memory drive 0x100000 0 starts
  have same :=
    (ends _ (Nat.le_max_left enough enoughSpec)).symm.trans
      (endsSpec _ (Nat.le_max_right enough enoughSpec))
  rw [Option.some.injEq, Prod.mk.injEq] at same
  obtain ⟨offset, within, left⟩ := stored.skipped has
  have small : offset < 0xC00 * 512 :=
    Nat.lt_of_lt_of_le within (chain_sectors_le chain inside)
  rw [same.1, storeBytes_inside within (by omega),
    chainBytes_ones clusters within] at left
  have empty :
      memory (0x100000 + BitVec.ofNat 32 offset) = 0 := by
    have first :
        (0x100000 : PtrT) + BitVec.ofNat 32 offset ≠ 26 := by
      bv_omega
    have second :
        (0x100000 : PtrT) + BitVec.ofNat 32 offset ≠ 26 + 1 := by
      bv_omega
    simp only [memory, writeHalf, writeByte]
    rw [Function.update_of_ne second, Function.update_of_ne first]
  rw [empty] at left
  exact absurd left (by decide)

/-- A chain is read as it is loaded exactly if it has no run of 256. -/
theorem readAllTo_asLoaded_iff
    (sectorSize : info.bytesPerSector = 512)
    (oneSector : info.sectorsPerCluster = 1)
    (chain :
      LinkedChain clusterTable EndsChain startingCluster clusters)
    (inside : ∀ cluster ∈ clusters, cluster.toNat < 0xC00)
    (startsInside : startingCluster.toNat < 0xC00) :
    ReadsAsLoaded info clusterTable startingCluster clusters ↔
      ¬HasRun Consecutive 256 clusters := by
  constructor
  · intro reads has
    exact not_readsAsLoaded_of_hasRun sectorSize oneSector chain inside
      has reads
  · intro noRun
    constructor
    · intro es di transferBufferEs holds here
      cases chain with
      | nil ended =>
          exfalso
          unfold EndsChain at ended
          omega
      | @cons _ rest continues tail =>
          refine
            ⟨rest.length + 1,
              loadsOf transferBufferEs (startingCluster :: rest), ?_,
              map_lowerLba_loadsOf _ _⟩
          intro fuel fueled
          exact more_eq holds (.cons continues tail) inside here
            transferBufferEs fueled
    · intro memory drive destination entry starts
      obtain ⟨enough, memory', later, stored, disk, ends⟩ :=
        readAllTo_eq sectorSize oneSector chain inside memory drive
          destination entry starts
      rw [stored.complete noRun] at ends
      exact ⟨enough, later, disk, ends⟩

end Readers

/-- The table of a chain that goes up to a last cluster. -/
def straightTable (last : BitVec 16) : ClusterTable :=
  fun cluster => if cluster = last then 0xFFFF else cluster + 1

/-- The straight chain from a cluster on. -/
theorem straightTable_chain
    (first count : Nat)
    (small : first + count < 0xC00) :
    LinkedChain (straightTable (BitVec.ofNat 16 (first + count)))
      EndsChain (BitVec.ofNat 16 first) (straightClusters first count) := by
  refine linkedChain_straightClusters small ?_ ?_
  · intro index before
    rw [straightTable, if_neg, BitVec.ofNat_add (first + index)]
    · rfl
    · intro same
      have numbers := congrArg BitVec.toNat same
      rw [BitVec.toNat_ofNat, BitVec.toNat_ofNat] at numbers
      omega
  · have last :
        straightTable (BitVec.ofNat 16 (first + count))
            (BitVec.ofNat 16 (first + count)) =
          0xFFFF :=
      if_pos rfl
    rw [last, EndsChain]
    decide

/-- The clusters of the straight chain are consecutive. -/
theorem straightClusters_consecutive
    (first count : Nat)
    (small : first + count < 0xC00) :
    (straightClusters first count).IsChain Consecutive := by
  induction count generalizing first with
  | zero =>
      exact List.isChain_singleton _
  | succ count inductionHypothesis =>
      have rest := inductionHypothesis (first + 1) (by omega)
      rw [straightClusters_succ]
      refine List.isChain_cons.mpr ⟨?_, rest⟩
      intro next isNext
      have head :
          (straightClusters (first + 1) count).head? =
            some (BitVec.ofNat 16 (first + 1)) := by
        rw [straightClusters_eq_cons, List.head?_cons]
      rw [head] at isNext
      obtain rfl := Option.some.inj isNext
      rw [Consecutive, BitVec.toNat_ofNat, BitVec.toNat_ofNat]
      omega

/-- A file of three clusters one behind the other is read as it is loaded. -/
theorem readAllTo_asLoaded_iff_short :
    ReadsAsLoaded imageInfo (straightTable 102) 100
      (straightClusters 100 2) :=
  (readAllTo_asLoaded_iff rfl rfl
    (straightTable_chain 100 2 (by decide))
    (straightClusters_inside (by decide)) (by decide)).mpr (by
      rintro ⟨run, within, long, _⟩
      have bound := within.length_le
      rw [length_straightClusters] at bound
      omega)

/-- A file of 256 clusters one behind the other is not read. -/
theorem readAllTo_asLoaded_fails :
    ¬∀ (info : DiskFSInfo)
        (clusterTable : ClusterTable)
        (startingCluster : BitVec 16)
        (clusters : List (BitVec 16)),
      info.bytesPerSector = 512 →
      info.sectorsPerCluster = 1 →
      LinkedChain clusterTable EndsChain startingCluster clusters →
      (∀ cluster ∈ clusters, cluster.toNat < 0xC00) →
      startingCluster.toNat < 0xC00 →
      ReadsAsLoaded info clusterTable startingCluster clusters := by
  intro agree
  have chain := straightTable_chain 100 255 (by decide)
  have inside :=
    @straightClusters_inside 100 255 (by decide)
  have reads :=
    agree imageInfo _ _ _ rfl rfl chain inside (by decide)
  refine not_readsAsLoaded_of_hasRun rfl rfl chain inside ?_ reads
  refine ⟨_, List.infix_refl _, ?_,
    straightClusters_consecutive 100 255 (by decide)⟩
  exact length_straightClusters 100 255

end HobbyOS
