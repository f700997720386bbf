import HobbyOS.FileSystem.ReadAll

namespace HobbyOS

open Library

/-!
# Reading through any table

`read_all_to` follows the links of `ClusterTable` as they are, up to a value
from 0xFFF0 on.  It does not check that a link is an index of the table, nor
that it has not been there before, so it is safe exactly on the clusters from
which a finite chain goes through the table.
-/

/-! ## Where the table is read -/

/-- Indices at which the inner loop reads `ClusterTable`, in order. -/
def extendRunReads (clusterTable : ClusterTable) :
    Nat → BitVec 16 → List (BitVec 16)
  | 0, current => if current.toNat < 0xFFF0 then [current] else []
  | remaining + 1, current =>
      if current.toNat < 0xFFF0 then
        current ::
          if (clusterTable current).toNat = current.toNat + 1 then
            current ::
              extendRunReads clusterTable remaining (clusterTable current)
          else
            []
      else
        []

/-- The last cluster of the run that the outer loop reads from `first` on. -/
def lastOfExtendedRun
    (info : DiskFSInfo)
    (clusterTable : ClusterTable)
    (first : BitVec 16) :
    BitVec 16 :=
  (extendRun clusterTable (256 / info.sectorsPerCluster.toNat - 1) first 1).1

/-- Indices at which one round of the outer loop reads `ClusterTable`. -/
def readRunReads
    (info : DiskFSInfo)
    (clusterTable : ClusterTable)
    (first : BitVec 16) :
    List (BitVec 16) :=
  extendRunReads clusterTable (256 / info.sectorsPerCluster.toNat - 1)
      first ++
    [lastOfExtendedRun info clusterTable first]

/-- Indices at which the outer loop reads `ClusterTable`, in order. -/
def readRunsReads
    (info : DiskFSInfo)
    (clusterTable : ClusterTable) :
    Nat → BitVec 16 → List (BitVec 16)
  | 0, _ => []
  | fuel + 1, first =>
      if first.toNat < 0xFFF0 then
        readRunReads info clusterTable first ++
          readRunsReads info clusterTable fuel
            (clusterTable (lastOfExtendedRun info clusterTable first))
      else
        []

/--
Reading a file by its starting cluster: the bound of a run can be computed,
`read_all_to` ends for every memory and drive, and the table is read inside
its 0xC00 entries only.
-/
structure ReadsSafely
    (info : DiskFSInfo)
    (clusterTable : ClusterTable)
    (startingCluster : BitVec 16) :
    Prop where
  divides : info.sectorsPerCluster ≠ 0
  terminates :
    ∀ (memory : Memory) (drive : Drive) (destination entry : PtrT),
      readHalf memory (entry + BitVec.ofNat 32 startingClusterOffset) =
        startingCluster →
      ∃ fuel result,
        readAllTo fuel info clusterTable memory drive destination entry =
          some result
  inside :
    ∀ fuel,
      ∀ index ∈ readRunsReads info clusterTable fuel startingCluster,
        index.toNat < 0xC00

section Tables

variable
  {info : DiskFSInfo}
  {clusterTable : ClusterTable}

/-! ## A chain through the table is read safely -/

/-- The inner loop reads at the clusters of a chain only. -/
theorem extendRunReads_inside
    {first : BitVec 16}
    {rest : List (BitVec 16)}
    (chain : LinkedChain clusterTable EndsChain first (first :: rest))
    (inside : ∀ cluster ∈ first :: rest, cluster.toNat < 0xC00)
    (remaining : Nat) :
    ∀ index ∈ extendRunReads clusterTable remaining first,
      index.toNat < 0xC00 := by
  have small := inside first (by simp)
  induction remaining generalizing first rest with
  | zero =>
      rw [extendRunReads, if_pos (by omega)]
      simpa using small
  | succ remaining inductionHypothesis =>
      rw [extendRunReads, if_pos (by omega)]
      split
      · rename_i follows
        -- The successor is below the values that end a chain.
        cases chain with
        | cons _ tailChain =>
            cases tailChain with
            | nil ended =>
                unfold EndsChain at ended
                omega
            | cons continues last =>
                have insideTail := List.forall_mem_cons.mp inside
                have behind :=
                  inductionHypothesis (.cons continues last) insideTail.2
                    (insideTail.2 _ (by simp))
                simpa [small] using behind
      · simpa using small

/-- Every read of the outer loop is at a cluster of the chain. -/
theorem readRunsReads_inside
    {first : BitVec 16}
    {clusters : List (BitVec 16)}
    (chain : LinkedChain clusterTable EndsChain first clusters)
    (inside : ∀ cluster ∈ clusters, cluster.toNat < 0xC00)
    (fuel : Nat) :
    ∀ index ∈ readRunsReads info clusterTable fuel first,
      index.toNat < 0xC00 := by
  induction fuel generalizing first clusters with
  | zero =>
      simp [readRunsReads]
  | succ fuel inductionHypothesis =>
      cases chain with
      | nil ended =>
          rw [readRunsReads, if_neg (Nat.not_lt_of_le ended)]
          simp
      | cons continues tailChain =>
          have whole := LinkedChain.cons continues tailChain
          obtain ⟨front, last, tail, listed, extended, -, -, -, nextChain⟩ :=
            extendRun_spec whole inside
              (256 / info.sectorsPerCluster.toNat - 1) 1
          have lastIs : lastOfExtendedRun info clusterTable first = last :=
            congrArg Prod.fst extended
          rw [readRunsReads, if_pos (Nat.lt_of_not_le continues), readRunReads,
            lastIs]
          have run := extendRunReads_inside whole inside
            (256 / info.sectorsPerCluster.toNat - 1)
          rw [listed] at inside
          have behind :=
            inductionHypothesis nextChain fun cluster member =>
              inside cluster (by simp [member])
          intro index member
          rw [List.mem_append, List.mem_append, List.mem_singleton] at member
          rcases member with (inRun | rfl) | inRest
          · exact run index inRun
          · exact inside index (by simp)
          · exact behind index inRest

/-- One round of the outer loop ends, whatever the table holds. -/
theorem readRun_ends
    (memory : Memory)
    (drive : Drive)
    (destination : PtrT)
    (first : BitVec 16) :
    ∃ enough memory' drive' destination',
      ∀ fuel ≥ enough,
        readRun fuel info clusterTable memory drive destination first =
          some
            (memory', drive', destination',
              clusterTable (lastOfExtendedRun info clusterTable first)) := by
  rcases extended :
    extendRun clusterTable (256 / info.sectorsPerCluster.toNat - 1) first 1
    with ⟨last, run⟩
  have lastIs : lastOfExtendedRun info clusterTable first = last :=
    congrArg Prod.fst extended
  let sectors := run * info.sectorsPerCluster.toNat
  obtain ⟨enough, later, -, ends⟩ :=
    diskReadFrom_eq memory drive destination (first.setWidth 32)
      (BitVec.ofNat 8 sectors)
  generalize storeBytes memory destination _ _ = memory' at ends
  refine ⟨enough, memory', later,
    destination + BitVec.ofNat 32 (sectors * info.bytesPerSector.toNat),
    fun fuel fueled => ?_⟩
  rw [readRun, extended, lastIs]
  dsimp only
  rw [ends fuel fueled]
  rfl

/-- The outer loop ends on a chain through the table. -/
theorem readRuns_ends
    {first : BitVec 16}
    {clusters : List (BitVec 16)}
    (chain : LinkedChain clusterTable EndsChain first clusters)
    (inside : ∀ cluster ∈ clusters, cluster.toNat < 0xC00)
    (memory : Memory)
    (drive : Drive)
    (destination : PtrT) :
    ∃ enough result,
      ∀ waitFuel ≥ enough,
        ∀ fuel > clusters.length,
          readRuns waitFuel info clusterTable fuel memory drive
              destination first =
            some result := by
  induction length : clusters.length using Nat.strong_induction_on
    generalizing clusters first memory drive destination with
  | _ length inductionHypothesis =>
      cases chain with
      | nil ended =>
          refine ⟨0, (memory, drive), fun waitFuel _ fuel fueled => ?_⟩
          obtain ⟨fuel, rfl⟩ :=
            Nat.exists_eq_succ_of_ne_zero (Nat.ne_zero_of_lt fueled)
          rw [readRuns, if_neg (Nat.not_lt_of_le ended)]
      | cons continues tailChain =>
          obtain ⟨front, last, tail, listed, extended, -, -, -, nextChain⟩ :=
            extendRun_spec (.cons continues tailChain) inside
              (256 / info.sectorsPerCluster.toNat - 1) 1
          have lastIs : lastOfExtendedRun info clusterTable first = last :=
            congrArg Prod.fst extended
          rw [← lastIs] at nextChain
          obtain ⟨enough, memory', drive', destination', ends⟩ :=
            @readRun_ends info clusterTable memory drive destination first
          rw [listed] at inside length
          rw [List.length_append, List.length_cons] at length
          obtain ⟨enoughTail, result, endsTail⟩ :=
            inductionHypothesis tail.length (by omega) nextChain
              (fun cluster member => inside cluster (by simp [member]))
              memory' drive' destination' rfl
          refine ⟨max enough enoughTail, result, ?_⟩
          intro waitFuel waited fuel fueled
          obtain ⟨fuel, rfl⟩ :=
            Nat.exists_eq_succ_of_ne_zero (Nat.ne_zero_of_lt fueled)
          rw [readRuns, if_pos (Nat.lt_of_not_le continues),
            ends waitFuel (by omega)]
          exact endsTail waitFuel (by omega) fuel (by omega)

/-! ## What is read safely is a chain through the table -/

/-- A chain through the table from a cluster on. -/
def ChainInside (clusterTable : ClusterTable) (start : BitVec 16) : Prop :=
  ∃ clusters,
    LinkedChain clusterTable EndsChain start clusters ∧
      ∀ cluster ∈ clusters, cluster.toNat < 0xC00

/-- A cluster in front of a chain through the table. -/
theorem ChainInside.cons
    {cluster : BitVec 16}
    (small : cluster.toNat < 0xC00)
    (chain : ChainInside clusterTable (clusterTable cluster)) :
    ChainInside clusterTable cluster := by
  obtain ⟨clusters, linked, inside⟩ := chain
  have continues : ¬EndsChain cluster := by
    unfold EndsChain
    omega
  exact ⟨cluster :: clusters, .cons continues linked,
    List.forall_mem_cons.mpr ⟨small, inside⟩⟩

/-- The clusters of a run lie in front of the chain behind it. -/
theorem ChainInside.extendRun
    {remaining run : Nat}
    {current : BitVec 16}
    (reads :
      ∀ index ∈ extendRunReads clusterTable remaining current,
        index.toNat < 0xC00)
    (last : (extendRun clusterTable remaining current run).1.toNat < 0xC00)
    (chain :
      ChainInside clusterTable
        (clusterTable (extendRun clusterTable remaining current run).1)) :
    ChainInside clusterTable current := by
  induction remaining generalizing current run with
  | zero =>
      exact ChainInside.cons last chain
  | succ remaining inductionHypothesis =>
      rw [HobbyOS.extendRun] at last chain
      by_cases follows :
          current.toNat < 0xFFF0 ∧
            (clusterTable current).toNat = current.toNat + 1
      · rw [if_pos follows] at last chain
        rw [extendRunReads, if_pos follows.1, if_pos follows.2,
          List.forall_mem_cons, List.forall_mem_cons] at reads
        exact ChainInside.cons reads.1
          (inductionHypothesis reads.2.2 last chain)
      · rw [if_neg follows] at last chain
        exact ChainInside.cons last chain

/-- The outer loop ends, with reads inside the table, on chains only. -/
theorem chainInside_of_readRuns
    {waitFuel fuel : Nat}
    {memory : Memory}
    {drive : Drive}
    {destination : PtrT}
    {first : BitVec 16}
    {result : Memory × Drive}
    (reads :
      ∀ index ∈ readRunsReads info clusterTable fuel first,
        index.toNat < 0xC00)
    (ended :
      readRuns waitFuel info clusterTable fuel memory drive destination
          first =
        some result) :
    ChainInside clusterTable first := by
  induction fuel generalizing memory drive destination first with
  | zero =>
      simp [readRuns] at ended
  | succ fuel inductionHypothesis =>
      rw [readRuns] at ended
      by_cases continues : first.toNat < 0xFFF0
      · rw [if_pos continues, Option.bind_eq_bind,
          Option.bind_eq_some_iff] at ended
        obtain ⟨⟨memory', drive', destination', next⟩, read, rest⟩ := ended
        rw [readRun, Option.bind_eq_bind, Option.bind_eq_some_iff] at read
        obtain ⟨_, _, returned⟩ := read
        cases returned
        rw [readRunsReads, if_pos continues, readRunReads,
          List.forall_mem_append, List.forall_mem_append] at reads
        exact
          ChainInside.extendRun reads.1.1
            (reads.1.2 _ (by simp [lastOfExtendedRun]))
            (inductionHypothesis reads.2 rest)
      · exact ⟨[], .nil (Nat.le_of_not_lt continues), by simp⟩

/--
A file is read safely exactly if the links from its starting cluster go
through the table and come to a value from 0xFFF0 on.
-/
theorem readAllTo_readsSafely_iff
    (divides : info.sectorsPerCluster ≠ 0)
    (startingCluster : BitVec 16) :
    ReadsSafely info clusterTable startingCluster ↔
      ChainInside clusterTable startingCluster := by
  constructor
  · intro safe
    -- Any memory with such an entry will do.
    have starts :
        readHalf (writeHalf (fun _ => 0) 26 startingCluster)
            (0 + BitVec.ofNat 32 startingClusterOffset) =
          startingCluster :=
      readHalf_writeHalf_self _ _ _
    obtain ⟨fuel, result, ended⟩ :=
      safe.terminates _ emptyDrive 0x100000 0 starts
    rw [readAllTo, starts] at ended
    exact chainInside_of_readRuns (safe.inside fuel) ended
  · rintro ⟨clusters, chain, inside⟩
    refine ⟨divides, ?_, readRunsReads_inside chain inside⟩
    intro memory drive destination entry starts
    obtain ⟨enough, result, ends⟩ :=
      readRuns_ends chain inside memory drive destination
    refine ⟨max enough (clusters.length + 1), result, ?_⟩
    rw [readAllTo, starts]
    exact ends _ (Nat.le_max_left _ _) _ (Nat.le_max_right _ _)

end Tables

/-- Three clusters one behind the other are read safely. -/
theorem readAllTo_readsSafely_iff_short :
    ReadsSafely imageInfo (straightTable 102) 100 :=
  (readAllTo_readsSafely_iff (by decide) 100).mpr
    ⟨straightClusters 100 2, straightTable_chain 100 2 (by decide),
      straightClusters_inside (by decide)⟩

/-- A file that starts at cluster 0xC00 is looked up behind the table. -/
theorem readAllTo_readsSafely_fails :
    ¬∀ (info : DiskFSInfo)
        (clusterTable : ClusterTable)
        (startingCluster : BitVec 16),
      info.sectorsPerCluster ≠ 0 →
      ReadsSafely info clusterTable startingCluster := by
  intro claimed
  have safe := claimed imageInfo (fun _ => 0xFFFF) 0xC00 (by decide)
  exact absurd (safe.inside 1 0xC00 (by decide)) (by decide)

end HobbyOS
