import HobbyOS.Boot.FindEntry

namespace HobbyOS

open Library

/-!
# Chains of clusters one behind the other

Files are added with their clusters one behind the other, so the table links
each cluster to the next number, up to the last one.
-/

/-- The numbers of `count + 1` clusters one behind the other. -/
def straightClusters (first count : Nat) : List (BitVec 16) :=
  (List.range' first (count + 1)).map (BitVec.ofNat 16)

/-- The first cluster comes first. -/
theorem straightClusters_eq_cons (first count : Nat) :
    straightClusters first count =
      BitVec.ofNat 16 first ::
        (List.range' (first + 1) count).map (BitVec.ofNat 16) := by
  rw [straightClusters, List.range'_succ, List.map_cons]

/-- The first cluster and the clusters behind it. -/
theorem straightClusters_succ (first count : Nat) :
    straightClusters first (count + 1) =
      BitVec.ofNat 16 first :: straightClusters (first + 1) count :=
  straightClusters_eq_cons first (count + 1)

/-- The clusters are numbered from the first one on. -/
theorem mem_straightClusters
    {first count : Nat}
    {cluster : BitVec 16} :
    cluster ∈ straightClusters first count ↔
      ∃ index ≤ count, BitVec.ofNat 16 (first + index) = cluster := by
  rw [straightClusters, List.mem_map]
  constructor
  · rintro ⟨number, numbered, rfl⟩
    rw [List.mem_range'_1] at numbered
    refine ⟨number - first, by omega, ?_⟩
    rw [Nat.add_sub_cancel' numbered.1]
  · rintro ⟨index, small, rfl⟩
    refine ⟨first + index, ?_, rfl⟩
    rw [List.mem_range'_1]
    omega

/-- The number of the clusters. -/
@[simp] theorem length_straightClusters (first count : Nat) :
    (straightClusters first count).length = count + 1 := by
  rw [straightClusters, List.length_map, List.length_range']

/-- The clusters of the straight chain lie inside the table. -/
theorem straightClusters_inside
    {first count : Nat}
    (small : first + count < 0xC00) :
    ∀ cluster ∈ straightClusters first count, cluster.toNat < 0xC00 := by
  intro cluster member
  obtain ⟨index, before, rfl⟩ := mem_straightClusters.mp member
  rw [BitVec.toNat_ofNat]
  omega

/-- A table that links clusters to the next numbers has their chain. -/
theorem linkedChain_straightClusters
    {table : BitVec 16 → BitVec 16}
    {first count : Nat}
    (small : first + count < 0xC00)
    (linked :
      ∀ index < count,
        table (BitVec.ofNat 16 (first + index)) =
          BitVec.ofNat 16 (first + index + 1))
    (ended : EndsChain (table (BitVec.ofNat 16 (first + count)))) :
    LinkedChain table EndsChain (BitVec.ofNat 16 first)
      (straightClusters first count) := by
  have continues (cluster : Nat) (low : cluster < 0xC00) :
      ¬EndsChain (BitVec.ofNat 16 cluster) := by
    rw [EndsChain, BitVec.toNat_ofNat, Nat.mod_eq_of_lt (by omega)]
    omega
  induction count generalizing first with
  | zero =>
      exact .cons (continues first small) (.nil ended)
  | succ count inductionHypothesis =>
      rw [straightClusters_succ]
      refine .cons (continues first (by omega)) ?_
      have head := linked 0 (Nat.succ_pos count)
      rw [Nat.add_zero] at head
      rw [head]
      refine inductionHypothesis (by omega) ?_ ?_
      · intro index before
        rw [Nat.add_right_comm, Nat.add_assoc]
        exact linked (index + 1) (by omega)
      · rwa [Nat.add_right_comm, Nat.add_assoc]

end HobbyOS
