import Mathlib.Algebra.Group.Nat.Defs
import Mathlib.Data.Nat.Basic
import HobbyOS.ImageBuild.AddFile

namespace HobbyOS

/-!
# The clusters of a file in the table

A file gets the next clusters, linked to each other and ended by 0xFFFF, if
the table has room for them.  The entries of other clusters are left alone,
and without room the table is not changed.
-/

/-- The little-endian entry of a cluster. -/
def linkEntry (clusters : List Byte) (cluster : Nat) : BitVec 16 :=
  clusters.getD (cluster * 2 + 1) 0 ++ clusters.getD (cluster * 2) 0

/-- The number of clusters that a file gets. -/
def clusterCount (fileSize : Nat) : Nat :=
  max 1 ((fileSize + 511) / 512)

/-- The loop links all clusters but the last one. -/
theorem count_add_one (fileSize : Nat) :
    (fileSize / 512 - if fileSize % 512 = 0 then 1 else 0) + 1 =
      clusterCount fileSize := by
  unfold clusterCount
  split <;> omega

/-- The last cluster of a file is not empty, but for an empty file. -/
theorem clusterCount_spec (fileSize : Nat) :
    fileSize ≤ clusterCount fileSize * 512 ∧
      (fileSize = 0 → clusterCount fileSize * 512 = 512) ∧
      (fileSize ≠ 0 → clusterCount fileSize * 512 < fileSize + 512) := by
  unfold clusterCount
  omega

/-- The two bytes of a number. -/
theorem ofNat_append_bytes (value : Nat) :
    BitVec.ofNat 8 (value / 256) ++ BitVec.ofNat 8 value =
      BitVec.ofNat 16 value := by
  apply BitVec.eq_of_toNat_eq
  have low : value % 2 ^ 8 < 2 ^ 8 := Nat.mod_lt _ (by omega)
  rw [BitVec.toNat_append, BitVec.toNat_ofNat, BitVec.toNat_ofNat,
    BitVec.toNat_ofNat, ← Nat.shiftLeft_add_eq_or_of_lt low,
    Nat.shiftLeft_eq]
  omega

/-- A number below 2^16 as two bytes. -/
theorem toBytes_two {value : Nat} (small : value < 65536) :
    toBytes value 2 =
      .ok [BitVec.ofNat 8 value, BitVec.ofNat 8 (value / 256)] := by
  rw [toBytes, if_pos (show value < 256 ^ 2 from small)]
  simp [List.range_succ]

/-! ## Computations that raise exceptions -/

/-- What a computation that goes on has computed before. -/
theorem bind_eq_ok
    {First Second : Type}
    {first : Except Exit First}
    {second : First → Except Exit Second}
    {result : Second} :
    (first >>= second) = .ok result ↔
      ∃ middle, first = .ok middle ∧ second middle = .ok result := by
  cases first with
  | error exit =>
      simp [bind, Except.bind]
  | ok middle =>
      simp [bind, Except.bind]

/-- A computation that does not go on raises an exception. -/
def Raises {Result : Type} (computation : Except Exit Result) : Prop :=
  ∀ exit, computation = .error exit → exit ≠ .done

/-- Computations one behind the other raise exceptions. -/
theorem Raises.bind
    {First Second : Type}
    {first : Except Exit First}
    {second : First → Except Exit Second}
    (firstRaises : Raises first)
    (secondRaises : ∀ middle, Raises (second middle)) :
    Raises (first >>= second) := by
  cases first with
  | error exit =>
      intro other raised
      obtain rfl := Except.error.inj raised
      exact firstRaises exit rfl
  | ok middle =>
      exact secondRaises middle

/-- A result is no exception. -/
theorem raises_ok {Result : Type} (result : Result) :
    Raises (.ok result) := by
  intro exit raised
  cases raised

/-- `to_bytes` raises `OverflowError`. -/
theorem toBytes_raises (value length : Nat) :
    Raises (toBytes value length) := by
  unfold toBytes
  split
  · exact raises_ok _
  · rintro exit ⟨⟩
    exact Exit.noConfusion

/-- Setting an entry raises `IndexError`. -/
theorem setCluster_raises
    (clusters : List Byte)
    (cluster : Nat)
    (entry : List Byte) :
    Raises (setCluster clusters cluster entry) := by
  unfold setCluster
  split
  · exact raises_ok _
  · rintro exit ⟨⟩
    exact Exit.noConfusion

/-- The loop raises what its parts raise. -/
theorem linkClusters_raises
    (count : Nat)
    (clusters : List Byte)
    (currentCluster : Nat) :
    Raises (linkClusters count clusters currentCluster) := by
  induction count generalizing clusters currentCluster with
  | zero =>
      exact raises_ok _
  | succ count inductionHypothesis =>
      rw [linkClusters]
      exact
        (toBytes_raises _ _).bind fun _ =>
          (setCluster_raises _ _ _).bind fun _ =>
            inductionHypothesis _ _

/-- Allocating clusters raises what its parts raise. -/
theorem allocateClusters_raises
    (clusters : List Byte)
    (currentCluster fileSize : Nat) :
    Raises (allocateClusters clusters currentCluster fileSize) :=
  (linkClusters_raises _ _ _).bind fun _ =>
    (setCluster_raises _ _ _).bind fun _ => raises_ok _

/-! ## The entries of the table -/

section Entries

variable
  {clusters : List Byte}
  {cluster : Nat}

/-- Set the entry of a cluster inside the table. -/
theorem setCluster_ok
    (inside : cluster * 2 + 1 < clusters.length)
    (low high : Byte) :
    ∃ clusters',
      setCluster clusters cluster [low, high] = .ok clusters' ∧
      clusters'.length = clusters.length ∧
      ∀ other,
        linkEntry clusters' other =
          if other = cluster then high ++ low
          else linkEntry clusters other := by
  refine ⟨_, if_pos inside, by simp, ?_⟩
  intro other
  unfold linkEntry
  simp only [List.getD_eq_getElem?_getD, List.getElem?_set,
    List.length_set]
  by_cases here : other = cluster
  · subst here
    have first : other * 2 < clusters.length := by omega
    simp [inside, first]
  · have even : ¬cluster * 2 = other * 2 := by omega
    have odd : ¬cluster * 2 + 1 = other * 2 + 1 := by omega
    have first : ¬cluster * 2 = other * 2 + 1 := by omega
    have second : ¬cluster * 2 + 1 = other * 2 := by omega
    rw [if_neg odd, if_neg first, if_neg second, if_neg even, if_neg here]

/-- The loop links clusters to the next ones. -/
theorem linkClusters_ok
    (count : Nat)
    {currentCluster : Nat}
    (inside : (currentCluster + count) * 2 ≤ clusters.length)
    (small : currentCluster + count < 65536) :
    ∃ clusters',
      linkClusters count clusters currentCluster =
        .ok (clusters', currentCluster + count) ∧
      clusters'.length = clusters.length ∧
      ∀ other,
        linkEntry clusters' other =
          if currentCluster ≤ other ∧ other < currentCluster + count then
            BitVec.ofNat 16 (other + 1)
          else
            linkEntry clusters other := by
  induction count generalizing clusters currentCluster with
  | zero =>
      refine ⟨clusters, rfl, rfl, ?_⟩
      intro other
      rw [if_neg (by omega)]
  | succ count inductionHypothesis =>
      obtain ⟨set, isSet, sameLength, entries⟩ :=
        @setCluster_ok clusters currentCluster (by omega)
          (BitVec.ofNat 8 (currentCluster + 1))
          (BitVec.ofNat 8 ((currentCluster + 1) / 256))
      obtain ⟨clusters', linked, length, linkedEntries⟩ :=
        @inductionHypothesis set (currentCluster + 1) (by omega) (by omega)
      refine ⟨clusters', ?_, length.trans sameLength, ?_⟩
      · rw [linkClusters, toBytes_two (by omega)]
        show (setCluster clusters currentCluster _).bind _ = _
        rw [isSet]
        show linkClusters count set (currentCluster + 1) = _
        rw [linked]
        congr 2
        omega
      · intro other
        rw [linkedEntries, entries, ofNat_append_bytes]
        by_cases here : other = currentCluster
        · subst here
          rw [if_neg (by omega), if_pos rfl, if_pos (by omega)]
        · rw [if_neg here]
          by_cases linkedToo :
              currentCluster + 1 ≤ other ∧
                other < currentCluster + 1 + count
          · rw [if_pos linkedToo, if_pos (by omega)]
          · rw [if_neg linkedToo, if_neg (by omega)]

/-- An entry that is set is inside of the table, and keeps its length. -/
theorem setCluster_length
    {entry clusters' : List Byte}
    (set : setCluster clusters cluster entry = .ok clusters') :
    cluster * 2 + 1 < clusters.length ∧
      clusters'.length = clusters.length := by
  unfold setCluster at set
  split at set
  · rename_i inside
    obtain rfl := Except.ok.inj set
    exact ⟨inside, by simp⟩
  · cases set

/-- The loop keeps the length of the table and counts the clusters. -/
theorem linkClusters_length
    {count currentCluster : Nat}
    {last : List Byte × Nat}
    (linked : linkClusters count clusters currentCluster = .ok last) :
    last.1.length = clusters.length ∧
      last.2 = currentCluster + count := by
  induction count generalizing clusters currentCluster with
  | zero =>
      obtain rfl := Except.ok.inj linked
      exact ⟨rfl, rfl⟩
  | succ count inductionHypothesis =>
      rw [linkClusters, bind_eq_ok] at linked
      obtain ⟨next, _, linked⟩ := linked
      rw [bind_eq_ok] at linked
      obtain ⟨middle, set, linked⟩ := linked
      obtain ⟨length, counted⟩ := inductionHypothesis linked
      refine ⟨length.trans (setCluster_length set).2, ?_⟩
      rw [counted]
      omega

/-- A file that gets its clusters has room in the table, and takes it. -/
theorem allocateClusters_length
    {currentCluster fileSize : Nat}
    {last : List Byte × Nat}
    (allocated :
      allocateClusters clusters currentCluster fileSize = .ok last) :
    (currentCluster + clusterCount fileSize) * 2 ≤ clusters.length ∧
      last.1.length = clusters.length ∧
      last.2 = currentCluster + clusterCount fileSize := by
  rw [allocateClusters, bind_eq_ok] at allocated
  obtain ⟨linked, isLinked, allocated⟩ := allocated
  rw [bind_eq_ok] at allocated
  obtain ⟨set, isSet, isLast⟩ := allocated
  obtain rfl := Except.ok.inj isLast
  obtain ⟨length, counted⟩ := linkClusters_length isLinked
  obtain ⟨inside, sameLength⟩ := setCluster_length isSet
  have count := count_add_one fileSize
  refine ⟨by omega, sameLength.trans length, ?_⟩
  show linked.2 + 1 = _
  rw [counted, ← count, Nat.add_assoc]

/-- A file gets the next clusters if the table has room. -/
theorem allocateClusters_ok
    {currentCluster fileSize : Nat}
    (room :
      (currentCluster + clusterCount fileSize) * 2 ≤ clusters.length)
    (small : currentCluster + clusterCount fileSize ≤ 65536) :
    ∃ clusters',
      allocateClusters clusters currentCluster fileSize =
        .ok (clusters', currentCluster + clusterCount fileSize) ∧
      clusters'.length = clusters.length ∧
      (∀ index < clusterCount fileSize,
        linkEntry clusters' (currentCluster + index) =
          if index + 1 < clusterCount fileSize then
            BitVec.ofNat 16 (currentCluster + index + 1)
          else
            0xFFFF) ∧
      ∀ other < currentCluster,
        linkEntry clusters' other = linkEntry clusters other := by
  have count := count_add_one fileSize
  obtain ⟨linked, isLinked, length, entries⟩ :=
    @linkClusters_ok clusters
      (fileSize / 512 - if fileSize % 512 = 0 then 1 else 0)
      currentCluster (by omega) (by omega)
  obtain ⟨clusters', isSet, sameLength, lastEntry⟩ :=
    @setCluster_ok linked
      (currentCluster +
        (fileSize / 512 - if fileSize % 512 = 0 then 1 else 0))
      (by omega) 0xFF 0xFF
  refine ⟨clusters', ?_, sameLength.trans length, ?_, ?_⟩
  · rw [allocateClusters, isLinked]
    show (setCluster linked _ _).bind _ = _
    rw [isSet, ← count]
    rfl
  · intro index inside
    rw [lastEntry, entries]
    by_cases last : index + 1 < clusterCount fileSize
    · rw [if_neg (by omega), if_pos (by omega), if_pos last]
    · rw [if_pos (by omega), if_neg last]
      decide
  · intro other before
    rw [lastEntry, entries, if_neg (by omega), if_neg (by omega)]

end Entries

end HobbyOS
