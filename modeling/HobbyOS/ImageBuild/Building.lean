import Mathlib.Data.List.GetD
import Mathlib.Data.List.Induction
import Mathlib.Algebra.BigOperators.Group.List.Basic
import Mathlib.Algebra.GroupWithZero.Nat
import HobbyOS.ImageBuild.DirectoryEntries

namespace HobbyOS

/-!
# Adding files one after the other

As long as the cluster table has room, every file that is added gets an entry,
a chain of the next clusters and the next sectors of the data, and the files
that were added before keep theirs.
-/

/-- A file that is added. -/
structure SourceFile where
  name : List Char
  contents : List Byte

/-- The clusters that files get. -/
def clustersOf (sources : List SourceFile) : Nat :=
  (sources.map fun source => clusterCount source.contents.length).sum

/-- The files after `-init` and a run for each source. -/
def buildImage (bootcode : List Byte) (sources : List SourceFile) :
    ImageFiles :=
  sources.foldl
    (fun files source =>
      (addFileMain bootcode files source.name (some source.contents)).2)
    (initImage bootcode)

/--
An ASCII name with at most one dot and an extension of at most 3, which is
none of the commands.
-/
def SourceFile.Admissible (source : SourceFile) : Prop :=
  Ascii source.name ∧ source.name ∉ commands ∧
    ('.' ∉ source.name ∨
      ∃ stem ext,
        source.name = stem ++ '.' :: ext ∧
          '.' ∉ stem ∧ '.' ∉ ext ∧ ext.length ≤ 3)

/-- What a file that was added behind others has got. -/
structure FileStored
    (bootcode : List Byte)
    (before : List SourceFile)
    (source : SourceFile)
    (files : ImageFiles) :
    Prop where
  entry :
    files.filetable.getD (32 * (before.length + 1) + 26) 0 =
        BitVec.ofNat 8 (reservedSectors bootcode + clustersOf before) ∧
      files.filetable.getD (32 * (before.length + 1) + 27) 0 =
        BitVec.ofNat 8
          ((reservedSectors bootcode + clustersOf before) / 256)
  links :
    ∀ index < clusterCount source.contents.length,
      linkEntry files.clustertable
          (reservedSectors bootcode + clustersOf before + index) =
        if index + 1 < clusterCount source.contents.length then
          BitVec.ofNat 16
            (reservedSectors bootcode + clustersOf before + index + 1)
        else
          0xFFFF
  sectors :
    ∃ filling,
      (files.data.drop (clustersOf before * 512)).take
          (clusterCount source.contents.length * 512) =
        source.contents ++ filling ∧
      source.contents.length + filling.length =
        clusterCount source.contents.length * 512

/-- The files after some sources were added. -/
structure Built
    (bootcode : List Byte)
    (sources : List SourceFile)
    (files : ImageFiles) :
    Prop where
  current : files.clust = reservedSectors bootcode + clustersOf sources
  table : files.clustertable.length = 12 * 512
  directory : files.filetable.length = 32 * (sources.length + 1)
  data : files.data.length = clustersOf sources * 512
  stored :
    ∀ before source after,
      sources = before ++ source :: after →
      FileStored bootcode before source files

/-- The clusters of files in two parts. -/
theorem clustersOf_append (front back : List SourceFile) :
    clustersOf (front ++ back) = clustersOf front + clustersOf back := by
  simp [clustersOf]

/-- The clusters of one more file. -/
theorem clustersOf_cons (source : SourceFile) (rest : List SourceFile) :
    clustersOf (source :: rest) =
      clusterCount source.contents.length + clustersOf rest := by
  simp [clustersOf]

/-! ## `-init` -/

/-- The entry of the volume has 32 bytes. -/
theorem length_volumeEntry : volumeEntry.length = 32 := by
  decide

/-- The table has the entries of the reserved sectors. -/
theorem length_reservedEntries
    {reserved : Nat}
    (some_ : 2 ≤ reserved) :
    (reservedEntries reserved).length = reserved * 2 := by
  rw [reservedEntries, List.length_append, List.length_map,
    List.length_range]
  show 4 + (reserved - 2) * 2 = reserved * 2
  omega

/-- The table after `-init`. -/
theorem length_clustertable_initImage (bootcode : List Byte) :
    (initImage bootcode).clustertable.length =
      max (12 * 512) (reservedSectors bootcode * 2) := by
  have some_ : 2 ≤ reservedSectors bootcode := by
    unfold reservedSectors
    omega
  simp only [initImage, List.length_append, List.length_replicate,
    length_reservedEntries some_]
  omega

/-- The files after `-init`. -/
theorem built_initImage
    {bootcode : List Byte}
    (fits : reservedSectors bootcode ≤ 3072) :
    Built bootcode [] (initImage bootcode) := by
  refine ⟨rfl, ?_, ?_, rfl, ?_⟩
  · rw [length_clustertable_initImage]
    omega
  · exact length_volumeEntry
  · intro before source after split
    simp at split

/-! ## One more file -/

/-- A file that gets its clusters is stored. -/
theorem storeFile_done
    {files : ImageFiles}
    {fileCont clusters : List Byte}
    {currentCluster : Nat}
    (allocated :
      allocateClusters files.clustertable files.clust fileCont.length =
        .ok (clusters, currentCluster))
    (entry : List Byte) :
    storeFile files entry fileCont =
      (.done,
        { filetable := files.filetable ++ entry
          clustertable := clusters
          data :=
            files.data ++ fileCont ++
              padding files.clust currentCluster fileCont.length
          clust := currentCluster }) := by
  simp only [storeFile, allocated]

/-- Files that were stored before stay stored. -/
theorem FileStored.mono
    {bootcode : List Byte}
    {before : List SourceFile}
    {source : SourceFile}
    {files later : ImageFiles}
    (stored : FileStored bootcode before source files)
    {entry bytes : List Byte}
    (directory : later.filetable = files.filetable ++ entry)
    (data : later.data = files.data ++ bytes)
    (inDirectory :
      32 * (before.length + 1) + 27 < files.filetable.length)
    (inData :
      (clustersOf before + clusterCount source.contents.length) * 512 ≤
        files.data.length)
    (table :
      ∀ other <
        reservedSectors bootcode + clustersOf before +
          clusterCount source.contents.length,
        linkEntry later.clustertable other =
          linkEntry files.clustertable other) :
    FileStored bootcode before source later := by
  refine ⟨?_, ?_, ?_⟩
  · rw [directory, List.getD_append _ _ _ _ (by omega),
      List.getD_append _ _ _ _ (by omega)]
    exact stored.entry
  · intro index inside
    rw [table _ (by omega)]
    exact stored.links index inside
  · obtain ⟨filling, read, length⟩ := stored.sectors
    refine ⟨filling, ?_, length⟩
    rw [Nat.add_mul] at inData
    have start : clustersOf before * 512 ≤ files.data.length :=
      Nat.le_trans (Nat.le_add_right _ _) inData
    have room :
        clusterCount source.contents.length * 512 ≤
          (files.data.drop (clustersOf before * 512)).length := by
      rw [List.length_drop]
      exact Nat.le_sub_of_add_le' inData
    rw [data, List.drop_append_of_le_length start,
      List.take_append_of_le_length room, read]

/-- The parts of an admissible name. -/
theorem SourceFile.Admissible.splitName
    {source : SourceFile}
    (admissible : source.Admissible) :
    ∃ name ext,
      HobbyOS.splitName source.name = .ok (name, ext) ∧
        ext.length ≤ 3 ∧ (entryHead (name.take 8) ext).length = 26 := by
  obtain ⟨ascii, _, parts⟩ := admissible
  have head (name ext : List Char)
      (nameIn : ∀ character ∈ name, character ∈ source.name)
      (extIn : ∀ character ∈ ext, character ∈ source.name)
      (short : ext.length ≤ 3) :
      (entryHead (name.take 8) ext).length = 26 := by
    refine length_entryHead ?_ ?_ (List.length_take_le 8 name) short
    · intro character member
      exact ascii character
        (nameIn character (List.mem_of_mem_take member))
    · intro character member
      exact ascii character (extIn character member)
  rcases parts with plain | ⟨stem, ext, dotted, stemPlain, extPlain, short⟩
  · refine
      ⟨source.name, [], HobbyOS.splitName_plain plain, Nat.zero_le 3, ?_⟩
    exact head _ _ (fun _ member => member) (by simp) (Nat.zero_le 3)
  · refine ⟨stem, ext, ?_, short, ?_⟩
    · rw [dotted]
      exact splitName_dot stemPlain extPlain
    · refine head _ _ ?_ ?_ short
      · intro character member
        rw [dotted]
        exact List.mem_append_left _ member
      · intro character member
        rw [dotted]
        exact List.mem_append_right _ (List.mem_cons_of_mem _ member)

/-- An admissible file that fits is added. -/
theorem Built.addFile
    {bootcode : List Byte}
    {sources : List SourceFile}
    {files : ImageFiles}
    (built : Built bootcode sources files)
    {source : SourceFile}
    (admissible : source.Admissible)
    (fits :
      reservedSectors bootcode + clustersOf (sources ++ [source]) ≤ 3072) :
    ∃ later,
      addFileMain bootcode files source.name (some source.contents) =
        (.done, later) ∧
      Built bootcode (sources ++ [source]) later := by
  have count :
      clustersOf (sources ++ [source]) =
        clustersOf sources + clusterCount source.contents.length := by
    rw [clustersOf_append, clustersOf_cons]
    rfl
  have current := built.current
  have table := built.table
  have directory := built.directory
  have data := built.data
  obtain ⟨sizeFits, _⟩ := clusterCount_spec source.contents.length
  rw [count] at fits
  obtain ⟨name, ext, split, short, head⟩ := admissible.splitName
  obtain ⟨clusters, allocated, length, links, others⟩ :=
    @allocateClusters_ok files.clustertable files.clust
      source.contents.length (by omega) (by omega)
  have stored :=
    addFile_stores split short (show files.clust < 65536 by omega)
      (show source.contents.length < 2 ^ 32 by omega)
  rw [storeFile_done allocated] at stored
  refine
    ⟨_, (addFileMain_of_not_mem admissible.2.1 _ _ _).trans stored, ?_⟩
  have entryLength :=
    length_entryBytes (name.take 8) ext files.clust
      source.contents.length
  rw [head] at entryLength
  have filled :
      source.contents.length +
          (padding files.clust
            (files.clust + clusterCount source.contents.length)
            source.contents.length).length =
        clusterCount source.contents.length * 512 := by
    rw [padding, List.length_map, List.length_range,
      Nat.add_sub_cancel_left, Nat.add_sub_cancel' sizeFits]
  refine ⟨?_, length.trans table, ?_, ?_, ?_⟩
  · show files.clust + _ = _
    rw [current, count, Nat.add_assoc]
  · show (files.filetable ++ _).length = _
    rw [List.length_append, entryLength, directory, List.length_append,
      List.length_singleton]
    omega
  · show (files.data ++ _ ++ _).length = _
    rw [List.length_append, List.length_append, data, Nat.add_assoc,
      filled, count, Nat.add_mul]
  · intro before other after listed
    rcases List.eq_nil_or_concat after with rfl | ⟨rest, last, rfl⟩
    · -- The file that is added now.
      obtain ⟨rfl, same⟩ := List.append_inj' listed rfl
      obtain rfl := (List.cons.inj same).1
      obtain ⟨low, high⟩ :=
        getD_entryBytes (name.take 8) ext files.clust
          source.contents.length
      rw [head] at low high
      refine ⟨?_, ?_, ?_⟩
      · rw [← current, ← directory]
        constructor
        · show (files.filetable ++ _).getD _ 0 = _
          rw [List.getD_append_right _ _ _ _ (Nat.le_add_right _ _),
            Nat.add_sub_cancel_left, low]
        · show (files.filetable ++ _).getD _ 0 = _
          rw [List.getD_append_right _ _ _ _ (Nat.le_add_right _ _),
            Nat.add_sub_cancel_left, high]
      · rw [← current]
        exact links
      · refine ⟨_, ?_, filled⟩
        show ((files.data ++ _ ++ _).drop _).take _ = _
        rw [List.append_assoc, ← data, List.drop_left, ← filled,
          ← List.length_append, List.take_length]
    · -- A file that was added before.
      rw [List.concat_eq_append, ← List.cons_append, ← List.append_assoc]
        at listed
      obtain ⟨split, _⟩ := List.append_inj' listed rfl
      have length := congrArg List.length split
      have clustersBefore := congrArg clustersOf split
      rw [List.length_append, List.length_cons] at length
      rw [clustersOf_append, clustersOf_cons] at clustersBefore
      refine (built.stored before other rest split).mono rfl
        (List.append_assoc _ _ _) (by omega) ?_ ?_
      · rw [data]
        exact Nat.mul_le_mul_right 512 (by omega)
      · intro cluster low
        exact others cluster (by omega)

end HobbyOS
