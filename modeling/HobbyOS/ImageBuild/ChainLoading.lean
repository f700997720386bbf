import HobbyOS.ImageBuild.ImageContents

namespace HobbyOS

open Library

/-!
# Loading files from the packaged image

Every file that was added is read back by following its chain from the
starting cluster in its entry, as the boot loader does.
-/

/-- Files that can be added one after the other. -/
structure Buildable
    (bootcode : List Byte)
    (sources : List SourceFile) :
    Prop where
  aligned : 512 ∣ bootcode.length
  admissible : ∀ source ∈ sources, source.Admissible
  few : sources.length ≤ 511
  fits : reservedSectors bootcode + clustersOf sources ≤ 12 * 512 / 2

/-- A file is loaded by the chain from the starting cluster in its entry. -/
structure FileLoads
    (image : List Byte)
    (es : SegmentMemory)
    (index : Nat)
    (source : SourceFile)
    (chain : List (BitVec 16)) :
    Prop where
  linked :
    LinkedChain (segmentTable es) EndsChain
      (readHalf es (startingClusterAt index)) chain
  counted :
    chain.length = max 1 ((source.contents.length + 511) / 512)
  ended : ∀ last ∈ chain.getLast?, EndsChain (segmentTable es last)
  loaded :
    ∀ fuel transferBufferEs,
      chain.length ≤ fuel →
      more es fuel (startingClusterAt index) transferBufferEs =
        some (loadsOf transferBufferEs chain)
  read :
    ∃ filling,
      chain.flatMap (fun cluster => sector image cluster.toNat) =
        source.contents ++ filling ∧
      if source.contents = [] then
        filling.length = 512
      else
        filling.length < 512

/--
The chains of the files share no cluster, and each file is loaded by its
chain.  The data always has one sector for each cluster that was handed out.
-/
structure ImageLoads
    (bootcode : List Byte)
    (sources : List SourceFile)
    (others : SegmentMemory) :
    Prop where
  data :
    ∀ before,
      before <+: sources →
      reservedSectors bootcode ≤ (buildImage bootcode before).clust ∧
        (buildImage bootcode before).data.length =
          ((buildImage bootcode before).clust -
              reservedSectors bootcode) *
            512
  chains :
    ∃ chains : List (List (BitVec 16)),
      chains.length = sources.length ∧
      chains.Pairwise List.Disjoint ∧
      ∀ index source chain,
        sources[index]? = some source →
        chains[index]? = some chain →
        FileLoads
          (packageImage bootcode (buildImage bootcode sources))
          (bootSegment bootcode
            (packageImage bootcode (buildImage bootcode sources)) others)
          index source chain

/-- The chains of files that are added from a cluster on. -/
def chainsFrom : Nat → List SourceFile → List (List (BitVec 16))
  | _, [] => []
  | first, source :: rest =>
      straightClusters first (clusterCount source.contents.length - 1) ::
        chainsFrom (first + clusterCount source.contents.length) rest

/-- A file has at least one cluster. -/
theorem clusterCount_pos (fileSize : Nat) : 0 < clusterCount fileSize :=
  Nat.lt_of_lt_of_le Nat.one_pos (Nat.le_max_left _ _)

/-! ## The chains -/

/-- There is one chain for each file. -/
@[simp] theorem length_chainsFrom
    (first : Nat)
    (sources : List SourceFile) :
    (chainsFrom first sources).length = sources.length := by
  induction sources generalizing first with
  | nil =>
      rfl
  | cons source rest inductionHypothesis =>
      rw [chainsFrom, List.length_cons, inductionHypothesis,
        List.length_cons]

/-- The chain of a file begins behind the clusters of the files before it. -/
theorem chainsFrom_append
    (first : Nat)
    (before : List SourceFile)
    (source : SourceFile)
    (after : List SourceFile) :
    (chainsFrom first (before ++ source :: after))[before.length]? =
      some
        (straightClusters (first + clustersOf before)
          (clusterCount source.contents.length - 1)) := by
  induction before generalizing first with
  | nil =>
      rfl
  | cons other before inductionHypothesis =>
      rw [List.cons_append, chainsFrom, List.length_cons,
        List.getElem?_cons_succ, inductionHypothesis, clustersOf_cons,
        Nat.add_assoc]

/-- The clusters of later files have later numbers. -/
theorem chainsFrom_above
    {first : Nat}
    {sources : List SourceFile}
    (fits : first + clustersOf sources ≤ 0xC00)
    {chain : List (BitVec 16)}
    (listed : chain ∈ chainsFrom first sources)
    {cluster : BitVec 16}
    (member : cluster ∈ chain) :
    first ≤ cluster.toNat := by
  induction sources generalizing first with
  | nil =>
      cases listed
  | cons source rest inductionHypothesis =>
      rw [clustersOf_cons] at fits
      have some_ := clusterCount_pos source.contents.length
      rw [chainsFrom, List.mem_cons] at listed
      rcases listed with rfl | listed
      · obtain ⟨index, inside, rfl⟩ := mem_straightClusters.mp member
        rw [BitVec.toNat_ofNat, Nat.mod_eq_of_lt (by omega)]
        exact Nat.le_add_right _ _
      · have above := inductionHypothesis (by omega) listed
        omega

/-- The chains of files share no cluster. -/
theorem pairwise_chainsFrom
    {first : Nat}
    {sources : List SourceFile}
    (fits : first + clustersOf sources ≤ 0xC00) :
    (chainsFrom first sources).Pairwise List.Disjoint := by
  induction sources generalizing first with
  | nil =>
      exact List.Pairwise.nil
  | cons source rest inductionHypothesis =>
      rw [clustersOf_cons] at fits
      have some_ := clusterCount_pos source.contents.length
      refine List.Pairwise.cons ?_ (inductionHypothesis (by omega))
      intro chain listed cluster own shared
      have above := chainsFrom_above (by omega) listed shared
      obtain ⟨index, inside, rfl⟩ := mem_straightClusters.mp own
      rw [BitVec.toNat_ofNat, Nat.mod_eq_of_lt (by omega)] at above
      omega

/-! ## The files that were built -/

section Files

variable
  {bootcode : List Byte}
  {sources : List SourceFile}

/-- The files that were added first can be added alone. -/
theorem Buildable.of_append
    {after : List SourceFile}
    (buildable : Buildable bootcode (sources ++ after)) :
    Buildable bootcode sources := by
  obtain ⟨aligned, admissible, few, fits⟩ := buildable
  rw [List.length_append] at few
  rw [clustersOf_append] at fits
  refine ⟨aligned, ?_, by omega, by omega⟩
  intro source member
  exact admissible source (List.mem_append_left _ member)

/-- Every run of a sequence that fits adds its file. -/
theorem Buildable.built (buildable : Buildable bootcode sources) :
    Built bootcode sources (buildImage bootcode sources) := by
  induction sources using List.reverseRecOn with
  | nil =>
      exact built_initImage buildable.fits
  | append_singleton sources source inductionHypothesis =>
      obtain ⟨later, added, built⟩ :=
        (inductionHypothesis buildable.of_append).addFile
          (buildable.admissible source (by simp)) buildable.fits
      have last :
          buildImage bootcode (sources ++ [source]) =
            (addFileMain bootcode (buildImage bootcode sources)
              source.name (some source.contents)).2 := by
        simp [buildImage]
      rwa [last, added]

end Files

/-! ## Stored files -/

section Stored

variable
  {bootcode : List Byte}
  {before : List SourceFile}
  {source : SourceFile}
  {files : ImageFiles}
  (stored : FileStored bootcode before source files)
  (table : files.clustertable.length = 12 * 512)
  (fits :
    reservedSectors bootcode + clustersOf before +
        clusterCount source.contents.length ≤
      0xC00)
  (others : SegmentMemory)

include stored table fits in
/-- A stored file has a straight chain. -/
theorem FileStored.linked :
    LinkedChain
      (segmentTable
        (bootSegment bootcode (packageImage bootcode files) others))
      EndsChain
      (BitVec.ofNat 16 (reservedSectors bootcode + clustersOf before))
      (straightClusters (reservedSectors bootcode + clustersOf before)
        (clusterCount source.contents.length - 1)) := by
  have some_ := clusterCount_pos source.contents.length
  refine linkedChain_straightClusters (by omega) ?_ ?_
  · intro index inside
    rw [segmentTable_bootSegment others table (by omega),
      stored.links index (by omega), if_pos (by omega)]
  · rw [segmentTable_bootSegment others table (by omega),
      stored.links _ (by omega), if_neg (by omega), EndsChain]
    decide

include stored table in
/-- The entry of a stored file holds its first cluster. -/
theorem FileStored.starting
    (directory : files.filetable.length ≤ 32 * 512)
    (inside : 32 * (before.length + 1) + 27 < files.filetable.length) :
    readHalf (bootSegment bootcode (packageImage bootcode files) others)
        (startingClusterAt before.length) =
      BitVec.ofNat 16 (reservedSectors bootcode + clustersOf before) := by
  rw [readHalf_startingClusterAt others table directory inside,
    stored.entry.1, stored.entry.2, ofNat_append_bytes]

include stored table fits in
/-- The sectors of a stored file hold its bytes. -/
theorem FileStored.read
    (aligned : 512 ∣ bootcode.length)
    (directory : files.filetable.length ≤ 32 * 512) :
    ∃ filling,
      (straightClusters (reservedSectors bootcode + clustersOf before)
            (clusterCount source.contents.length - 1)).flatMap
          (fun cluster =>
            sector (packageImage bootcode files) cluster.toNat) =
        source.contents ++ filling ∧
      if source.contents = [] then
        filling.length = 512
      else
        filling.length < 512 := by
  have some_ := clusterCount_pos source.contents.length
  obtain ⟨filling, held, length⟩ := stored.sectors
  refine ⟨filling, ?_, ?_⟩
  · rw [flatMap_sector_straightClusters _ (by omega),
      Nat.sub_add_cancel some_, Nat.add_mul, ← List.drop_drop,
      drop_packageImage aligned table directory, held]
  · obtain ⟨_, empty, nonempty⟩ := clusterCount_spec source.contents.length
    split
    · rename_i isEmpty
      rw [isEmpty, List.length_nil] at empty length
      have whole := empty rfl
      omega
    · rename_i isNonempty
      have below :=
        nonempty fun none => isNonempty (List.length_eq_zero_iff.mp none)
      omega

end Stored

/-- A file that was stored is loaded. -/
theorem Built.fileLoads
    {bootcode : List Byte}
    {before after : List SourceFile}
    {source : SourceFile}
    (buildable : Buildable bootcode (before ++ source :: after))
    {files : ImageFiles}
    (built : Built bootcode (before ++ source :: after) files)
    (others : SegmentMemory) :
    FileLoads (packageImage bootcode files)
      (bootSegment bootcode (packageImage bootcode files) others)
      before.length source
      (straightClusters (reservedSectors bootcode + clustersOf before)
        (clusterCount source.contents.length - 1)) := by
  have some_ := clusterCount_pos source.contents.length
  have fits := buildable.fits
  rw [clustersOf_append, clustersOf_cons] at fits
  have few := buildable.few
  have directory := built.directory
  rw [List.length_append, List.length_cons] at few directory
  have stored := built.stored before source after rfl
  have starting :=
    stored.starting built.table others (by omega) (by omega)
  have linked := stored.linked built.table (by omega) others
  refine ⟨starting ▸ linked, ?_, ?_, ?_, ?_⟩
  · rw [length_straightClusters, Nat.sub_add_cancel some_]
    rfl
  · intro last isLast
    exact linked.ends_getLast isLast
  · intro fuel transferBufferEs enough
    have inside :=
      @straightClusters_inside
        (reservedSectors bootcode + clustersOf before)
        (clusterCount source.contents.length - 1) (by omega)
    rw [straightClusters_eq_cons] at linked inside enough ⊢
    exact more_eq (fun _ _ => rfl) linked inside starting
      transferBufferEs enough
  · exact stored.read built.table (by omega) buildable.aligned (by omega)

/-- Files that are added one after the other and packaged are loaded. -/
theorem buildImage_loads
    {bootcode : List Byte}
    {sources : List SourceFile}
    (buildable : Buildable bootcode sources)
    (others : SegmentMemory) :
    ImageLoads bootcode sources others := by
  refine
    ⟨?_, chainsFrom (reservedSectors bootcode) sources,
      length_chainsFrom _ _, pairwise_chainsFrom buildable.fits, ?_⟩
  · rintro before ⟨after, rfl⟩
    have built := buildable.of_append.built
    rw [built.current, built.data, Nat.add_sub_cancel_left]
    exact ⟨Nat.le_add_right _ _, rfl⟩
  · intro index source chain isSource isChain
    obtain ⟨inside, isAt⟩ := List.getElem?_eq_some_iff.mp isSource
    have split :
        sources =
          sources.take index ++ source :: sources.drop (index + 1) := by
      rw [← isAt, List.getElem_cons_drop, List.take_append_drop]
    have length : (sources.take index).length = index :=
      List.length_take_of_le (Nat.le_of_lt inside)
    have chainAt :=
      chainsFrom_append (reservedSectors bootcode) (sources.take index)
        source (sources.drop (index + 1))
    rw [← split, length, isChain] at chainAt
    rw [Option.some.inj chainAt]
    have loads :=
      @Built.fileLoads bootcode (sources.take index)
        (sources.drop (index + 1)) source (split ▸ buildable)
        (buildImage bootcode sources) (split ▸ buildable.built) others
    rwa [length] at loads

/-- A file with an extension, and an empty file without one. -/
def twoSources : List SourceFile :=
  [⟨['a', '.', 'b'], List.replicate 512 0x41⟩, ⟨['c'], []⟩]

/-- Both files are loaded. -/
theorem buildImage_loads_twoSources :
    ImageLoads (List.replicate 512 0x90) twoSources (fun _ => 0) := by
  refine buildImage_loads ⟨?_, ?_, by decide, ?_⟩ _
  · rw [List.length_replicate]
  · intro source member
    rw [twoSources, List.mem_cons, List.mem_singleton] at member
    have dotted : Ascii ['a', '.', 'b'] := by decide
    have plain : Ascii ['c'] ∧ '.' ∉ ['c'] := by decide
    rcases member with rfl | rfl
    · refine ⟨dotted, by decide, Or.inr ⟨['a'], ['b'], rfl, ?_⟩⟩
      decide
    · exact ⟨plain.1, by decide, Or.inl plain.2⟩
  · rw [reservedSectors, clustersOf, twoSources, List.map_cons,
      List.map_singleton, List.length_replicate, List.length_replicate]
    decide

end HobbyOS
