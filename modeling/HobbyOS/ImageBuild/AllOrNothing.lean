import HobbyOS.ImageBuild.ChainLoading
import HobbyOS.Library.TransitionSystem

namespace HobbyOS

open Library

/-!
# Runs that fail on the way

The entry of a file is written before its clusters are looked for, and nothing
looks at the size of the directory.  So a run is all or nothing if it is
refused before the entry, or if there is room for both.
-/

/-- The argument of a run, and the contents of the file of this name if any. -/
structure Addition where
  name : List Char
  file : Option (List Byte)

/-- One run from the files before it to the files after it. -/
def Adds
    (bootcode : List Byte)
    (addition : Addition)
    (before after : ImageFiles) :
    Prop :=
  after = (addFileMain bootcode before addition.name addition.file).2

/--
The table has its 12 sectors, the directory fits into its 32 sectors, and the
data of a cluster is packaged at the sector with its number.
-/
structure Consistent (bootcode : List Byte) (files : ImageFiles) :
    Prop where
  table : files.clustertable.length = 12 * 512
  directory : files.filetable.length ≤ 32 * 512
  data :
    (packageImage bootcode files).drop (reservedSectors bootcode * 512) =
      files.data

/-- A run succeeds with a consistent image, or it changes no file. -/
def AllOrNothing
    (bootcode : List Byte)
    (files : ImageFiles)
    (orgName : List Char)
    (file : Option (List Byte)) :
    Prop :=
  ((addFileMain bootcode files orgName file).1 = .done ∧
      Consistent bootcode (addFileMain bootcode files orgName file).2) ∨
    ((addFileMain bootcode files orgName file).1 ≠ .done ∧
      (addFileMain bootcode files orgName file).2 = files)

/--
The boot code fills whole sectors, the entry fits into the directory, and the
clusters fit into the table.
-/
def HasRoom
    (bootcode : List Byte)
    (files : ImageFiles)
    (orgName : List Char)
    (file : Option (List Byte)) :
    Prop :=
  512 ∣ bootcode.length ∧
    ∀ name ext fileCont,
      splitName orgName = .ok (name, ext) →
      file = some fileCont →
      files.filetable.length + ((entryHead (name.take 8) ext).length + 6) ≤
          32 * 512 ∧
        files.clust + clusterCount fileCont.length ≤ 12 * 512 / 2

/-- What all runs keep of the counter and of the table. -/
structure CountsKept (bootcode : List Byte) (files : ImageFiles) : Prop where
  current : reservedSectors bootcode ≤ files.clust
  table :
    files.clustertable.length =
      max (12 * 512) (reservedSectors bootcode * 2)

/-! ## One run -/

/-- Without clusters the entry alone is written. -/
theorem storeFile_error
    {files : ImageFiles}
    {fileCont : List Byte}
    {exit : Exit}
    (failed :
      allocateClusters files.clustertable files.clust fileCont.length =
        .error exit)
    (entry : List Byte) :
    storeFile files entry fileCont =
      (exit, { files with filetable := files.filetable ++ entry }) := by
  simp only [storeFile, failed]

/-- A run keeps what is kept of the counter and of the table. -/
theorem CountsKept.addFile
    {bootcode : List Byte}
    {files : ImageFiles}
    (counted : CountsKept bootcode files)
    (orgName : List Char)
    (file : Option (List Byte)) :
    CountsKept bootcode (HobbyOS.addFile files orgName file).2 := by
  by_cases refused : RefusedEarly files orgName file
  · obtain ⟨exit, _, unchanged⟩ := addFile_refused refused
    rwa [unchanged]
  · obtain ⟨name, ext, fileCont, split, short, rfl, clusterFits, sizeFits⟩ :=
      not_refusedEarly refused
    rw [addFile_stores split short clusterFits sizeFits]
    cases allocated :
        allocateClusters files.clustertable files.clust
          fileCont.length with
    | error exit =>
        rw [storeFile_error allocated]
        exact ⟨counted.current, counted.table⟩
    | ok last =>
        obtain ⟨_, sameLength, next⟩ := allocateClusters_length allocated
        rw [storeFile_done allocated]
        refine ⟨?_, sameLength.trans counted.table⟩
        show _ ≤ last.2
        rw [next]
        exact Nat.le_add_right_of_le counted.current

/-- The counter and the table after `-init`. -/
theorem countsKept_initImage (bootcode : List Byte) :
    CountsKept bootcode (initImage bootcode) :=
  ⟨Nat.le_refl _, length_clustertable_initImage bootcode⟩

/-- What is kept of the counter and of the table in every run. -/
theorem countsKept_of_run
    {bootcode : List Byte}
    {additions : List Addition}
    {files : ImageFiles}
    (run : Run (Adds bootcode) (initImage bootcode) additions files) :
    CountsKept bootcode files := by
  refine run.invariant (CountsKept bootcode) ?_
    (countsKept_initImage bootcode)
  rintro addition before after counted rfl
  rw [addFileMain]
  split
  · exact counted
  · split
    · exact countsKept_initImage bootcode
    · exact counted.addFile addition.name addition.file

/-- When the files are consistent. -/
theorem consistent_iff
    {bootcode : List Byte}
    {files : ImageFiles} :
    Consistent bootcode files ↔
      512 ∣ bootcode.length ∧
        files.clustertable.length = 12 * 512 ∧
        files.filetable.length ≤ 32 * 512 := by
  constructor
  · rintro ⟨table, directory, data⟩
    refine ⟨?_, table, directory⟩
    have length := congrArg List.length data
    simp only [packageImage, List.length_drop, List.length_append,
      List.length_replicate, reservedSectors] at length
    omega
  · rintro ⟨aligned, table, directory⟩
    exact ⟨table, directory, drop_packageImage aligned table directory⟩

/-- A run that writes the entry is all or nothing if there is room. -/
theorem stored_allOrNothing_iff
    {bootcode : List Byte}
    {files : ImageFiles}
    (counted : CountsKept bootcode files)
    {orgName name ext : List Char}
    (isFile : orgName ∉ commands)
    {fileCont : List Byte}
    (split : splitName orgName = .ok (name, ext))
    (short : ext.length ≤ 3)
    (clusterFits : files.clust < 65536)
    (sizeFits : fileCont.length < 2 ^ 32) :
    AllOrNothing bootcode files orgName (some fileCont) ↔
      512 ∣ bootcode.length ∧
        files.filetable.length +
            ((entryHead (name.take 8) ext).length + 6) ≤
          32 * 512 ∧
        files.clust + clusterCount fileCont.length ≤ 12 * 512 / 2 := by
  have current := counted.current
  have table := counted.table
  have entry :=
    length_entryBytes (name.take 8) ext files.clust fileCont.length
  rw [AllOrNothing, addFileMain_of_not_mem isFile,
    addFile_stores split short clusterFits sizeFits]
  cases allocated :
      allocateClusters files.clustertable files.clust
        fileCont.length with
  | error exit =>
      rw [storeFile_error allocated]
      constructor
      · rintro (⟨isDone, _⟩ | ⟨_, unchanged⟩)
        · exact
            (allocateClusters_raises _ _ _ exit allocated isDone).elim
        · have length :=
            congrArg (fun files => files.filetable.length) unchanged
          dsimp only at length
          rw [List.length_append, entry] at length
          omega
      · rintro ⟨_, _, room⟩
        obtain ⟨clusters, succeeded, _⟩ :=
          @allocateClusters_ok files.clustertable files.clust
            fileCont.length (by omega) (by omega)
        rw [allocated] at succeeded
        cases succeeded
  | ok last =>
      obtain ⟨room, sameLength, _⟩ := allocateClusters_length allocated
      rw [storeFile_done allocated]
      constructor
      · rintro (⟨_, consistent⟩ | ⟨failed, _⟩)
        · obtain ⟨aligned, twelve, directory⟩ :=
            consistent_iff.mp consistent
          dsimp only at twelve directory
          rw [List.length_append, entry] at directory
          exact ⟨aligned, directory, by omega⟩
        · exact (failed rfl).elim
      · rintro ⟨aligned, directory, fits⟩
        refine Or.inl ⟨rfl, consistent_iff.mpr ⟨aligned, ?_, ?_⟩⟩
        · show last.1.length = 12 * 512
          omega
        · show (files.filetable ++ _).length ≤ 32 * 512
          rwa [List.length_append, entry]

/-! ## All runs -/

/--
After any runs, the next one is all or nothing if and only if it is refused
before the entry is written, or there is room for the entry and the clusters.
-/
theorem addFile_allOrNothing_iff
    {bootcode : List Byte}
    {additions : List Addition}
    {files : ImageFiles}
    (run : Run (Adds bootcode) (initImage bootcode) additions files)
    {orgName : List Char}
    (isFile : orgName ∉ commands)
    (file : Option (List Byte)) :
    AllOrNothing bootcode files orgName file ↔
      RefusedEarly files orgName file ∨
        HasRoom bootcode files orgName file := by
  by_cases refused : RefusedEarly files orgName file
  · obtain ⟨exit, failed, unchanged⟩ := addFile_refused refused
    rw [AllOrNothing, addFileMain_of_not_mem isFile, unchanged]
    exact ⟨fun _ => Or.inl refused, fun _ => Or.inr ⟨failed, rfl⟩⟩
  · obtain ⟨name, ext, fileCont, split, short, rfl, clusterFits, sizeFits⟩ :=
      not_refusedEarly refused
    rw [stored_allOrNothing_iff (countsKept_of_run run) isFile split short
      clusterFits sizeFits, or_iff_right refused]
    constructor
    · rintro ⟨aligned, room⟩
      refine ⟨aligned, ?_⟩
      intro name' ext' fileCont' split' isThere
      rw [split] at split'
      obtain ⟨rfl, rfl⟩ := Prod.mk.inj (Except.ok.inj split')
      obtain rfl := Option.some.inj isThere
      exact room
    · rintro ⟨aligned, room⟩
      exact ⟨aligned, room name ext fileCont split rfl⟩

/-- One sector of boot code. -/
def oneSector : List Byte := List.replicate 512 0x90

/-- The first cluster of the data, with one sector of boot code. -/
theorem clust_oneSector : (initImage oneSector).clust = 45 := by
  show reservedSectors oneSector = 45
  rw [reservedSectors, oneSector, List.length_replicate]

/-- Two files that are added first. -/
def firstSources : List SourceFile :=
  [⟨['a', '.', 'b'], List.replicate 600 0x41⟩, ⟨['c'], []⟩]

/-- They can be added. -/
theorem buildable_firstSources : Buildable oneSector firstSources := by
  refine ⟨by rw [oneSector, List.length_replicate], ?_, by decide, ?_⟩
  · rw [firstSources, List.forall_mem_cons, List.forall_mem_singleton]
    exact
      ⟨⟨by decide, by decide, .inr ⟨['a'], ['b'], rfl, by decide⟩⟩,
        ⟨by decide, by decide, .inl (by decide)⟩⟩
  · decide +kernel

/-- Behind these files another one is added. -/
theorem addFile_allOrNothing_small :
    AllOrNothing oneSector (buildImage oneSector firstSources) ['d']
      (some [0x41]) := by
  have run :
      Run (Adds oneSector) (initImage oneSector)
        [⟨['a', '.', 'b'], some (List.replicate 600 0x41)⟩,
          ⟨['c'], some []⟩]
        (buildImage oneSector firstSources) :=
    (Run.nil.snoc rfl).snoc rfl
  have built := buildable_firstSources.built
  refine
    (addFile_allOrNothing_iff run (show ['d'] ∉ commands by decide)
      (some [0x41])).mpr (Or.inr ⟨buildable_firstSources.aligned, ?_⟩)
  rintro name ext fileCont ⟨⟩ ⟨⟩
  rw [built.directory, built.current]
  exact ⟨by decide, by decide +kernel⟩

/--
A first file of one byte more than 3027 sectors leaves its entry behind: with
45 reserved sectors the table has room for 3027 clusters.
-/
theorem not_allOrNothing_large
    {fileCont : List Byte}
    (large : fileCont.length = 3027 * 512 + 1) :
    ¬AllOrNothing oneSector (initImage oneSector) ['a']
      (some fileCont) := by
  have current := clust_oneSector
  rw [stored_allOrNothing_iff (countsKept_initImage oneSector) (by decide)
    (splitName_plain (by decide)) (Nat.zero_le 3) (by omega) (by omega),
    current, large]
  rintro ⟨_, _, fits⟩
  exact absurd fits (by decide)

/-- Not every run is all or nothing. -/
theorem addFile_allOrNothing_fails :
    ¬∀ bootcode additions files,
      Run (Adds bootcode) (initImage bootcode) additions files →
      ∀ orgName ∉ commands,
        ∀ file, AllOrNothing bootcode files orgName file := by
  intro always
  have start (fileCont : List Byte) :
      AllOrNothing oneSector (initImage oneSector) ['a']
        (some fileCont) :=
    always oneSector [] (initImage oneSector) .nil ['a'] (by decide)
      (some fileCont)
  exact
    not_allOrNothing_large List.length_replicate
      (start (List.replicate (3027 * 512 + 1) 0))

end HobbyOS
