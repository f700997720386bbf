import HobbyOS.FileSystem.DirectoryBounds
import HobbyOS.FileSystem.Initialization
import HobbyOS.FileSystem.ReadAll

namespace HobbyOS

open Library

/-!
# Reading the files of an image

What `add_file.py` has put into the image, the kernel finds and reads back:
the directory that `initialize_FATFS` has copied leads to the first file of a
name, and its clusters lie one behind the other on the drive.
-/

/-- The drive has an image from its first sector on. -/
def HoldsImage (disk : Disk) (image : List Byte) : Prop :=
  ∀ lba,
    ∀ offset < 512,
      lba * 512 + offset < image.length →
      disk (BitVec.ofNat 28 lba) offset = bytesOf image (lba * 512 + offset)

/--
A file is found by its name and read to a region, with what fills its last
sector behind its contents, and nothing else is changed.
-/
def ReadsFile
    (places : FATFSPlaces)
    (memory : Memory)
    (drive : Drive)
    (nameExt : PtrT)
    (destination : MemoryRegion)
    (contents : List Byte) :
    Prop :=
  ∃ enough entry filling later,
    entry ≠ 0 ∧
      contents.length + filling.length = destination.size ∧
      later.disk = drive.disk ∧
      ∀ fuel ≥ enough,
        findEntry fuel memory places.rootDirectory.start nameExt =
            some entry ∧
          readAllTo fuel (usedInfo (diskGetInfo places.fsInfo.start memory))
              (clusterTableAt memory places.clusterTable.start) memory drive
              destination.start entry =
            some
              (storeBytes memory destination.start
                (bytesOf (contents ++ filling)) destination.size,
                later)

/-- A drive with the sectors of an image. -/
theorem holdsImage_bytesOf
    {image : List Byte}
    (small : image.length ≤ 2 ^ 28 * 512) :
    HoldsImage (fun lba offset => bytesOf image (lba.toNat * 512 + offset))
      image := by
  intro lba offset _ within
  have number : (BitVec.ofNat 28 lba).toNat = lba := by
    rw [BitVec.toNat_ofNat, Nat.mod_eq_of_lt (by omega)]
  simp only [number]

/-! ## Finding a file -/

section Finding

variable
  {directory name : Nat → Byte}
  {memory : Memory}
  {rootDirectory nameExt : PtrT}
  (kernelDirectory :
    ∀ offset < 512 * 32,
      memory (rootDirectory + BitVec.ofNat 32 offset) = directory offset)
  (kernelName :
    ∀ offset < 11, memory (nameExt + BitVec.ofNat 32 offset) = name offset)

include kernelDirectory kernelName in
/-- The bytes in the memory match like those they are. -/
theorem matches_bytesFrom_iff
    {entry : Nat}
    (inside : entry < 512) :
    Matches (bytesFrom memory rootDirectory) (bytesFrom memory nameExt)
        entry ↔
      Matches directory name entry := by
  unfold Matches bytesFrom
  refine forall_congr' fun offset => forall_congr' fun small => ?_
  rw [kernelName offset small, kernelDirectory _ (by omega)]

include kernelDirectory kernelName in
/-- Entries in front of the marker that do not match are passed. -/
theorem kernelProbe_of_passed
    {entry : Nat}
    (inside : entry < 512)
    (filled : directory (entry * 32) ≠ 0)
    (other : ¬Matches directory name entry) :
    kernelProbe memory rootDirectory nameExt entry = none := by
  rw [kernelProbe_eq_none_iff, bytesFrom, kernelDirectory _ (by omega),
    matches_bytesFrom_iff kernelDirectory kernelName inside]
  exact ⟨filled, other⟩

/-- The kernel's search ends where its loop does not go on. -/
theorem findEntry_of_probe
    {entry : Nat}
    {result : PtrT}
    (stops : kernelProbe memory rootDirectory nameExt entry = some result)
    (before :
      ∀ other < entry, kernelProbe memory rootDirectory nameExt other = none)
    {fuel : Nat}
    (fueled : entry < fuel) :
    findEntry fuel memory rootDirectory nameExt = some result := by
  have found :=
    scan_eq_some (Nat.zero_le entry) stops (fun other _ => before other)
      fueled
  rwa [← findEntryLoop_eq_scan, Nat.zero_mul, BitVec.add_zero] at found

include kernelDirectory kernelName in
/-- The kernel's search ends with the entry that its name selects. -/
theorem findEntry_of_selects
    {entry : Nat}
    (selects : Selects directory name (some entry))
    {fuel : Nat}
    (fueled : entry < fuel) :
    findEntry fuel memory rootDirectory nameExt =
      some (rootDirectory + BitVec.ofNat 32 (entry * 32)) := by
  obtain ⟨⟨inside, filled⟩, matched, earlier⟩ := selects
  refine findEntry_of_probe ?_ (fun other before => ?_) fueled
  · have here := filled entry (Nat.le_refl entry)
    rw [kernelProbe, kernelDirectory _ (by omega), if_neg here, if_pos]
    rw [memcmp_eq_zero_iff_matches,
      matches_bytesFrom_iff kernelDirectory kernelName inside]
    exact matched
  · exact
      kernelProbe_of_passed kernelDirectory kernelName (by omega)
        (filled other (Nat.le_of_lt before)) (earlier other before)

include kernelDirectory kernelName in
/-- The kernel's search ends at the end marker if no entry matches. -/
theorem findEntry_of_marker
    {marker : Nat}
    (inside : marker < 512)
    (isMarker : directory (marker * 32) = 0)
    (filled : ∀ entry < marker, directory (entry * 32) ≠ 0)
    (unlisted : ∀ entry < marker, ¬Matches directory name entry)
    {fuel : Nat}
    (fueled : marker < fuel) :
    findEntry fuel memory rootDirectory nameExt = some 0 := by
  refine findEntry_of_probe ?_ (fun other before => ?_) fueled
  · rw [kernelProbe, kernelDirectory _ (by omega), if_pos isMarker]
  · exact
      kernelProbe_of_passed kernelDirectory kernelName (by omega)
        (filled other before) (unlisted other before)

end Finding

/-! ## The sectors of a file -/

/-- The sectors of a straight chain are a piece of the image. -/
theorem chainBytes_straightClusters
    {disk : Disk}
    {image : List Byte}
    (holds : HoldsImage disk image)
    {first count offset : Nat}
    (small : first + count < 0xC00)
    (within : (first + count + 1) * 512 ≤ image.length)
    (inside : offset < (count + 1) * 512) :
    chainBytes disk (straightClusters first count) offset =
      bytesOf image (first * 512 + offset) := by
  have length := length_straightClusters first count
  have consecutive := straightClusters_consecutive first count small
  rw [straightClusters_eq_cons] at length consecutive ⊢
  have sector :
      (BitVec.ofNat 16 first).setWidth 28 + BitVec.ofNat 28 (offset / 512) =
        BitVec.ofNat 28 (first + offset / 512) := by
    rw [BitVec.ofNat_add]
    congr 1
    apply BitVec.eq_of_toNat_eq
    rw [BitVec.toNat_setWidth, BitVec.toNat_ofNat, BitVec.toNat_ofNat]
    omega
  rw [chainBytes_consecutive disk consecutive (by rw [length]; exact inside),
    sectorBytes, sector, holds _ _ (Nat.mod_lt _ (by decide)) (by omega)]
  exact congrArg (bytesOf image) (by omega)

section Reading

variable
  {bootcode : List Byte}
  {before after : List SourceFile}
  {source : SourceFile}

/-- The length of the packaged image. -/
theorem Built.length_packageImage
    {sources : List SourceFile}
    {files : ImageFiles}
    (built : Built bootcode sources files)
    (aligned : 512 ∣ bootcode.length)
    (few : sources.length ≤ 511) :
    (packageImage bootcode files).length =
      (reservedSectors bootcode + clustersOf sources) * 512 := by
  have table := built.table
  have directory := built.directory
  have data := built.data
  obtain ⟨sectors, whole⟩ := aligned
  simp only [packageImage, List.length_append, List.length_replicate,
    reservedSectors]
  omega

/-- The sectors of a stored file hold its contents and what fills them up. -/
theorem FileStored.bytesOf_packageImage
    {files : ImageFiles}
    (stored : FileStored bootcode before source files)
    (aligned : 512 ∣ bootcode.length)
    (table : files.clustertable.length = 12 * 512)
    (directory : files.filetable.length ≤ 32 * 512) :
    ∃ filling,
      source.contents.length + filling.length =
          clusterCount source.contents.length * 512 ∧
        ∀ offset < clusterCount source.contents.length * 512,
          bytesOf (packageImage bootcode files)
              ((reservedSectors bootcode + clustersOf before) * 512 +
                offset) =
            bytesOf (source.contents ++ filling) offset := by
  obtain ⟨filling, held, length⟩ := stored.sectors
  refine ⟨filling, length, fun offset inside => ?_⟩
  have data := drop_packageImage aligned table directory
  rw [← held, ← data, List.drop_drop, ← Nat.add_mul, bytesOf, bytesOf,
    List.getD_eq_getElem?_getD, List.getD_eq_getElem?_getD,
    List.getElem?_take_of_lt inside, List.getElem?_drop]

/-- The chain of a stored file in the table that the kernel has copied. -/
theorem FileStored.linked_clusterTableAt
    {places : FATFSPlaces}
    {files : ImageFiles}
    {memory : Memory}
    (stored : FileStored bootcode before source files)
    (ready : FATFSReady places files memory)
    (fits :
      reservedSectors bootcode + clustersOf before +
          clusterCount source.contents.length ≤
        0xC00) :
    LinkedChain (clusterTableAt memory places.clusterTable.start) EndsChain
      (BitVec.ofNat 16 (reservedSectors bootcode + clustersOf before))
      (straightClusters (reservedSectors bootcode + clustersOf before)
        (clusterCount source.contents.length - 1)) := by
  have some_ := clusterCount_pos source.contents.length
  refine linkedChain_straightClusters (by omega) ?_ ?_
  · intro index inside
    rw [ready.clusterTableAt_eq (by omega), stored.links index (by omega),
      if_pos (by omega)]
  · rw [ready.clusterTableAt_eq (by omega), stored.links _ (by omega),
      if_neg (by omega), EndsChain]
    decide

/-- The cluster in the entry of a stored file that the kernel has copied. -/
theorem FileStored.startingCluster_eq
    {places : FATFSPlaces}
    {files : ImageFiles}
    {memory : Memory}
    (stored : FileStored bootcode before source files)
    (ready : FATFSReady places files memory)
    (few : before.length + 1 < 512) :
    readHalf memory
        (places.rootDirectory.start +
            BitVec.ofNat 32 ((before.length + 1) * 32) +
          BitVec.ofNat 32 startingClusterOffset) =
      BitVec.ofNat 16 (reservedSectors bootcode + clustersOf before) := by
  have directorySize : places.rootDirectory.size = 512 * 32 :=
    places.sizeofDirectory
  have low := ready.directory ((before.length + 1) * 32 + 26) (by omega)
  have high := ready.directory ((before.length + 1) * 32 + 27) (by omega)
  rw [bytesOf, Nat.mul_comm, stored.entry.1] at low
  rw [bytesOf, Nat.mul_comm, stored.entry.2] at high
  have next :
      BitVec.ofNat 32 (32 * (before.length + 1) + 26) + 1 =
        BitVec.ofNat 32 (32 * (before.length + 1) + 27) :=
    (BitVec.ofNat_add _ 1).symm
  rw [startingClusterOffset, BitVec.add_assoc, ← BitVec.ofNat_add,
    Nat.mul_comm, readHalf, low, ← ofNat_append_bytes, ← high,
    BitVec.add_assoc, next]

/--
The first file of a name that has fewer than 256 clusters is found and read,
to any region apart from the variables of the file system.
-/
theorem FATFSReady.readsFile
    {places : FATFSPlaces}
    {memory : Memory}
    {drive : Drive}
    (buildable : Buildable bootcode (before ++ source :: after))
    (noNul : ∀ other ∈ before ++ source :: after, other.NoNul)
    (first : FirstNamed before source)
    (short : clusterCount source.contents.length < 256)
    (ready :
      FATFSReady places (buildImage bootcode (before ++ source :: after))
        memory)
    (image :
      HoldsImage drive.disk
        (packageImage bootcode
          (buildImage bootcode (before ++ source :: after))))
    {nameExt : PtrT}
    (named :
      ∀ offset < 11,
        memory (nameExt + BitVec.ofNat 32 offset) =
          bytesOf source.nameExt offset)
    {destination : MemoryRegion}
    (size :
      destination.size = clusterCount source.contents.length * 512) :
    ReadsFile places memory drive nameExt destination source.contents := by
  have some_ := clusterCount_pos source.contents.length
  have built := buildable.built
  have few := buildable.few
  have fits := buildable.fits
  rw [clustersOf_append, clustersOf_cons] at fits
  have directory := built.directory
  have length := built.length_packageImage buildable.aligned few
  rw [clustersOf_append, clustersOf_cons] at length
  rw [List.length_append, List.length_cons] at few directory
  have stored := built.stored before source after rfl
  have directorySize : places.rootDirectory.size = 512 * 32 :=
    places.sizeofDirectory
  have inKernel := places.directoryInKernel
  -- The entry that the search finds.
  have selects := buildable.selects noNul first
  have copied :
      ∀ offset < 512 * 32,
        memory (places.rootDirectory.start + BitVec.ofNat 32 offset) =
          bytesOf
            (buildImage bootcode (before ++ source :: after)).filetable
            offset := by
    intro offset inside
    exact ready.directory offset (directorySize ▸ inside)
  have found {fuel : Nat} (fueled : before.length + 1 < fuel) :=
    findEntry_of_selects copied named selects fueled
  have place := places.rootDirectory.toNat_offset
    (show (before.length + 1) * 32 < places.rootDirectory.size by omega)
  -- The cluster in the entry.
  have starts := stored.startingCluster_eq ready (by omega)
  -- The chain from this cluster on.
  have chain := stored.linked_clusterTableAt ready (by omega)
  have inside :=
    @straightClusters_inside (reservedSectors bootcode + clustersOf before)
      (clusterCount source.contents.length - 1) (by omega)
  have noRun :
      ¬HasRun Consecutive 256
        (straightClusters (reservedSectors bootcode + clustersOf before)
          (clusterCount source.contents.length - 1)) := by
    rintro ⟨run, within, long, _⟩
    have bound := within.length_le
    rw [length_straightClusters] at bound
    omega
  obtain ⟨enough, memory', later, read, disk, ends⟩ :=
    readAllTo_eq ready.sectorSize ready.oneSector chain inside memory drive
      destination.start _ starts
  obtain ⟨filling, filled, bytes⟩ :=
    stored.bytesOf_packageImage buildable.aligned built.table (by omega)
  have stored_ :
      memory' =
        storeBytes memory destination.start
          (bytesOf (source.contents ++ filling)) destination.size := by
    rw [read.complete noRun, length_straightClusters,
      Nat.sub_add_cancel some_, ← size]
    refine storeBytes_congr fun offset within => ?_
    rw [chainBytes_straightClusters image (by omega) (by omega) (by omega),
      bytes offset (by omega)]
  refine
    ⟨max enough (before.length + 2),
      places.rootDirectory.start +
        BitVec.ofNat 32 ((before.length + 1) * 32),
      filling, later, ?_, filled.trans size.symm, disk,
      fun fuel fueled => ⟨?_, ?_⟩⟩
  · intro zero
    rw [zero] at place
    have none : (0 : PtrT).toNat = 0 := rfl
    omega
  · exact found (by omega)
  · rw [ends fuel (Nat.le_trans (Nat.le_max_left _ _) fueled), stored_]

end Reading

end HobbyOS
