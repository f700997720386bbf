import HobbyOS.Drive.BootParameters
import HobbyOS.ImageBuild.FileNames
import HobbyOS.Library.Regions

namespace HobbyOS

open Library

/-!
# The start of the file system

`initialize_FATFS` copies the root directory and the cluster table from the
place where the boot loader has left them.  Behind it the two variables hold
the directory and the table of the image, and keep them as long as nothing
else is written there.
-/

/-- `sizeof(RootDirectory)`. -/
def sizeofRootDirectory : Nat := 512 * 32

/-- `sizeof(ClusterTable)`. -/
def sizeofClusterTable : Nat := 0xC00 * 2

/-- The variables of `drive.c` and `FAT16.c`, which the linker keeps apart. -/
structure FATFSPlaces where
  fsInfo : MemoryRegion
  rootDirectory : MemoryRegion
  clusterTable : MemoryRegion
  sizeofFsInfo : fsInfo.size = sizeofDiskFSInfo
  sizeofDirectory : rootDirectory.size = sizeofRootDirectory
  sizeofTable : clusterTable.size = sizeofClusterTable
  fsInfoInKernel : 0x10000 ≤ fsInfo.start.toNat
  directoryInKernel : 0x10000 ≤ rootDirectory.start.toNat
  tableInKernel : 0x10000 ≤ clusterTable.start.toNat
  infoDirectory : fsInfo.Apart rootDirectory
  infoTable : fsInfo.Apart clusterTable
  directoryTable : rootDirectory.Apart clusterTable

/-- The regions of the variables. -/
def FATFSPlaces.regions (places : FATFSPlaces) : List MemoryRegion :=
  [places.fsInfo, places.rootDirectory, places.clusterTable]

/-- A field of `disk_get_info()` as an `int`. -/
def fieldInt (info : List (DiskFSInfoField × List Byte))
    (field : DiskFSInfoField) :
    BitVec 32 :=
  BitVec.ofNat 32 (fieldValue info field)

/-- `initialize_FATFS`. -/
def initializeFATFS (places : FATFSPlaces) (memory : Memory) :
    Memory :=
  let info := diskGetInfo places.fsInfo.start memory
  let ct : PtrT :=
    0x7C00 + fieldInt info .reservedSectors * fieldInt info .bytesPerSector
  let rd : PtrT :=
    ct + fieldInt info .sectorsPerFAT * fieldInt info .bytesPerSector
  let memory :=
    memcpy memory places.rootDirectory.start rd
      (BitVec.ofNat 32 sizeofRootDirectory)
  memcpy memory places.clusterTable.start ct
    (BitVec.ofNat 32 sizeofClusterTable)

/-- The cluster table in the memory, with entries of two bytes. -/
def clusterTableAt (memory : Memory) (clusterTable : PtrT) : ClusterTable :=
  fun cluster => readHalf memory (clusterTable + 2 * cluster.setWidth 32)

/-! ## What the boot loader leaves -/

/--
The boot sector with its parameters, and the table and the directory of the
image behind the boot code, all below the kernel.
-/
structure LoadedImage
    (memory : Memory)
    (bootcode image : List Byte)
    (parameters : BootParameters) :
    Prop where
  sector : HoldsBootSector memory parameters
  bytesPerSec : littleEndian (parameters.bytes .bytesPerSec) = 512
  secPerClst : littleEndian (parameters.bytes .secPerClst) = 1
  reservedSec :
    littleEndian (parameters.bytes .reservedSec) = bootcode.length / 512
  numSecPerFAT : littleEndian (parameters.bytes .numSecPerFAT) = 12
  below : 0x7C00 + bootcode.length + (12 + 32) * 512 ≤ 0x10000
  tables :
    ∀ offset < (12 + 32) * 512,
      memory (BitVec.ofNat 32 (0x7C00 + bootcode.length + offset)) =
        image.getD (bootcode.length + offset) 0

/-- The variables hold what the file system needs of some files. -/
structure FATFSReady
    (places : FATFSPlaces)
    (files : ImageFiles)
    (memory : Memory) :
    Prop where
  sectorSize :
    (usedInfo (diskGetInfo places.fsInfo.start memory)).bytesPerSector =
      512
  oneSector :
    (usedInfo (diskGetInfo places.fsInfo.start memory)).sectorsPerCluster =
      1
  directory : Holds memory places.rootDirectory (bytesOf files.filetable)
  table : Holds memory places.clusterTable (bytesOf files.clustertable)

/-! ## The directory and the table in the image -/

/-- The directory of the image with the zeros behind it. -/
theorem getD_packageImage_filetable
    {bootcode : List Byte}
    {files : ImageFiles}
    (table : files.clustertable.length = 12 * 512)
    {offset : Nat}
    (inside : offset < 512 * 32) :
    (packageImage bootcode files).getD
        (bootcode.length + (12 * 512 + offset)) 0 =
      bytesOf files.filetable offset := by
  rcases Nat.lt_or_ge offset files.filetable.length with before | behind
  · rw [← table, getD_packageImage_directory before, bytesOf]
  · rw [packageImage, List.append_assoc, List.append_assoc,
      List.append_assoc,
      List.getD_append_right _ _ _ _ (Nat.le_add_right _ _),
      Nat.add_sub_cancel_left,
      List.getD_append_right _ _ _ _ (by omega), table,
      Nat.add_sub_cancel_left, List.getD_append_right _ _ _ _ behind,
      List.getD_append _ _ _ _ (by rw [List.length_replicate]; omega),
      List.getD_replicate _ (by omega), bytesOf,
      List.getD_eq_default _ _ behind]

/-! ## Ready -/

section Ready

variable
  {places : FATFSPlaces}
  {files : ImageFiles}
  {memory after : Memory}
  {regions : List MemoryRegion}

/-- The variables lie apart from other regions. -/
def FATFSPlaces.ApartFrom
    (places : FATFSPlaces)
    (regions : List MemoryRegion) :
    Prop :=
  ∀ place ∈ places.regions, ∀ other ∈ regions, place.Apart other

/-- The information about the drive is kept with its bytes. -/
theorem diskGetInfo_of_unchangedOutside
    (places : FATFSPlaces)
    (unchanged : UnchangedOutside regions memory after)
    (apart : ∀ other ∈ regions, places.fsInfo.Apart other) :
    diskGetInfo places.fsInfo.start after =
      diskGetInfo places.fsInfo.start memory := by
  have before :
      Holds memory places.fsInfo
        (bytesAt memory places.fsInfo.start) :=
    fun _ _ => rfl
  have bytes := (before.of_unchangedOutside unchanged apart).loadBytes
  rw [places.sizeofFsInfo] at bytes
  rw [diskGetInfo, diskGetInfo, bytes]
  rfl

/-- The file system stays ready while other regions are written. -/
theorem FATFSReady.of_unchangedOutside
    (ready : FATFSReady places files memory)
    (unchanged : UnchangedOutside regions memory after)
    (apart : places.ApartFrom regions) :
    FATFSReady places files after := by
  have info :=
    diskGetInfo_of_unchangedOutside places unchanged
      (apart places.fsInfo (by simp [FATFSPlaces.regions]))
  refine ⟨?_, ?_, ?_, ?_⟩
  · rw [info]
    exact ready.sectorSize
  · rw [info]
    exact ready.oneSector
  · exact
      ready.directory.of_unchangedOutside unchanged
        (apart places.rootDirectory (by simp [FATFSPlaces.regions]))
  · exact
      ready.table.of_unchangedOutside unchanged
        (apart places.clusterTable (by simp [FATFSPlaces.regions]))

/-- The links in the memory are the entries of the table. -/
theorem FATFSReady.clusterTableAt_eq
    (ready : FATFSReady places files memory)
    {cluster : Nat}
    (small : cluster < 0xC00) :
    clusterTableAt memory places.clusterTable.start
        (BitVec.ofNat 16 cluster) =
      linkEntry files.clustertable cluster := by
  have size : places.clusterTable.size = 0xC00 * 2 :=
    places.sizeofTable
  have offset :
      2 * (BitVec.ofNat 16 cluster).setWidth 32 =
        BitVec.ofNat 32 (cluster * 2) := by
    have two : (2 : BitVec 32).toNat = 2 := rfl
    apply BitVec.eq_of_toNat_eq
    rw [BitVec.toNat_mul, BitVec.toNat_setWidth, BitVec.toNat_ofNat,
      BitVec.toNat_ofNat, two]
    omega
  have high :
      places.clusterTable.start + BitVec.ofNat 32 (cluster * 2) + 1 =
        places.clusterTable.start + BitVec.ofNat 32 (cluster * 2 + 1) := by
    rw [BitVec.add_assoc, BitVec.ofNat_add (cluster * 2)]
    rfl
  rw [clusterTableAt, offset, readHalf, high,
    ready.table _ (by omega), ready.table _ (by omega)]
  rfl

end Ready

/-! ## The initialization -/

section Initialization

variable
  {places : FATFSPlaces}
  {bootcode : List Byte}
  {files : ImageFiles}
  {parameters : BootParameters}
  {memory : Memory}

/-- A copy to a region changes it only, and it then holds the source. -/
theorem memcpy_region
    (region : MemoryRegion)
    (memory : Memory)
    {source length : PtrT}
    (size : length.toNat = region.size)
    (room : source.toNat + region.size ≤ 2 ^ 32)
    (safe :
      source.toNat ≤ region.start.toNat ∨
        region.start.toNat + region.size ≤ source.toNat) :
    UnchangedOutside [region] memory
        (memcpy memory region.start source length) ∧
      Holds (memcpy memory region.start source length) region
        (bytesAt memory source) := by
  have fits := region.fits
  rw [memcpy_eq_storeBytes (by omega) (by omega) (by omega), size]
  exact
    ⟨UnchangedOutside.storeBytes region memory _,
      Holds.storeBytes region memory _⟩

/-- `initialize_disk` writes to its own variable only. -/
theorem initializeDisk_unchangedOutside
    (places : FATFSPlaces)
    (memory : Memory) :
    UnchangedOutside [places.fsInfo] memory
      (initializeDisk places.fsInfo.start memory) := by
  have inKernel := places.fsInfoInKernel
  have size : places.fsInfo.size = 57 := places.sizeofFsInfo
  have source : bootcodeOEMName.toNat = 0x7C03 := rfl
  exact
    (@memcpy_region places.fsInfo memory bootcodeOEMName
      (BitVec.ofNat 32 sizeofDiskFSInfo) size.symm (by omega)
      (.inl (by omega))).1

/-- The variables do not reach below the kernel. -/
theorem FATFSPlaces.below_eq
    (places : FATFSPlaces)
    {regions : List MemoryRegion}
    (subset : regions ⊆ places.regions)
    {after : Memory}
    (unchanged : UnchangedOutside regions memory after)
    {address : PtrT}
    (below : address.toNat < 0x10000) :
    after address = memory address := by
  refine unchanged address fun region member inside => ?_
  have inKernel := places.fsInfoInKernel
  have directoryInKernel := places.directoryInKernel
  have tableInKernel := places.tableInKernel
  have from_ := inside.1
  have listed := subset member
  simp only [FATFSPlaces.regions, List.mem_cons, List.not_mem_nil, or_false]
    at listed
  rcases listed with rfl | rfl | rfl
  · omega
  · omega
  · omega

/-- The bytes behind the boot code are those of the image. -/
theorem LoadedImage.bytesAt_eq
    {image : List Byte}
    (loaded : LoadedImage memory bootcode image parameters)
    (places : FATFSPlaces)
    {regions : List MemoryRegion}
    (subset : regions ⊆ places.regions)
    {after : Memory}
    (unchanged : UnchangedOutside regions memory after)
    {first offset : Nat}
    (inside : first + offset < (12 + 32) * 512) :
    bytesAt after (BitVec.ofNat 32 (0x7C00 + bootcode.length + first))
        offset =
      image.getD (bootcode.length + (first + offset)) 0 := by
  have below := loaded.below
  rw [← loaded.tables _ inside, bytesAt, ← BitVec.ofNat_add,
    Nat.add_assoc _ first]
  refine places.below_eq subset unchanged ?_
  rw [BitVec.toNat_ofNat]
  omega

/-- What `initialize_FATFS` uses of the information about the drive. -/
theorem LoadedImage.diskInfo
    {image : List Byte}
    (loaded : LoadedImage memory bootcode image parameters)
    (places : FATFSPlaces) :
    let info :=
      diskGetInfo places.fsInfo.start
        (initializeDisk places.fsInfo.start memory)
    fieldValue info .bytesPerSector = 512 ∧
      fieldValue info .reservedSectors = bootcode.length / 512 ∧
      fieldValue info .sectorsPerFAT = 12 ∧
      (usedInfo info).bytesPerSector = 512 ∧
      (usedInfo info).sectorsPerCluster = 1 := by
  have placed : FSInfoPlaced places.fsInfo.start :=
    ⟨places.fsInfoInKernel, places.sizeofFsInfo ▸ places.fsInfo.fits⟩
  dsimp only
  rw [usedInfo_initializeDisk placed loaded.sector,
    diskGetInfo_initializeDisk placed loaded.sector]
  exact
    ⟨loaded.bytesPerSec, loaded.reservedSec, loaded.numSecPerFAT,
      congrArg (BitVec.ofNat 16) loaded.bytesPerSec,
      congrArg (BitVec.ofNat 8) loaded.secPerClst⟩

/-- `initialize_FATFS` copies the directory and the table of the image. -/
theorem LoadedImage.initializeFATFS_eq
    {image : List Byte}
    (loaded : LoadedImage memory bootcode image parameters)
    (aligned : 512 ∣ bootcode.length)
    (places : FATFSPlaces) :
    let started := initializeDisk places.fsInfo.start memory
    initializeFATFS places started =
      memcpy
        (memcpy started places.rootDirectory.start
          (BitVec.ofNat 32 (0x7C00 + bootcode.length + 12 * 512))
          (BitVec.ofNat 32 sizeofRootDirectory))
        places.clusterTable.start
        (BitVec.ofNat 32 (0x7C00 + bootcode.length + 0))
        (BitVec.ofNat 32 sizeofClusterTable) := by
  obtain ⟨sectors, whole⟩ := aligned
  obtain ⟨bytesPerSector, reservedSectors, sectorsPerFAT, _⟩ :=
    loaded.diskInfo places
  dsimp only
  generalize initializeDisk places.fsInfo.start memory = started
    at bytesPerSector reservedSectors sectorsPerFAT ⊢
  have table :
      (0x7C00 : PtrT) +
          fieldInt (diskGetInfo places.fsInfo.start started)
              .reservedSectors *
            fieldInt (diskGetInfo places.fsInfo.start started)
              .bytesPerSector =
        BitVec.ofNat 32 (0x7C00 + bootcode.length + 0) := by
    rw [fieldInt, fieldInt, bytesPerSector, reservedSectors,
      ← BitVec.ofNat_mul, Nat.add_assoc, BitVec.ofNat_add,
      show bootcode.length / 512 * 512 = bootcode.length + 0 by omega]
    rfl
  have directory :
      BitVec.ofNat 32 (0x7C00 + bootcode.length + 0) +
          fieldInt (diskGetInfo places.fsInfo.start started)
              .sectorsPerFAT *
            fieldInt (diskGetInfo places.fsInfo.start started)
              .bytesPerSector =
        BitVec.ofNat 32 (0x7C00 + bootcode.length + 12 * 512) := by
    rw [fieldInt, fieldInt, bytesPerSector, sectorsPerFAT,
      ← BitVec.ofNat_mul, ← BitVec.ofNat_add, Nat.add_zero]
  rw [initializeFATFS, table, directory]

/-- Behind `initialize_disk` and `initialize_FATFS` the file system is ready. -/
theorem initializeFATFS_ready
    (loaded :
      LoadedImage memory bootcode (packageImage bootcode files) parameters)
    (aligned : 512 ∣ bootcode.length)
    (table : files.clustertable.length = 12 * 512) :
    FATFSReady places files
        (initializeFATFS places
          (initializeDisk places.fsInfo.start memory)) ∧
      UnchangedOutside places.regions memory
        (initializeFATFS places
          (initializeDisk places.fsInfo.start memory)) := by
  have below := loaded.below
  obtain ⟨_, _, _, sectorSize, oneSector⟩ := loaded.diskInfo places
  have frame := initializeDisk_unchangedOutside places memory
  rw [loaded.initializeFATFS_eq aligned places]
  generalize initializeDisk places.fsInfo.start memory = started
    at sectorSize oneSector frame ⊢
  have directorySize : places.rootDirectory.size = 16384 :=
    places.sizeofDirectory
  have tableSize : places.clusterTable.size = 6144 := places.sizeofTable
  have directoryInKernel := places.directoryInKernel
  have tableInKernel := places.tableInKernel
  have tableSource :
      (BitVec.ofNat 32 (0x7C00 + bootcode.length + 0)).toNat =
        0x7C00 + bootcode.length := by
    rw [BitVec.toNat_ofNat]
    omega
  have directorySource :
      (BitVec.ofNat 32 (0x7C00 + bootcode.length + 12 * 512)).toNat =
        0x7C00 + bootcode.length + 12 * 512 := by
    rw [BitVec.toNat_ofNat]
    omega
  -- The two copies, one behind the other.
  obtain ⟨copied, directory⟩ :=
    @memcpy_region places.rootDirectory started
      (BitVec.ofNat 32 (0x7C00 + bootcode.length + 12 * 512))
      (BitVec.ofNat 32 sizeofRootDirectory) directorySize.symm (by omega)
      (.inl (by omega))
  generalize memcpy started places.rootDirectory.start _ _ = between
    at copied directory ⊢
  have behind :
      UnchangedOutside places.regions memory between :=
    (frame.mono (by simp [FATFSPlaces.regions])).trans
      (copied.mono (by simp [FATFSPlaces.regions]))
  obtain ⟨copiedTable, tableHeld⟩ :=
    @memcpy_region places.clusterTable between
      (BitVec.ofNat 32 (0x7C00 + bootcode.length + 0))
      (BitVec.ofNat 32 sizeofClusterTable) tableSize.symm (by omega)
      (.inl (by omega))
  generalize memcpy between places.clusterTable.start _ _ = final
    at copiedTable tableHeld ⊢
  have info :
      diskGetInfo places.fsInfo.start final =
        diskGetInfo places.fsInfo.start started :=
    (diskGetInfo_of_unchangedOutside places copiedTable
        (by simpa using places.infoTable)).trans
      (diskGetInfo_of_unchangedOutside places copied
        (by simpa using places.infoDirectory))
  refine ⟨⟨?_, ?_, ?_, ?_⟩, ?_⟩
  · rw [info]
    exact sectorSize
  · rw [info]
    exact oneSector
  · intro offset inside
    rw [directory.of_unchangedOutside copiedTable
        (by simpa using places.directoryTable) offset inside,
      loaded.bytesAt_eq places (by simp [FATFSPlaces.regions]) frame
        (by omega),
      getD_packageImage_filetable table (by omega)]
  · intro offset inside
    rw [tableHeld offset inside,
      loaded.bytesAt_eq places (List.Subset.refl _) behind (by omega),
      Nat.zero_add, getD_packageImage_table (by omega), bytesOf]
  · exact behind.trans (copiedTable.mono (by simp [FATFSPlaces.regions]))

end Initialization

end HobbyOS
