import HobbyOS.Boot.BootPointers
import HobbyOS.Boot.KernelLoading
import HobbyOS.FileSystem.FileService

namespace HobbyOS

open Library

/-!
# From the first sector to the files

The BIOS loads the first sector of an image, the boot loader the rest of the
boot code with the tables, and the second stage the kernel.  What lies in the
memory then is what the file system of the kernel starts from.
-/

/-- What the boot loader leaves for the kernel. -/
structure Booted
    (code : BootCode)
    (image : List Byte)
    (dl : Byte)
    (kernel : MemoryRegion)
    (contents : List Byte)
    (memory : Memory) :
    Prop where
  kernelLoaded :
    ∃ filling,
      contents.length + filling.length = kernel.size ∧
        Holds memory kernel (bytesOf (contents ++ filling))
  tables : LoadedImage memory code.bytes image (parametersAt memory)
  drive : memory (parameterAddress .driveNum) = dl

/-- The variables of the second stage are none of what it needs. -/
theorem BootCode.Ready.of_variables
    {code : BootCode}
    {image : List Byte}
    {dl : Byte}
    {memory after : Memory}
    (ready : code.Ready image dl memory)
    (unchanged : UnchangedOutside [code.variablesRegion] memory after) :
    code.Ready image dl after := by
  have inSector := code.packetInSector
  have behind := code.nameBehind
  have inText := code.nameInText
  have inside := code.variablesInside
  have packet :
      ∀ other ∈ [code.variablesRegion], code.packetRegion.Apart other := by
    rw [List.forall_mem_singleton]
    exact bootcodeRegion_apart _ _ (.inl (by omega))
  refine
    ready.of_unchangedOutside unchanged ?_
      (code.packetIntact_of_unchangedOutside ready.packet unchanged packet)
      ((code.packetByte_of_unchangedOutside unchanged packet
        (by decide)).trans ready.sectorsHigh)
  simp only [neededRegions, List.forall_mem_cons]
  exact
    ⟨⟨bootcodeRegion_apart _ _ (.inl (by omega)), List.forall_mem_nil _⟩,
      ⟨bootcodeRegion_apart _ _ (.inl (by omega)), List.forall_mem_nil _⟩,
      ⟨bootcodeRegion_apart _ _ (.inr (by omega)), List.forall_mem_nil _⟩,
      List.forall_mem_nil _⟩

/-! ## A short boot code -/

/-- The parameters of `bootloader.asm`, with four sectors of boot code. -/
def shortParameters : BootParameters where
  bytes label :=
    if label = .reservedSec then [4, 0] else bootloaderParameters.bytes label
  sized label := by
    cases label <;> rfl

/-- The blocks behind the name of the kernel. -/
def shortPointers : BootPointers where
  vbeInfoBlock := 0x7E0B
  modeInfoBlock := 0x800B
  smapEntries := 0x810C

/-- The pointers and the signature at the end of the first sector. -/
def shortTrailer : List Byte :=
  [0x0B, 0x7E, 0, 0, 0x0B, 0x80, 0, 0, 0x0C, 0x81, 0, 0, 0x55, 0xAA]

/-- The information about a mode of 640 by 480 pixels. -/
def modeBlock : List Byte :=
  List.replicate 16 0 ++ [0x00, 0x0A, 0x80, 0x02, 0xE0, 0x01, 0, 0, 0, 32] ++
    List.replicate 14 0 ++ [0, 0, 0, 0xFD]

/--
The packet behind the parameters, the pointers at the end of the first sector,
the name behind it, and then the blocks, of which the second one is filled.
-/
def shortBytes : List Byte :=
  shortParameters.bootSector ++
    ([0, 0] ++ (16 :: List.replicate 15 0) ++ List.replicate 418 0 ++
      shortTrailer ++ kernelNameExt ++ List.replicate 512 0 ++ modeBlock ++
      List.replicate 969 0)

/-- A boot code of four sectors. -/
def shortBootCode : BootCode where
  bytes := shortBytes
  parameters := shortParameters
  dkPacketSize := 64
  kernelName := 512
  width := 523
  aligned := by decide +kernel
  sector := List.prefix_append _ _
  bytesPerSec := rfl
  secPerClst := rfl
  numRootEnt := rfl
  numSecPerFAT := rfl
  reservedSec := by decide +kernel
  packet := by decide +kernel
  packetBehind := by decide
  packetInSector := by decide
  name := by decide +kernel
  nameBehind := by decide
  nameInText := by decide
  variablesInside := by decide +kernel
  below := by decide +kernel

/-- A kernel of two clusters, and a logo. -/
def kernelAndLogo : List SourceFile :=
  [⟨['k', 'e', 'r', 'n', 'e', 'l', '_', 'l', '.', 'b', 'i', 'n'],
      List.replicate 512 0x90 ++ [0xF4]⟩,
    ⟨['l', 'o', 'g', 'o', '.', 'b', 'i', 'n'], List.replicate 600 0xAA⟩]

/-- Both files can be added. -/
theorem buildable_kernelAndLogo : Buildable shortBytes kernelAndLogo := by
  refine ⟨shortBootCode.aligned, ?_, by decide, ?_⟩
  · rw [kernelAndLogo, List.forall_mem_cons, List.forall_mem_singleton]
    refine
      ⟨⟨by decide, by decide,
          .inr
            ⟨['k', 'e', 'r', 'n', 'e', 'l', '_', 'l'], ['b', 'i', 'n'], rfl,
              by decide⟩⟩,
        ⟨by decide, by decide,
          .inr ⟨['l', 'o', 'g', 'o'], ['b', 'i', 'n'], rfl, by decide⟩⟩⟩
  · decide +kernel

/-- Neither name has a NUL. -/
theorem noNul_kernelAndLogo : ∀ source ∈ kernelAndLogo, source.NoNul :=
  noNul_of_all (by decide)

/-- The image of files behind the short boot code. -/
def shortImage (sources : List SourceFile) : List Byte :=
  packageImage shortBytes (buildImage shortBytes sources)

/-- A BIOS that reads an image from every drive. -/
def imageRead (image : List Byte) : ExtendedRead :=
  fun _ si memory =>
    let packet := packetAt memory si
    let lba := (packet.upperLba ++ packet.lowerLba).toNat
    let count := packet.numberOfSectors.toNat
    if packet.packetSize = 16 ∧ packet.reserved = 0 ∧
        (lba + count) * 512 ≤ image.length then
      some
        (storeBytes memory
          (realAddress packet.transferBufferEs packet.transferBufferBx)
          (fun offset => bytesOf image (lba * 512 + offset)) (count * 512))
    else
      none

/-- It does what is asked of the BIOS. -/
theorem readsImage_imageRead (dl : Byte) (image : List Byte) :
    ReadsImage (imageRead image) dl image := by
  intro memory si count bx es lowerLba packet _ within
  have lba : ((0 : BitVec 32) ++ lowerLba).toNat = lowerLba.toNat := by
    rw [BitVec.toNat_append]
    simp
  rw [imageRead, packet]
  simp only [lba]
  exact if_pos ⟨trivial, trivial, within⟩

/-- The boot code is the start of the image. -/
theorem prefix_packageImage (bootcode : List Byte) (files : ImageFiles) :
    bootcode <+: packageImage bootcode files := by
  rw [packageImage, List.append_assoc, List.append_assoc, List.append_assoc]
  exact List.prefix_append _ _

/-- An image below the kernel, and strings from 0x20000 on. -/
def imageMemory (image strings : List Byte) : Memory :=
  fun address =>
    if address.toNat < 0x10000 then
      bytesOf image (address.toNat - 0x7C00)
    else
      bytesOf strings (address.toNat - 0x20000)

/-- The memory below the kernel. -/
theorem imageMemory_bootcodeAddress
    (image strings : List Byte)
    {offset : Nat}
    (below : 0x7C00 + offset < 0x10000) :
    imageMemory image strings (bootcodeAddress offset) =
      bytesOf image offset := by
  rw [imageMemory, toNat_bootcodeAddress (Nat.le_of_lt below),
    if_pos below, Nat.add_sub_cancel_left]

/-- The first sector is where the BIOS has loaded it. -/
theorem firstSector_imageMemory
    (sources : List SourceFile)
    (strings : List Byte) :
    Holds (imageMemory (shortImage sources) strings)
      (bootcodeRegion 0 512 (by decide)) (bytesOf shortBytes) := by
  rw [holds_bootcodeRegion_iff]
  intro offset inside
  have length : shortBytes.length = 2048 := by
    decide +kernel
  obtain ⟨rest, whole⟩ :=
    prefix_packageImage shortBytes (buildImage shortBytes sources)
  rw [Nat.zero_add, imageMemory_bootcodeAddress _ _ (by omega), shortImage,
    ← whole, bytesOf, bytesOf, List.getD_append _ _ _ _ (by omega)]

/-- The image is loaded below the kernel. -/
theorem loadedImage_imageMemory
    (sources : List SourceFile)
    (strings : List Byte) :
    LoadedImage (imageMemory (shortImage sources) strings) shortBytes
      (shortImage sources) shortParameters where
  sector :=
    shortBootCode.holdsBootSector (firstSector_imageMemory sources strings)
  bytesPerSec := by decide
  secPerClst := by decide
  reservedSec := by decide +kernel
  numSecPerFAT := by decide
  below := by decide +kernel
  tables offset inside := by
    have length : shortBytes.length = 2048 := by
      decide +kernel
    rw [Nat.add_assoc]
    exact imageMemory_bootcodeAddress _ _ (by omega)

/--
From the first sector of an image the boot loader loads the boot code with the
tables, and then, whatever the second stage has put into its variables, the
kernel.
-/
theorem boot_loadsKernel
    {code : BootCode}
    {sources : List SourceFile}
    {kernel : SourceFile}
    {int13 : ExtendedRead}
    {dl : Byte}
    {answer : ProbeAnswer}
    {memory : Memory}
    (buildable : Buildable code.bytes sources)
    (noNul : ∀ source ∈ sources, source.NoNul)
    (named : fileNamed sources kernelNameExt = some kernel)
    (below :
      0x10000 + clusterCount kernel.contents.length * 512 ≤ 0x7BFF0)
    (reads :
      ReadsImage int13 dl
        (packageImage code.bytes (buildImage code.bytes sources)))
    (firstSector :
      Holds memory (bootcodeRegion 0 512 (by decide)) (bytesOf code.bytes))
    (extensions : answer.extensions = true)
    (cpu : Cpu) :
    ∃ loaded,
      Bootloader.start int13 code.dk answer dl cpu memory = some loaded ∧
        Holds loaded code.loadedRegion
          (fun offset =>
            bytesOf
              (packageImage code.bytes (buildImage code.bytes sources))
              (512 + offset)) ∧
        ∀ prepared,
          UnchangedOutside [code.variablesRegion] loaded prepared →
          ∃ final,
            Booted code
                (packageImage code.bytes (buildImage code.bytes sources)) dl
                (clustersRegion 0x10000
                  (clusterCount kernel.contents.length)
                  (Nat.le_trans below (by decide)))
                kernel.contents final ∧
              ∀ fuel,
                sources.length < fuel →
                clusterCount kernel.contents.length ≤ fuel →
                Bootloader.loadKernel fuel int13 code.dk
                    code.endOfBootcode code.kernelNameOffset prepared =
                  some final := by
  obtain ⟨before, behind, rfl, same, first⟩ :=
    exists_firstNamed named (by decide)
  have built := buildable.built
  have length := built.length_packageImage buildable.aligned buildable.few
  have isPrefix :=
    prefix_packageImage code.bytes
      (buildImage code.bytes (before ++ kernel :: behind))
  have tables :
      code.bytes.length + (12 + 32) * 512 ≤
        (packageImage code.bytes
          (buildImage code.bytes (before ++ kernel :: behind))).length := by
    obtain ⟨sectors, whole⟩ := code.aligned
    rw [length, reservedSectors]
    omega
  obtain ⟨loaded, starts, ready, held⟩ :=
    Bootloader.start_ready firstSector isPrefix tables reads extensions cpu
  refine ⟨loaded, starts, held, fun prepared unchanged => ?_⟩
  obtain ⟨filling, final, ends, later, filled, kernelHeld, _⟩ :=
    Bootloader.loadKernel_loads (ready.of_variables unchanged) buildable
      noNul first same reads (Nat.le_trans below (by decide))
  refine
    ⟨final, ⟨⟨filling, filled, kernelHeld⟩, later.loaded, later.drive⟩,
      fun fuel listed enough => ends fuel ?_ enough⟩
  rw [List.length_append, List.length_cons] at listed
  omega

/-- Both clusters of the kernel are loaded to 0x10000. -/
theorem boot_loadsKernel_short :
    ∃ loaded final,
      Bootloader.start (imageRead (shortImage kernelAndLogo))
            shortBootCode.dk ⟨0x0F, 0x3F, true⟩ 0x80
            ⟨0, 0, 0, 0, 0, 0, [], []⟩
            (imageMemory (shortImage kernelAndLogo) []) =
          some loaded ∧
        Bootloader.loadKernel 3 (imageRead (shortImage kernelAndLogo))
              shortBootCode.dk shortBootCode.endOfBootcode
              shortBootCode.kernelNameOffset loaded =
            some final ∧
          final 0x10000 = 0x90 ∧ final 0x10200 = 0xF4 := by
  obtain ⟨loaded, starts, _, loads⟩ :=
    @boot_loadsKernel shortBootCode kernelAndLogo _
      (imageRead (shortImage kernelAndLogo)) 0x80 ⟨0x0F, 0x3F, true⟩
      (imageMemory (shortImage kernelAndLogo) []) buildable_kernelAndLogo
      noNul_kernelAndLogo (List.find?_cons_of_pos (by decide +kernel))
      (by decide +kernel) (readsImage_imageRead _ _)
      (firstSector_imageMemory _ []) rfl ⟨0, 0, 0, 0, 0, 0, [], []⟩
  obtain ⟨final, booted, ends⟩ :=
    loads loaded (UnchangedOutside.refl _ _)
  obtain ⟨filling, _, held⟩ := booted.kernelLoaded
  have last :
      bytesOf (List.replicate 512 0x90 ++ [0xF4] ++ filling) 512 = 0xF4 := by
    rw [bytesOf, List.getD_append _ _ _ _ (by decide +kernel)]
    decide +kernel
  exact
    ⟨loaded, final, starts, ends 3 (by decide) (by decide +kernel),
      held 0 (by decide +kernel), (held 512 (by decide +kernel)).trans last⟩

/--
Behind the start of the file system all requests for files of the image are
answered, in any order, and nothing but the variables of the file system and
the regions of the requests is written.
-/
theorem initializeFATFS_servesFiles
    {places : FATFSPlaces}
    {bootcode : List Byte}
    {sources : List SourceFile}
    {parameters : BootParameters}
    {memory : Memory}
    {drive : Drive}
    {requests : List FileRequest}
    (buildable : Buildable bootcode sources)
    (noNul : ∀ source ∈ sources, source.NoNul)
    (few : sources.length < 511)
    (loaded :
      LoadedImage memory bootcode
        (packageImage bootcode (buildImage bootcode sources)) parameters)
    (image :
      HoldsImage drive.disk
        (packageImage bootcode (buildImage bootcode sources)))
    (valid : ∀ request ∈ requests, request.Valid places sources memory)
    (independent : requests.Pairwise FileRequest.Independent) :
    ∃ enough final later,
      later.disk = drive.disk ∧
        UnchangedOutside
          (places.regions ++ requests.map FileRequest.destination) memory
          final ∧
        (∀ request ∈ requests, Delivered sources memory final request) ∧
        ∀ fuel ≥ enough,
          readFiles fuel places requests
              (initializeFATFS places
                (initializeDisk places.fsInfo.start memory))
              drive =
            some (final, later) := by
  obtain ⟨ready, started⟩ :=
    @initializeFATFS_ready places _ _ _ _ loaded buildable.aligned
      buildable.built.table
  have validStarted :
      ∀ request ∈ requests, request.Valid places sources _ :=
    fun request member =>
      (valid request member).of_unchangedOutside started
        (valid request member).namePlaced
  obtain ⟨enough, final, later, disk, unchanged, delivered, ends⟩ :=
    ready.readFiles_deliver buildable noNul few image validStarted
      independent
  refine ⟨enough, final, later, disk, ?_, fun request member => ?_, ends⟩
  · exact
      (started.mono (List.subset_append_left _ _)).trans
        (unchanged.mono (List.subset_append_right _ _))
  · refine
      (delivered request member).after_unchangedOutside started
        fun place isPlace => ?_
    have apart := (valid request member).placed place isPlace
    rw [List.forall_mem_singleton] at apart
    exact apart.symm

/-- Variables of the file system from 0x30000 on. -/
def somePlaces : FATFSPlaces where
  fsInfo := ⟨0x30000, 57, by decide⟩
  rootDirectory := ⟨0x31000, 16384, by decide⟩
  clusterTable := ⟨0x36000, 6144, by decide⟩
  sizeofFsInfo := by decide
  sizeofDirectory := by decide
  sizeofTable := by decide
  fsInfoInKernel := by decide
  directoryInKernel := by decide
  tableInKernel := by decide
  infoDirectory := by decide
  infoTable := by decide
  directoryTable := by decide

/-- Where a first name lies. -/
def firstName : MemoryRegion := ⟨0x20000, 11, by decide⟩

/-- Where a second name lies. -/
def secondName : MemoryRegion := ⟨0x2000B, 11, by decide⟩

/-- The name of the logo. -/
def logoNameExt : List Byte :=
  [0x6C, 0x6F, 0x67, 0x6F, 0x20, 0x20, 0x20, 0x20, 0x62, 0x69, 0x6E]

/-- A name that no file has. -/
def otherNameExt : List Byte :=
  List.replicate 11 0x41

/-- The logo, to 0x40000. -/
def logoRequest : FileRequest where
  name := logoNameExt
  nameExt := firstName
  destination := ⟨0x40000, 1024, by decide⟩

/-- The other name. -/
def otherRequest : FileRequest where
  name := otherNameExt
  nameExt := secondName
  destination := ⟨0x50000, 512, by decide⟩

/-- A drive with an image. -/
def imageDrive (image : List Byte) : Drive :=
  { emptyDrive with
    disk := fun lba offset => bytesOf image (lba.toNat * 512 + offset) }

/-- The drive has the image. -/
theorem holdsImage_imageDrive
    {sources : List SourceFile}
    (buildable : Buildable shortBytes sources) :
    HoldsImage (imageDrive (shortImage sources)).disk
      (shortImage sources) := by
  refine holdsImage_bytesOf ?_
  have length : (shortImage sources).length = _ :=
    buildable.built.length_packageImage buildable.aligned buildable.few
  have fits := buildable.fits
  omega

/-- Names from 0x20000 on. -/
theorem holds_imageMemory
    {image strings : List Byte}
    {first : Nat}
    (bounded : 0x20000 + first + 11 ≤ 2 ^ 32) :
    Holds (imageMemory image strings) ⟨BitVec.ofNat 32 (0x20000 + first), 11, by
        rw [BitVec.toNat_ofNat]
        omega⟩
      (bytesOf (strings.drop first)) := by
  intro offset inside
  have inside : offset < 11 := inside
  have number :
      (BitVec.ofNat 32 (0x20000 + first) + BitVec.ofNat 32 offset).toNat =
        0x20000 + first + offset := by
    rw [← BitVec.ofNat_add, BitVec.toNat_ofNat, Nat.mod_eq_of_lt (by omega)]
  simp only
  rw [imageMemory, number, if_neg (by omega), bytesOf, bytesOf,
    List.getD_eq_getElem?_getD, List.getD_eq_getElem?_getD,
    List.getElem?_drop, Nat.add_assoc, Nat.add_sub_cancel_left]

/-- The image with the logo, and both names. -/
def logoMemory : Memory :=
  imageMemory (shortImage kernelAndLogo) (logoNameExt ++ otherNameExt)

/-- The logo is delivered, and nothing for the name that no file has. -/
theorem initializeFATFS_servesFiles_logo :
    ∃ fuel final later,
      readFiles fuel somePlaces [logoRequest, otherRequest]
            (initializeFATFS somePlaces
              (initializeDisk somePlaces.fsInfo.start logoMemory))
            (imageDrive (shortImage kernelAndLogo)) =
          some (final, later) ∧
        Delivered kernelAndLogo logoMemory final logoRequest ∧
          Delivered kernelAndLogo logoMemory final otherRequest := by
  have logo : fileNamed kernelAndLogo logoRequest.name = some _ :=
    List.find?_cons_of_neg (by decide +kernel) |>.trans
      (List.find?_cons_of_pos (by decide +kernel))
  have other : fileNamed kernelAndLogo otherRequest.name = none :=
    List.find?_eq_none.mpr (by decide +kernel)
  have valid :
      ∀ request ∈ [logoRequest, otherRequest],
        request.Valid somePlaces kernelAndLogo logoMemory := by
    rw [List.forall_mem_cons, List.forall_mem_singleton]
    refine ⟨⟨fun offset inside => ?_, rfl, rfl, by decide, ?_, ?_, ?_⟩,
      ⟨fun offset inside => ?_, rfl, rfl, by decide, ?_, ?_, ?_⟩⟩
    · have held :=
        @holds_imageMemory (shortImage kernelAndLogo)
          (logoNameExt ++ otherNameExt) 0 (by decide) offset inside
      rwa [List.drop_zero, bytesOf, List.getD_append _ _ _ _ inside] at held
    · rw [logo]
      rintro source ⟨⟩
      exact ⟨by decide +kernel, by decide +kernel⟩
    · unfold MemoryRegion.Apart
      decide
    · unfold FATFSPlaces.ApartFrom MemoryRegion.Apart
      decide
    · exact
        @holds_imageMemory (shortImage kernelAndLogo)
          (logoNameExt ++ otherNameExt) 11 (by decide) offset inside
    · rw [other]
      rintro source ⟨⟩
    · unfold MemoryRegion.Apart
      decide
    · unfold FATFSPlaces.ApartFrom MemoryRegion.Apart
      decide
  have independent :
      [logoRequest, otherRequest].Pairwise FileRequest.Independent := by
    rw [List.pairwise_pair]
    exact ⟨.inr (by decide), .inl (by decide)⟩
  obtain ⟨enough, final, later, _, _, delivered, ends⟩ :=
    @initializeFATFS_servesFiles somePlaces _ _ _ _ _ _
      buildable_kernelAndLogo noNul_kernelAndLogo (by decide)
      (loadedImage_imageMemory _ _)
      (holdsImage_imageDrive buildable_kernelAndLogo) valid independent
  rw [List.forall_mem_cons, List.forall_mem_singleton] at delivered
  exact
    ⟨enough, final, later, ends enough (Nat.le_refl _), delivered.1,
      delivered.2⟩

end HobbyOS
