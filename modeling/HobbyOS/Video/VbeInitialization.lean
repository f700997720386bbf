import HobbyOS.Boot.BootChain
import HobbyOS.Video.Text

namespace HobbyOS

open Library

/-!
# The start of the video driver

`initialize_vbe` copies the information about the adapter and the mode from
where it finds their addresses in the boot sector, and loads the font from the
file system.
-/

/-- `sizeof(VBEINFOBLOCK_t)`. -/
def sizeofVbeInfoBlock : Nat := 34 + 222 + 256

/-- `sizeof(MODEINFOBLOCK_t)`, with the reserved bytes at its end. -/
def sizeofModeInfoBlock : Nat := 67 + 190

/-- `sizeof(Font)`. -/
def sizeofFont : Nat := 128 * 16

/-- The fields of a `MODEINFOBLOCK_t` that are read, at their offsets. -/
def modeInfoAt (memory : Memory) (address : PtrT) : ModeInfoBlock where
  bytesPerScanline := readHalf memory (address + BitVec.ofNat 32 16)
  xResolution := readHalf memory (address + BitVec.ofNat 32 18)
  yResolution := readHalf memory (address + BitVec.ofNat 32 20)
  bitsPerPixel := memory (address + BitVec.ofNat 32 25)
  physicalBasePointer := readWord memory (address + BitVec.ofNat 32 40)

/-- `Font`, an array of `Character_t`. -/
def fontAt (memory : Memory) (font : PtrT) (index : Int) : CharacterT where
  lines :=
    Vector.ofFn fun line =>
      memory (font + BitVec.ofInt 32 (16 * index) + BitVec.ofNat 32 line)

/-- `"font    bin"`. -/
def fontNameExt : List Byte :=
  [0x66, 0x6F, 0x6E, 0x74, 0x20, 0x20, 0x20, 0x20, 0x62, 0x69, 0x6E]

/-- `"ap_2    bin"`. -/
def imageNameExt : List Byte :=
  [0x61, 0x70, 0x5F, 0x32, 0x20, 0x20, 0x20, 0x20, 0x62, 0x69, 0x6E]

/-- The variables and strings of `entry`, which the linker keeps apart. -/
structure KernelPlaces where
  files : FATFSPlaces
  vbeInfo : MemoryRegion
  modeInfo : MemoryRegion
  font : MemoryRegion
  fontName : MemoryRegion
  imageName : MemoryRegion
  bssEnd : MemoryRegion
  sizeofVbeInfo : vbeInfo.size = sizeofVbeInfoBlock
  sizeofModeInfo : modeInfo.size = sizeofModeInfoBlock
  fontSize : font.size = sizeofFont
  fontNameSize : fontName.size = 11
  imageNameSize : imageName.size = 11
  bssEndSize : bssEnd.size = 4
  vbeInfoInKernel : 0x10000 ≤ vbeInfo.start.toNat
  apart :
    (files.regions ++
        [vbeInfo, modeInfo, font, fontName, imageName, bssEnd]).Pairwise
      MemoryRegion.Apart

/-- `initialize_vbe`. -/
def initializeVbe
    (fuel : Nat)
    (places : KernelPlaces)
    (foreground background : BitVec 32)
    (memory : Memory)
    (drive : Drive) :
    Option (TextStyle × Memory × Drive) := do
  let memory :=
    memcpy memory places.vbeInfo.start (bootcodePointers memory).vbeInfoBlock
      (BitVec.ofNat 32 sizeofVbeInfoBlock)
  let memory :=
    memcpy memory places.modeInfo.start
      (bootcodePointers memory).modeInfoBlock
      (BitVec.ofNat 32 sizeofModeInfoBlock)
  let (memory, drive) ←
    readFile fuel places.files memory drive places.fontName.start
      places.font.start
  let style : TextStyle :=
    { font := fontAt memory places.font.start
      foregroundColor := foreground
      backgroundColor := background }
  return (style, memory, drive)

/-! ## What is copied -/

section Copies

variable
  {memory after : Memory}
  {address other : PtrT}
  {regions : List MemoryRegion}

/-- `memcpy` writes to its destination only, whatever the source is. -/
theorem memcpyLoop_agreeOutside
    {destination source : PtrT}
    {length : Nat}
    (fits : destination.toNat + length ≤ 2 ^ 32) :
    AgreeOutside destination.toNat (destination.toNat + length) memory
      (memcpyLoop memory destination source length) := by
  induction length generalizing memory with
  | zero =>
      exact AgreeOutside.refl _ _ _
  | succ length inductionHypothesis =>
      have last := @toNat_add_ofNat destination length (by omega)
      rw [memcpyLoop]
      exact
        ((writeByte_agreeOutside memory _ _).mono (by omega)
          (by omega)).trans
          ((inductionHypothesis (by omega)).mono (Nat.le_refl _) (by omega))

/-- A copy to a region changes nothing else. -/
theorem unchangedOutside_memcpy
    (region : MemoryRegion)
    (memory : Memory)
    (source : PtrT) :
    UnchangedOutside [region] memory
      (memcpy memory region.start source (BitVec.ofNat 32 region.size)) := by
  have fits := region.fits
  have length : (BitVec.ofNat 32 region.size).toNat ≤ region.size := by
    rw [BitVec.toNat_ofNat]
    exact Nat.mod_le _ _
  exact
    UnchangedOutside.of_agreeOutside
      ((memcpyLoop_agreeOutside (by omega)).mono (Nat.le_refl _) (by omega))

/-- The mode information depends on the bytes of its block. -/
theorem modeInfoAt_congr
    (same :
      ∀ offset < sizeofModeInfoBlock,
        after (other + BitVec.ofNat 32 offset) =
          memory (address + BitVec.ofNat 32 offset)) :
    modeInfoAt after other = modeInfoAt memory address := by
  have half (offset : Nat) (inside : offset + 1 < sizeofModeInfoBlock) :
      readHalf after (other + BitVec.ofNat 32 offset) =
        readHalf memory (address + BitVec.ofNat 32 offset) := by
    have first := same offset (by omega)
    have second := same (offset + 1) inside
    rw [BitVec.ofNat_add, ← BitVec.add_assoc, ← BitVec.add_assoc] at second
    rw [readHalf, readHalf, first]
    exact congrArg (· ++ _) second
  have word :
      readWord after (other + BitVec.ofNat 32 40) =
        readWord memory (address + BitVec.ofNat 32 40) := by
    have next (pointer : PtrT) :
        pointer + BitVec.ofNat 32 40 + 2 = pointer + BitVec.ofNat 32 42 :=
      BitVec.add_assoc _ _ _
    rw [readWord_eq_halves, readWord_eq_halves, next, next,
      half 40 (by decide), half 42 (by decide)]
  rw [modeInfoAt, modeInfoAt, half 16 (by decide), half 18 (by decide),
    half 20 (by decide), same 25 (by decide), word]

/-- The mode information in a region that holds the bytes of a block. -/
theorem modeInfoAt_of_holds
    {region : MemoryRegion}
    (size : region.size = sizeofModeInfoBlock)
    (held : Holds after region (bytesAt memory address)) :
    modeInfoAt after region.start = modeInfoAt memory address :=
  modeInfoAt_congr fun offset inside => held offset (size ▸ inside)

end Copies

/-! ## The driver is started -/

section Start

variable
  {places : KernelPlaces}
  {bootcode : List Byte}
  {sources : List SourceFile}
  {vbeSource modeSource : MemoryRegion}
  {pointers : BootPointers}
  {memory : Memory}
  {drive : Drive}
  {parameters : BootParameters}

/-- The variables of the file system lie apart from the others. -/
theorem KernelPlaces.filesApart (places : KernelPlaces) :
    ∀ place ∈ places.files.regions,
      ∀ other ∈
        [places.vbeInfo, places.modeInfo, places.font, places.fontName,
          places.imageName, places.bssEnd],
        place.Apart other :=
  (List.pairwise_append.mp places.apart).2.2

/-- The other variables and strings lie apart from each other. -/
theorem KernelPlaces.othersApart (places : KernelPlaces) :
    [places.vbeInfo, places.modeInfo, places.font, places.fontName,
        places.imageName, places.bssEnd].Pairwise
      MemoryRegion.Apart :=
  (List.pairwise_append.mp places.apart).2.1

/-- The variables of the file system belong to the kernel. -/
theorem KernelPlaces.filesInKernel (places : KernelPlaces) :
    ∀ region ∈ places.files.regions, 0x10000 ≤ region.start.toNat := by
  simp only [FATFSPlaces.regions, List.forall_mem_cons]
  exact
    ⟨places.files.fsInfoInKernel, places.files.directoryInKernel,
      places.files.tableInKernel, List.forall_mem_nil _⟩

/-- The request for the font. -/
def KernelPlaces.fontRequest (places : KernelPlaces) : FileRequest where
  name := fontNameExt
  nameExt := places.fontName
  destination := places.font

/-- The clusters of the font, if there is one, fill its variable. -/
def FontFits (sources : List SourceFile) : Prop :=
  ∀ file,
    fileNamed sources fontNameExt = some file →
    clusterCount file.contents.length * 512 = sizeofFont

/-- The request for the font is valid. -/
theorem KernelPlaces.fontRequest_valid
    (font : FontFits sources)
    (name : Holds memory places.fontName (bytesOf fontNameExt)) :
    places.fontRequest.Valid places.files sources memory where
  named := name
  nameSize := places.fontNameSize
  length := rfl
  notVolume := show fontNameExt ≠ volumeEntry.take 11 by decide
  room := by
    intro file named
    have filled := font file named
    have size : sizeofFont = 2048 := rfl
    exact ⟨by omega, places.fontSize.trans filled.symm⟩
  namePlaced place isPlace :=
    (places.filesApart place isPlace places.fontName (by simp)).symm
  placed place isPlace := by
    rw [List.forall_mem_singleton]
    exact places.filesApart place isPlace places.font (by simp)

/-- Behind both copies the variables hold the blocks of the pointers. -/
theorem blocks_copied
    (found : modeSource.start = (bootcodePointers memory).modeInfoBlock)
    (size : modeSource.size = sizeofModeInfoBlock)
    (sourceApart :
      ∀ region ∈ [places.vbeInfo, places.modeInfo],
        modeSource.Apart region) :
    ∃ copy,
      memcpy
          (memcpy memory places.vbeInfo.start
            (bootcodePointers memory).vbeInfoBlock
            (BitVec.ofNat 32 sizeofVbeInfoBlock))
          places.modeInfo.start
          (bootcodePointers
            (memcpy memory places.vbeInfo.start
              (bootcodePointers memory).vbeInfoBlock
              (BitVec.ofNat 32 sizeofVbeInfoBlock))).modeInfoBlock
          (BitVec.ofNat 32 sizeofModeInfoBlock) =
        copy ∧
      UnchangedOutside [places.vbeInfo, places.modeInfo] memory copy ∧
      Holds copy places.modeInfo (bytesAt memory modeSource.start) ∧
      ∀ vbeSource : MemoryRegion,
        vbeSource.start = (bootcodePointers memory).vbeInfoBlock →
        vbeSource.size = sizeofVbeInfoBlock →
        vbeSource.Apart places.vbeInfo →
        Holds copy places.vbeInfo (bytesAt memory vbeSource.start) := by
  have first :=
    unchangedOutside_memcpy places.vbeInfo memory
      (bootcodePointers memory).vbeInfoBlock
  have adapter (source : MemoryRegion) :=
    @memcpy_region places.vbeInfo memory source.start
      (BitVec.ofNat 32 sizeofVbeInfoBlock)
      (by rw [places.sizeofVbeInfo]; rfl)
  rw [places.sizeofVbeInfo] at first adapter
  have pointers :=
    bootcodePointers_of_unchangedOutside first
      (List.forall_mem_singleton.mpr places.vbeInfoInKernel)
  have modeSize : places.modeInfo.size = 257 := places.sizeofModeInfo
  have total : sizeofModeInfoBlock = 257 := rfl
  have modeFits := places.modeInfo.fits
  have sourceFits := modeSource.fits
  have safe := sourceApart places.modeInfo (by simp)
  rw [MemoryRegion.Apart] at safe
  rw [pointers, ← found]
  obtain ⟨second, copied⟩ :=
    @memcpy_region places.modeInfo
      (memcpy memory places.vbeInfo.start
        (bootcodePointers memory).vbeInfoBlock
        (BitVec.ofNat 32 sizeofVbeInfoBlock))
      modeSource.start (BitVec.ofNat 32 sizeofModeInfoBlock) modeSize.symm
      (by omega) (by omega)
  refine ⟨_, rfl, ?_, fun offset inside => ?_, ?_⟩
  · exact (first.mono (by simp)).trans (second.mono (by simp))
  · rw [copied offset inside, bytesAt]
    refine first _ fun region member => ?_
    rw [List.mem_singleton.mp member]
    exact
      (sourceApart places.vbeInfo (by simp)).not_contains
        (modeSource.contains_offset (by omega))
  · intro vbeSource vbeFound vbeSize vbeApart
    have vbeFits := vbeSource.fits
    rw [MemoryRegion.Apart, places.sizeofVbeInfo] at vbeApart
    have held := (adapter vbeSource (by omega) (by omega)).2
    rw [vbeFound] at held ⊢
    refine held.of_unchangedOutside second ?_
    rw [List.forall_mem_singleton]
    exact (List.pairwise_cons.mp places.othersApart).1 _ (by simp)

/--
The start of the driver takes over the blocks that the boot sector points to,
and loads the font.
-/
theorem initializeVbe_starts
    (buildable : Buildable bootcode sources)
    (noNul : ∀ source ∈ sources, source.NoNul)
    (few : sources.length < 511)
    (ready :
      FATFSReady places.files (buildImage bootcode sources) memory)
    (image :
      HoldsImage drive.disk
        (packageImage bootcode (buildImage bootcode sources)))
    (font : FontFits sources)
    (name : Holds memory places.fontName (bytesOf fontNameExt))
    (found : modeSource.start = (bootcodePointers memory).modeInfoBlock)
    (size : modeSource.size = sizeofModeInfoBlock)
    (sourceApart :
      ∀ region ∈ [places.vbeInfo, places.modeInfo],
        modeSource.Apart region)
    (foreground background : BitVec 32) :
    ∃ enough final later,
      later.disk = drive.disk ∧
        UnchangedOutside [places.vbeInfo, places.modeInfo, places.font] memory
          final ∧
        Holds final places.modeInfo (bytesAt memory modeSource.start) ∧
        (∀ vbeSource : MemoryRegion,
          vbeSource.start = (bootcodePointers memory).vbeInfoBlock →
          vbeSource.size = sizeofVbeInfoBlock →
          vbeSource.Apart places.vbeInfo →
          Holds final places.vbeInfo (bytesAt memory vbeSource.start)) ∧
        Delivered sources memory final places.fontRequest ∧
        ∀ fuel ≥ enough,
          initializeVbe fuel places foreground background memory drive =
            some
              ({ font := fontAt final places.font.start
                 foregroundColor := foreground
                 backgroundColor := background },
                final, later) := by
  obtain ⟨vbeApart, modeApart, _⟩ := by
    simpa only [List.pairwise_cons] using places.othersApart
  obtain ⟨copy, copies, first, mode, adapter⟩ :=
    blocks_copied found size sourceApart
  have fontApart :
      ∀ region ∈ [places.vbeInfo, places.modeInfo],
        places.font.Apart region := by
    rw [List.forall_mem_cons, List.forall_mem_singleton]
    exact
      ⟨(vbeApart places.font (by simp)).symm,
        (modeApart places.font (by simp)).symm⟩
  have nameApart :
      ∀ region ∈ [places.vbeInfo, places.modeInfo],
        places.fontName.Apart region := by
    rw [List.forall_mem_cons, List.forall_mem_singleton]
    exact
      ⟨(vbeApart places.fontName (by simp)).symm,
        (modeApart places.fontName (by simp)).symm⟩
  have filesApart :
      places.files.ApartFrom [places.vbeInfo, places.modeInfo] := by
    intro place isPlace
    rw [List.forall_mem_cons, List.forall_mem_singleton]
    exact
      ⟨places.filesApart place isPlace places.vbeInfo (by simp),
        places.filesApart place isPlace places.modeInfo (by simp)⟩
  obtain ⟨enough, final, later, disk, second, delivered, ends⟩ :=
    (ready.of_unchangedOutside first filesApart).readFile_delivers buildable
      noNul few image
      (KernelPlaces.fontRequest_valid font
        (name.of_unchangedOutside first nameApart))
  refine
    ⟨enough, final, later, disk, ?_, ?_, fun vbeSource isAt size apart => ?_,
      delivered.after_unchangedOutside first fontApart,
      fun fuel fueled => ?_⟩
  · exact
      (first.mono (by simp)).trans
        (second.mono (by simp [KernelPlaces.fontRequest]))
  · refine mode.of_unchangedOutside second ?_
    rw [List.forall_mem_singleton]
    exact modeApart places.font (by simp)
  · refine (adapter vbeSource isAt size apart).of_unchangedOutside second ?_
    rw [List.forall_mem_singleton]
    exact vbeApart places.font (by simp)
  · have read :
        readFile fuel places.files copy drive places.fontName.start
            places.font.start =
          some (final, later) :=
      ends fuel fueled
    rw [initializeVbe]
    dsimp only
    rw [copies, read]
    rfl

/-- A copy of a block is one of what the block held before other writes. -/
theorem holds_bytesAt_of_unchangedOutside
    {between after : Memory}
    {region source : MemoryRegion}
    {regions : List MemoryRegion}
    (held : Holds after region (bytesAt between source.start))
    (unchanged : UnchangedOutside regions memory between)
    (size : source.size = region.size)
    (apart : ∀ other ∈ regions, source.Apart other) :
    Holds after region (bytesAt memory source.start) := by
  intro offset inside
  rw [held offset inside]
  exact
    unchanged _ fun other member =>
      (apart other member).not_contains (source.contains_offset (by omega))

/--
From what the boot loader leaves, wherever its blocks are: the driver takes over
the two blocks that the pointers in the boot sector name, byte by byte, loads
the font if there is one, and nothing else is written.
-/
theorem initializeVbe_takesBlocks
    (buildable : Buildable bootcode sources)
    (noNul : ∀ source ∈ sources, source.NoNul)
    (few : sources.length < 511)
    (loaded :
      LoadedImage memory bootcode
        (packageImage bootcode (buildImage bootcode sources)) parameters)
    (image :
      HoldsImage drive.disk
        (packageImage bootcode (buildImage bootcode sources)))
    (font : FontFits sources)
    (name : Holds memory places.fontName (bytesOf fontNameExt))
    (holds : HoldsPointers memory pointers)
    (vbeFound : vbeSource.start = pointers.vbeInfoBlock)
    (vbeSize : vbeSource.size = sizeofVbeInfoBlock)
    (vbeApart :
      ∀ region ∈ places.files.regions ++ [places.vbeInfo],
        vbeSource.Apart region)
    (modeFound : modeSource.start = pointers.modeInfoBlock)
    (modeSize : modeSource.size = sizeofModeInfoBlock)
    (modeApart :
      ∀ region ∈ places.files.regions ++ [places.vbeInfo, places.modeInfo],
        modeSource.Apart region)
    (foreground background : BitVec 32) :
    ∃ enough final later,
      later.disk = drive.disk ∧
        UnchangedOutside
          (places.files.regions ++
            [places.vbeInfo, places.modeInfo, places.font])
          memory final ∧
        Holds final places.vbeInfo (bytesAt memory vbeSource.start) ∧
        Holds final places.modeInfo (bytesAt memory modeSource.start) ∧
        Delivered sources memory final places.fontRequest ∧
        ∀ fuel ≥ enough,
          initializeVbe fuel places foreground background
              (initializeFATFS places.files
                (initializeDisk places.files.fsInfo.start memory))
              drive =
            some
              ({ font := fontAt final places.font.start
                 foregroundColor := foreground
                 backgroundColor := background },
                final, later) := by
  obtain ⟨ready, first⟩ :=
    @initializeFATFS_ready places.files _ _ _ _ loaded buildable.aligned
      buildable.built.table
  have filesApart
      {other : MemoryRegion}
      (listed :
        other ∈
          [places.vbeInfo, places.modeInfo, places.font, places.fontName,
            places.imageName, places.bssEnd]) :
      ∀ place ∈ places.files.regions, other.Apart place :=
    fun place isPlace => (places.filesApart place isPlace other listed).symm
  have read :=
    (bootcodePointers_of_unchangedOutside first places.filesInKernel).trans
      holds.bootcodePointers_eq
  obtain ⟨vbeFiles, vbeApart⟩ := List.forall_mem_append.mp vbeApart
  obtain ⟨modeFiles, modeApart⟩ := List.forall_mem_append.mp modeApart
  obtain ⟨enough, final, later, disk, second, mode, adapter, delivered,
    ends⟩ :=
    initializeVbe_starts buildable noNul few ready image font
      (name.of_unchangedOutside first (filesApart (by simp)))
      (modeFound.trans (congrArg _ read.symm)) modeSize modeApart foreground
      background
  have vbe :=
    adapter vbeSource (vbeFound.trans (congrArg _ read.symm)) vbeSize
      (List.forall_mem_singleton.mp vbeApart)
  refine ⟨enough, final, later, disk, ?_, ?_, ?_, ?_, ends⟩
  · exact
      (first.mono (List.subset_append_left _ _)).trans
        (second.mono (List.subset_append_right _ _))
  · exact
      holds_bytesAt_of_unchangedOutside vbe first
        (vbeSize.trans places.sizeofVbeInfo.symm) vbeFiles
  · exact
      holds_bytesAt_of_unchangedOutside mode first
        (modeSize.trans places.sizeofModeInfo.symm) modeFiles
  · exact
      delivered.after_unchangedOutside first
        (@filesApart places.font (by simp))

end Start

/-! ## A small image with a font -/

/-- The variables of the kernel from 0x30000 on, and its strings. -/
def entryPlaces : KernelPlaces where
  files := somePlaces
  vbeInfo := ⟨0x54000, 512, by decide⟩
  modeInfo := ⟨0x51000, 257, by decide⟩
  font := ⟨0x52000, 2048, by decide⟩
  fontName := firstName
  imageName := secondName
  bssEnd := ⟨0x20016, 4, by decide⟩
  sizeofVbeInfo := rfl
  sizeofModeInfo := rfl
  fontSize := rfl
  fontNameSize := rfl
  imageNameSize := rfl
  bssEndSize := rfl
  vbeInfoInKernel := by decide
  apart := by decide

/-- A font of full cells. -/
def fullFontSource : SourceFile where
  name := ['f', 'o', 'n', 't', '.', 'b', 'i', 'n']
  contents := List.replicate 2048 0xFF

/-- The font can be added. -/
theorem buildable_fullFontSource : Buildable shortBytes [fullFontSource] := by
  refine ⟨shortBootCode.aligned, ?_, by decide, ?_⟩
  · rw [List.forall_mem_singleton]
    exact
      ⟨by decide, by decide,
        .inr ⟨['f', 'o', 'n', 't'], ['b', 'i', 'n'], rfl, by decide⟩⟩
  · decide +kernel

/-- The image with the font, and its name. -/
def fontMemory : Memory :=
  imageMemory (shortImage [fullFontSource]) fontNameExt

/-- The pointers are in the boot sector. -/
theorem holdsPointers_fontMemory : HoldsPointers fontMemory shortPointers := by
  refine ⟨?_, ?_, ?_, ?_⟩ <;> decide +kernel

/-- The block of the mode information is filled. -/
theorem modeInfoAt_fontMemory :
    modeInfoAt fontMemory 0x800B = mode640x480 :=
  (ModeInfoBlock.mk.injEq ..).mpr (by decide +kernel)

/-- The mode information and the font are taken over. -/
theorem initializeVbe_takesBlocks_font :
    ∃ fuel style final later,
      initializeVbe fuel entryPlaces 0xFFFFFFFF 0xFF000000
            (initializeFATFS somePlaces
              (initializeDisk somePlaces.fsInfo.start fontMemory))
            (imageDrive (shortImage [fullFontSource])) =
          some (style, final, later) ∧
        modeInfoAt final entryPlaces.modeInfo.start = mode640x480 ∧
        final 0x52000 = 0xFF := by
  have named :
      fileNamed [fullFontSource] fontNameExt = some fullFontSource :=
    List.find?_cons_of_pos (by decide +kernel)
  have font : FontFits [fullFontSource] := by
    intro file isNamed
    obtain rfl := Option.some.inj (named.symm.trans isNamed)
    decide +kernel
  have noNul : ∀ source ∈ [fullFontSource], source.NoNul :=
    noNul_of_all (by decide)
  have name :
      ∀ offset < 11,
        fontMemory (0x20000 + BitVec.ofNat 32 offset) =
          bytesOf fontNameExt offset := by
    decide +kernel
  have nameHeld :
      Holds fontMemory entryPlaces.fontName (bytesOf fontNameExt) :=
    name
  have loaded :
      LoadedImage fontMemory shortBytes (shortImage [fullFontSource])
        shortParameters :=
    loadedImage_imageMemory [fullFontSource] fontNameExt
  have image :
      HoldsImage (imageDrive (shortImage [fullFontSource])).disk
        (shortImage [fullFontSource]) :=
    holdsImage_imageDrive buildable_fullFontSource
  have vbeApart :
      ∀ region ∈ entryPlaces.files.regions ++ [entryPlaces.vbeInfo],
        MemoryRegion.Apart ⟨0x7E0B, 512, by decide⟩ region := by
    decide
  have modeApart :
      ∀ region ∈
          entryPlaces.files.regions ++
            [entryPlaces.vbeInfo, entryPlaces.modeInfo],
        MemoryRegion.Apart ⟨0x800B, 257, by decide⟩ region := by
    decide
  have takes :=
    initializeVbe_takesBlocks buildable_fullFontSource noNul (by decide)
      loaded image font nameHeld holdsPointers_fontMemory rfl rfl vbeApart
      rfl rfl modeApart 0xFFFFFFFF 0xFF000000
  obtain ⟨enough, final, later, _, _, _, mode, delivered, ends⟩ := takes
  refine
    ⟨enough, _, final, later, ends enough (Nat.le_refl _), ?_, ?_⟩
  · exact (modeInfoAt_of_holds rfl mode).trans modeInfoAt_fontMemory
  · have isNamed :
        fileNamed [fullFontSource] entryPlaces.fontRequest.name =
          some fullFontSource :=
      named
    rw [Delivered, isNamed] at delivered
    obtain ⟨filling, _, held⟩ := delivered
    exact held 0 (by decide)

end HobbyOS
