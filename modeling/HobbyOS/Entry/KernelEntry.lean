import HobbyOS.Entry.FirstScreen

namespace HobbyOS

open Library

/-!
# The entry of the kernel

`entry` starts the drive, the file system and the video driver, sets up the
interrupts, draws the first screen with a picture from the file system, and
halts.  Whatever the set-up of the interrupts writes beside what is read later,
the first screen is the one of the files on the drive.
-/

/-- `entry` up to `initialize_vbe`. -/
def entryStart
    (fuel : Nat)
    (places : KernelPlaces)
    (memory : Memory)
    (drive : Drive) :
    Option (TextStyle × Memory × Drive) :=
  let memory := initializeDisk places.files.fsInfo.start memory
  let memory := initializeFATFS places.files memory
  initializeVbe fuel places 0xFFFFFFFF 0xFF000000 memory drive

/--
Where `entry` looks for its picture, and the call that it makes next.
`filedata` is not the address of `__bss_end` but the word that is there.
-/
def entryPicture
    (fuel : Nat)
    (places : KernelPlaces)
    (memory : Memory)
    (drive : Drive) :
    Option (DrawCommand × Memory × Drive) := do
  let entry ←
    findEntry fuel memory places.files.rootDirectory.start
      places.imageName.start
  let filedata := readWord memory places.bssEnd.start
  if entry ≠ 0 then
    let (memory, drive) ←
      readAllTo fuel (usedInfo (diskGetInfo places.files.fsInfo.start memory))
        (clusterTableAt memory places.files.clusterTable.start) memory drive
        filedata entry
    let width := readWord memory filedata
    let height := readWord memory (filedata + 4)
    return (imageCall width height filedata, memory, drive)
  else
    return (notFoundCall, memory, drive)

/-- `entry` behind the set-up of the interrupts, up to its endless loop. -/
def entryDraw
    (fuel : Nat)
    (places : KernelPlaces)
    (style : TextStyle)
    (memory : Memory)
    (drive : Drive) :
    Option (VideoState × Drive) := do
  let style := { style with font := fontAt memory places.font.start }
  let cleared ←
    drawAll fuel (modeInfoAt memory places.modeInfo.start) { style, memory }
      callsInFront
  let (call, memory, drive) ←
    entryPicture fuel places cleared.memory drive
  let mode := modeInfoAt memory places.modeInfo.start
  let style :=
    { cleared.style with font := fontAt memory places.font.start }
  let state ←
    drawAll fuel mode { style, memory } (call :: callsBehind mode)
  return (state, drive)

/-! ## What is needed -/

/-- The variables and strings that are read behind the start. -/
def KernelPlaces.kept (places : KernelPlaces) : List MemoryRegion :=
  places.files.regions ++
    [places.modeInfo, places.font, places.imageName, places.bssEnd]

/-- What `entry` starts from, with the mode information at `modeSource`. -/
structure EntryStartsFrom
    (places : KernelPlaces)
    (bootcode : List Byte)
    (sources : List SourceFile)
    (fontFile : SourceFile)
    (modeSource : MemoryRegion)
    (parameters : BootParameters)
    (memory : Memory)
    (drive : Drive) :
    Prop where
  buildable : Buildable bootcode sources
  noNul : ∀ source ∈ sources, source.NoNul
  few : sources.length < 511
  loaded :
    LoadedImage memory bootcode
      (packageImage bootcode (buildImage bootcode sources)) parameters
  image :
    HoldsImage drive.disk
      (packageImage bootcode (buildImage bootcode sources))
  font : fileNamed sources fontNameExt = some fontFile
  fontLength : fontFile.contents.length = sizeofFont
  fontName : Holds memory places.fontName (bytesOf fontNameExt)
  imageName : Holds memory places.imageName (bytesOf imageNameExt)
  modeFound : modeSource.start = (bootcodePointers memory).modeInfoBlock
  modeSize : modeSource.size = sizeofModeInfoBlock
  modeApart :
    ∀ region ∈ places.files.regions ++ [places.vbeInfo, places.modeInfo],
      modeSource.Apart region

/--
The picture is the file of its name, if there is one, and where it is read to
nothing else lies.
-/
structure PicturePlaced
    (places : KernelPlaces)
    (sources : List SourceFile)
    (mode : ModeInfoBlock)
    (destination : MemoryRegion)
    (picture : Option Image) :
    Prop where
  file :
    match picture with
    | some image =>
        ∃ file,
          fileNamed sources imageNameExt = some file ∧
            convertImage image = .ok file.contents ∧
            clusterCount file.contents.length < 256 ∧
            destination.size = clusterCount file.contents.length * 512
    | none => fileNamed sources imageNameExt = none
  kept : ∀ place ∈ places.kept, place.Apart destination
  beside : mode.KeepsApart destination.start destination.size

/-- What the start leaves for the drawing. -/
structure EntryReady
    (places : KernelPlaces)
    (files : ImageFiles)
    (mode : ModeInfoBlock)
    (font : List Byte)
    (filedata : PtrT)
    (memory : Memory) :
    Prop where
  files : FATFSReady places.files files memory
  mode : modeInfoAt memory places.modeInfo.start = mode
  font : Holds memory places.font (bytesOf font)
  imageName : Holds memory places.imageName (bytesOf imageNameExt)
  filedata : readWord memory places.bssEnd.start = filedata

/-! ## The start -/

section Entry

variable
  {places : KernelPlaces}
  {bootcode : List Byte}
  {sources : List SourceFile}
  {fontFile : SourceFile}
  {modeSource destination : MemoryRegion}
  {parameters : BootParameters}
  {mode : ModeInfoBlock}
  {picture : Option Image}
  {files : ImageFiles}
  {font : List Byte}
  {filedata : PtrT}
  {memory after : Memory}
  {drive : Drive}
  {regions : List MemoryRegion}

/-- A word of a region stays while other regions are written. -/
theorem readWord_of_unchangedOutside
    {region : MemoryRegion}
    (unchanged : UnchangedOutside regions memory after)
    (size : region.size = 4)
    (apart : ∀ other ∈ regions, region.Apart other) :
    readWord after region.start = readWord memory region.start := by
  have fits := region.fits
  refine readWord_congr (by omega) fun target from_ below => ?_
  refine unchanged target fun other member => ?_
  exact (apart other member).not_contains ⟨from_, by omega⟩

/-- The mode information stays while other regions are written. -/
theorem modeInfoAt_of_unchangedOutside
    {region : MemoryRegion}
    (unchanged : UnchangedOutside regions memory after)
    (size : region.size = sizeofModeInfoBlock)
    (apart : ∀ other ∈ regions, region.Apart other) :
    modeInfoAt after region.start = modeInfoAt memory region.start := by
  refine modeInfoAt_congr fun offset inside => ?_
  refine unchanged _ fun other member => ?_
  exact
    (apart other member).not_contains
      (region.contains_offset (size ▸ inside))

/-- What is needed stays while other regions are written. -/
theorem EntryReady.of_unchangedOutside
    (ready : EntryReady places files mode font filedata memory)
    (unchanged : UnchangedOutside regions memory after)
    (apart : ∀ place ∈ places.kept, ∀ region ∈ regions, place.Apart region) :
    EntryReady places files mode font filedata after := by
  rw [KernelPlaces.kept, List.forall_mem_append] at apart
  obtain ⟨filesApart, apart⟩ := apart
  simp only [List.forall_mem_cons] at apart
  obtain ⟨modeApart, fontApart, nameApart, bssApart, _⟩ := apart
  refine ⟨?_, ?_, ?_, ?_, ?_⟩
  · exact ready.files.of_unchangedOutside unchanged filesApart
  · rw [← ready.mode]
    exact
      modeInfoAt_of_unchangedOutside unchanged places.sizeofModeInfo modeApart
  · exact ready.font.of_unchangedOutside unchanged fontApart
  · exact ready.imageName.of_unchangedOutside unchanged nameApart
  · rw [← ready.filedata]
    exact
      readWord_of_unchangedOutside unchanged places.bssEndSize bssApart

/-- The clusters of a font of 2048 bytes fill its variable. -/
theorem EntryStartsFrom.fontFits
    (starts :
      EntryStartsFrom places bootcode sources fontFile modeSource parameters
        memory drive) :
    FontFits sources := by
  intro file named
  obtain rfl := Option.some.inj (starts.font.symm.trans named)
  rw [starts.fontLength]
  rfl

/-- The font that is delivered is the one of the image. -/
theorem EntryStartsFrom.font_held
    (starts :
      EntryStartsFrom places bootcode sources fontFile modeSource parameters
        memory drive)
    {between : Memory}
    (delivered : Delivered sources between after places.fontRequest) :
    Holds after places.font (bytesOf fontFile.contents) := by
  have named : fileNamed sources places.fontRequest.name = some fontFile :=
    starts.font
  rw [Delivered, named] at delivered
  obtain ⟨filling, filled, held⟩ := delivered
  have fontSize : places.fontRequest.destination.size = sizeofFont :=
    places.fontSize
  have fontLength := starts.fontLength
  have nothing : filling = [] := by
    rw [← List.length_eq_zero_iff]
    omega
  rwa [nothing, List.append_nil] at held

/-- The start ends with what the drawing needs. -/
theorem EntryStartsFrom.entryStart_ready
    (starts :
      EntryStartsFrom places bootcode sources fontFile modeSource parameters
        memory drive) :
    ∃ enough started later,
      later.disk = drive.disk ∧
        EntryReady places (buildImage bootcode sources)
          (modeInfoAt memory modeSource.start) fontFile.contents
          (readWord memory places.bssEnd.start) started ∧
        ∀ fuel ≥ enough,
          entryStart fuel places memory drive =
            some
              ({ font := fontAt started places.font.start
                 foregroundColor := 0xFFFFFFFF
                 backgroundColor := 0xFF000000 },
                started, later) := by
  obtain ⟨ready, first⟩ :=
    @initializeFATFS_ready places.files _ _ _ _ starts.loaded
      starts.buildable.aligned starts.buildable.built.table
  have modeApart := List.forall_mem_append.mp starts.modeApart
  have filesApart
      {other : MemoryRegion}
      (listed :
        other ∈
          [places.vbeInfo, places.modeInfo, places.font, places.fontName,
            places.imageName, places.bssEnd]) :
      ∀ place ∈ places.files.regions, other.Apart place :=
    fun place isPlace => (places.filesApart place isPlace other listed).symm
  have pointers :=
    bootcodePointers_of_unchangedOutside first places.filesInKernel
  have mode :=
    modeInfoAt_of_unchangedOutside first starts.modeSize modeApart.1
  obtain ⟨enough, started, later, disk, second, copied, _, delivered, ends⟩ :=
    initializeVbe_starts starts.buildable starts.noNul starts.few ready
      starts.image starts.fontFits
      (starts.fontName.of_unchangedOutside first (filesApart (by simp)))
      (starts.modeFound.trans (congrArg _ pointers.symm)) starts.modeSize
      modeApart.2 0xFFFFFFFF 0xFF000000
  have others := places.othersApart
  simp only [List.pairwise_cons, List.forall_mem_cons] at others
  obtain ⟨⟨_, _, _, vbeName, vbeBss, _⟩, ⟨_, _, modeName, modeBss, _⟩,
    ⟨_, fontName, fontBss, _⟩, _⟩ := others
  have nameApart :
      ∀ region ∈ [places.vbeInfo, places.modeInfo, places.font],
        places.imageName.Apart region := by
    simp only [List.forall_mem_cons]
    exact
      ⟨vbeName.symm, modeName.symm, fontName.symm, List.forall_mem_nil _⟩
  have bssApart :
      ∀ region ∈ [places.vbeInfo, places.modeInfo, places.font],
        places.bssEnd.Apart region := by
    simp only [List.forall_mem_cons]
    exact ⟨vbeBss.symm, modeBss.symm, fontBss.symm, List.forall_mem_nil _⟩
  refine
    ⟨enough, started, later, disk,
      ⟨?_, ?_, starts.font_held delivered, ?_, ?_⟩, ends⟩
  · refine ready.of_unchangedOutside second fun place isPlace => ?_
    simp only [List.forall_mem_cons]
    exact
      ⟨places.filesApart place isPlace _ (by simp),
        places.filesApart place isPlace _ (by simp),
        places.filesApart place isPlace _ (by simp), List.forall_mem_nil _⟩
  · exact (modeInfoAt_of_holds places.sizeofModeInfo copied).trans mode
  · exact
      (starts.imageName.of_unchangedOutside first
        (filesApart (by simp))).of_unchangedOutside second nameApart
  · rw [readWord_of_unchangedOutside second places.bssEndSize bssApart,
      readWord_of_unchangedOutside first places.bssEndSize
        (filesApart (by simp))]

/-! ## The picture -/

/-- The picture is found and read, or there is none. -/
theorem EntryReady.entryPicture_loads
    (ready :
      EntryReady places (buildImage bootcode sources) mode font filedata
        memory)
    (buildable : Buildable bootcode sources)
    (noNul : ∀ source ∈ sources, source.NoNul)
    (few : sources.length < 511)
    (diskImage :
      HoldsImage drive.disk
        (packageImage bootcode (buildImage bootcode sources)))
    (placed : PicturePlaced places sources mode destination picture)
    (start : destination.start = filedata) :
    ∃ enough after later,
      UnchangedOutside [destination] memory after ∧
        PictureLoaded mode after filedata picture ∧
        ∀ fuel ≥ enough,
          entryPicture fuel places memory drive =
            some (pictureCall filedata picture, after, later) := by
  subst start
  have notVolume : imageNameExt ≠ volumeEntry.take 11 := by
    decide
  have filedata := ready.filedata
  cases picture with
  | none =>
      have unnamed : fileNamed sources imageNameExt = none := placed.file
      let request : FileRequest :=
        { name := imageNameExt
          nameExt := places.imageName
          destination := destination }
      have valid : request.Valid places.files sources memory :=
        { named := ready.imageName
          nameSize := places.imageNameSize
          length := rfl
          notVolume := notVolume
          room := fun source named => by
            cases unnamed.symm.trans named
          namePlaced := fun place isPlace =>
            (places.filesApart place isPlace places.imageName
              (by simp)).symm
          placed := fun place isPlace =>
            List.forall_mem_singleton.mpr
              (placed.kept place (List.mem_append_left _ isPlace)) }
      refine
        ⟨sources.length + 2, memory, drive, UnchangedOutside.refl _ _, trivial,
          fun fuel fueled => ?_⟩
      have search :=
        ready.files.findEntry_eq_zero buildable noNul few valid unnamed
          (show sources.length + 1 < fuel by omega)
      rw [entryPicture, search]
      rfl
  | some image =>
      obtain ⟨file, named, converted, short, size⟩ := placed.file
      obtain ⟨front, behind, rfl, same, first⟩ :=
        exists_firstNamed named notVolume
      have name :
          ∀ offset < 11,
            memory (places.imageName.start + BitVec.ofNat 32 offset) =
              bytesOf file.nameExt offset := by
        rw [same]
        exact fun offset inside =>
          ready.imageName offset (places.imageNameSize ▸ inside)
      obtain ⟨enough, entry, filling, later, isEntry, filled, _, ends⟩ :=
        ready.files.readsFile buildable noNul first short diskImage name size
      have held :=
        Holds.storeBytes destination memory
          (bytesOf (file.contents ++ filling))
      have unchanged :=
        UnchangedOutside.storeBytes destination memory
          (bytesOf (file.contents ++ filling))
      generalize
        storeBytes memory destination.start
            (bytesOf (file.contents ++ filling)) destination.size =
          after at held unchanged ends
      have maskFile := maskFile_of_convertImage converted
      have room := placed.beside.room
      have apart := placed.beside.apart
      rw [ModeInfoBlock.framebufferEnd] at apart
      have inMemory :
          MaskLoaded mode after destination.start file.contents :=
        { loaded := held.loadBytes_front (by omega)
          fits := by omega
          apart := by omega }
      obtain ⟨width, height⟩ := inMemory.size maskFile
      refine
        ⟨enough, after, later, unchanged, ⟨file.contents, maskFile, inMemory⟩,
          fun fuel fueled => ?_⟩
      obtain ⟨search, read⟩ := ends fuel fueled
      rw [entryPicture, search, filedata]
      simp only [Option.bind_eq_bind, Option.bind_some]
      rw [if_pos isEntry, read]
      simp only [Option.bind_some, width, height]
      rfl

/-! ## The first screen -/

/-- The framebuffer of a 32-bit mode. -/
def ModeInfoBlock.Is32Bit.framebuffer (is32Bit : mode.Is32Bit) :
    MemoryRegion where
  start := mode.physicalBasePointer
  size := mode.yResolution.toNat * mode.bytesPerScanline.toNat
  fits := is32Bit.fits

/-- The clearing leaves the color of the background. -/
theorem paintAll_callsInFront
    (style : TextStyle)
    (below : Pixel → BitVec 32)
    (pixel : Pixel) :
    paintAll pixelAfter below (allStrokes mode memory style callsInFront)
        pixel =
      textBackground := by
  have isOpaque : IsOpaque textBackground := by
    decide
  have strokes :
      allStrokes mode memory style callsInFront =
        [fun _ => some style.backgroundColor, fun _ => some textBackground] :=
    rfl
  rw [strokes]
  exact isOpaque.hides (pixelAfter style.backgroundColor (below pixel))

/-- The drawing ends with the first screen. -/
theorem EntryReady.entryDraw_draws
    (ready :
      EntryReady places (buildImage bootcode sources) mode font filedata
        memory)
    (buildable : Buildable bootcode sources)
    (noNul : ∀ source ∈ sources, source.NoNul)
    (few : sources.length < 511)
    (diskImage :
      HoldsImage drive.disk
        (packageImage bootcode (buildImage bootcode sources)))
    (fits : FirstScreenFits mode picture)
    (placed : PicturePlaced places sources mode destination picture)
    (start : destination.start = filedata)
    (beside :
      ∀ place ∈ places.kept, mode.KeepsApart place.start place.size)
    (style : TextStyle) :
    ∃ enough final later,
      (∀ fuel ≥ enough,
        entryDraw fuel places style memory drive = some (final, later)) ∧
        (∀ pixel,
          mode.OnScreen pixel →
          readWord final.memory (mode.pixelPointer pixel) =
            firstScreen mode (fileFont font) picture pixel) ∧
        UnchangedOutside [fits.is32Bit.framebuffer, destination] memory
          final.memory := by
  -- The screen is cleared.
  obtain ⟨enough, cleared, ends, styled, draws⟩ :=
    draws_drawAll fits.is32Bit fits.limitFits fits.fitsInFront
      ⟨{ style with font := fontAt memory places.font.start }, memory⟩
  have first :
      UnchangedOutside [fits.is32Bit.framebuffer] memory cleared.memory :=
    UnchangedOutside.of_agreeOutside draws.beside
  have readyCleared :=
    ready.of_unchangedOutside first fun place isPlace =>
      List.forall_mem_singleton.mpr (beside place isPlace).apart
  -- The picture is read.
  obtain ⟨enoughPicture, after, later, second, loaded, reads⟩ :=
    readyCleared.entryPicture_loads buildable noNul few diskImage placed start
  have readyAfter :=
    readyCleared.of_unchangedOutside second fun place isPlace =>
      List.forall_mem_singleton.mpr (placed.kept place isPlace)
  -- The rest is drawn.
  obtain ⟨enoughBehind, final, endsBehind, _, drawsBehind⟩ :=
    draws_drawAll fits.is32Bit fits.limitFits
      (List.forall_mem_cons.mpr ⟨fits.fitsPicture loaded, fits.fitsBehind⟩)
      ⟨entryStyle (fontAt after places.font.start), after⟩
  have third :
      UnchangedOutside [fits.is32Bit.framebuffer] after final.memory :=
    UnchangedOutside.of_agreeOutside drawsBehind.beside
  refine
    ⟨max enough (max enoughPicture enoughBehind), final, later,
      fun fuel fueled => ?_, fun pixel onScreen => ?_, ?_⟩
  · have restyled :
        { cleared.style with font := fontAt after places.font.start } =
          entryStyle (fontAt after places.font.start) := by
      rw [styled]
      rfl
    rw [entryDraw]
    simp only [ready.mode, ends fuel (by omega), Option.bind_eq_bind,
      Option.bind_some, reads fuel (by omega), readyAfter.mode, restyled,
      endsBehind fuel (by omega)]
    rfl
  · have pixelStart := fits.is32Bit.toNat_pixelPointer onScreen
    have pixelFits := fits.is32Bit.pixelPointer_fits onScreen
    have apart := placed.beside.apart
    rw [ModeInfoBlock.framebufferEnd] at apart
    have stays :
        mode.picture after pixel = mode.picture cleared.memory pixel := by
      refine
        readWord_congr (fits.is32Bit.pixelPointer_room onScreen)
          fun target from_ below => ?_
      refine second target (List.forall_mem_singleton.mpr fun inside => ?_)
      rw [MemoryRegion.Contains] at inside
      omega
    have below : mode.picture after pixel = textBackground :=
      stays.trans ((draws.painted pixel onScreen).trans
          (paintAll_callsInFront _ _ pixel))
    exact
      (drawsBehind.painted pixel onScreen).trans
        ((fits.painted loaded _ below).trans
          (congrFun
            (firstScreen_fontAt readyAfter.font places.fontSize mode picture)
            pixel))
  · exact
      ((first.mono (by simp)).trans (second.mono (by simp))).trans
        (third.mono (by simp))

/--
From the files of an image on the drive, `entry` comes to the first screen.
Between its start and its drawing anything may be written beside what is read
later, and the drawing writes to the framebuffer and to the place of the picture
only.
-/
theorem entry_showsFirstScreen
    (starts :
      EntryStartsFrom places bootcode sources fontFile modeSource parameters
        memory drive)
    (fits : FirstScreenFits (modeInfoAt memory modeSource.start) picture)
    (placed :
      PicturePlaced places sources (modeInfoAt memory modeSource.start)
        destination picture)
    (start : destination.start = readWord memory places.bssEnd.start)
    (beside :
      ∀ place ∈ places.kept,
        (modeInfoAt memory modeSource.start).KeepsApart place.start
          place.size) :
    let mode := modeInfoAt memory modeSource.start
    ∃ enough style started later,
      (∀ fuel ≥ enough,
        entryStart fuel places memory drive = some (style, started, later)) ∧
        ∀ regions prepared,
          UnchangedOutside regions started prepared →
          (∀ place ∈ places.kept,
            ∀ region ∈ regions, place.Apart region) →
          ∃ enoughThen final latest,
            (∀ fuel ≥ enoughThen,
              entryDraw fuel places style prepared later =
                some (final, latest)) ∧
              (∀ pixel,
                mode.OnScreen pixel →
                readWord final.memory (mode.pixelPointer pixel) =
                  firstScreen mode (fileFont fontFile.contents) picture
                    pixel) ∧
              UnchangedOutside [fits.is32Bit.framebuffer, destination]
                prepared final.memory := by
  obtain ⟨enough, started, later, disk, ready, ends⟩ :=
    starts.entryStart_ready
  refine
    ⟨enough, _, started, later, ends,
      fun regions prepared unchanged apart => ?_⟩
  exact
    (ready.of_unchangedOutside unchanged apart).entryDraw_draws
      starts.buildable starts.noNul starts.few (disk ▸ starts.image) fits
      placed start beside _

end Entry

/-! ## A small first screen -/

/-- The file of the small image. -/
def chessSource : SourceFile where
  name := ['a', 'p', '_', '2', '.', 'b', 'i', 'n']
  contents := chessFile

/-- A font and a picture. -/
def entrySources : List SourceFile :=
  [fullFontSource, chessSource]

/-- Both files can be added. -/
theorem buildable_entrySources : Buildable shortBytes entrySources := by
  refine ⟨shortBootCode.aligned, ?_, by decide, ?_⟩
  · rw [entrySources, List.forall_mem_cons, List.forall_mem_singleton]
    refine
      ⟨⟨by decide, by decide,
          .inr ⟨['f', 'o', 'n', 't'], ['b', 'i', 'n'], rfl, by decide⟩⟩,
        ⟨by decide, by decide,
          .inr ⟨['a', 'p', '_', '2'], ['b', 'i', 'n'], rfl, by decide⟩⟩⟩
  · decide +kernel

/-- Neither name has a NUL. -/
theorem noNul_entrySources : ∀ source ∈ entrySources, source.NoNul :=
  noNul_of_all (by decide)

/-- The image with both files, the strings, and the word 0x40000. -/
def entryMemory : Memory :=
  imageMemory (shortImage entrySources)
    (fontNameExt ++ imageNameExt ++ [0, 0, 4, 0])

/-- Where the mode information is found. -/
def entryModeSource : MemoryRegion :=
  ⟨0x800B, 257, by decide⟩

/-- Where the small image is read to. -/
def entryDestination : MemoryRegion :=
  ⟨0x40000, 512, by decide⟩

/-- The mode that is found. -/
theorem modeInfoAt_entryMemory :
    modeInfoAt entryMemory entryModeSource.start = mode640x480 :=
  (ModeInfoBlock.mk.injEq ..).mpr (by decide +kernel)

/-- The kernel starts from the small image. -/
theorem entryStartsFrom_entryMemory :
    EntryStartsFrom entryPlaces shortBytes entrySources fullFontSource
      entryModeSource shortParameters entryMemory
      (imageDrive (shortImage entrySources)) := by
  refine
    { buildable := buildable_entrySources
      noNul := noNul_entrySources
      few := by decide
      loaded := loadedImage_imageMemory _ _
      image := holdsImage_imageDrive buildable_entrySources
      font := List.find?_cons_of_pos (by decide +kernel)
      fontLength := List.length_replicate
      fontName := ?_
      imageName := ?_
      modeFound := by decide +kernel
      modeSize := rfl
      modeApart := by decide }
  · have held :
        ∀ offset < 11,
          entryMemory (0x20000 + BitVec.ofNat 32 offset) =
            bytesOf fontNameExt offset := by
      decide +kernel
    exact held
  · have held :
        ∀ offset < 11,
          entryMemory (0x2000B + BitVec.ofNat 32 offset) =
            bytesOf imageNameExt offset := by
      decide +kernel
    exact held

/-- The first pixels of the small image are drawn. -/
theorem entry_showsFirstScreen_chess :
    ∃ fuel style started later final latest,
      entryStart fuel entryPlaces entryMemory
            (imageDrive (shortImage entrySources)) =
          some (style, started, later) ∧
        entryDraw fuel entryPlaces style started later =
            some (final, latest) ∧
          readWord final.memory
              (mode640x480.pixelPointer { x := 6, y := 6 }) =
            lineForeground ∧
          readWord final.memory
              (mode640x480.pixelPointer { x := 7, y := 6 }) =
            textBackground := by
  have mode := modeInfoAt_entryMemory
  have fits :
      FirstScreenFits (modeInfoAt entryMemory entryModeSource.start)
        (some chessImage) := by
    rw [mode]
    exact
      ⟨mode640x480_is32Bit, by decide, by decide, by decide, by decide,
        by decide, by decide⟩
  have placed :
      PicturePlaced entryPlaces entrySources
        (modeInfoAt entryMemory entryModeSource.start) entryDestination
        (some chessImage) := by
    rw [mode]
    refine
      ⟨⟨chessSource, ?_, rfl, by decide, by decide⟩, by decide, by decide⟩
    exact
      (List.find?_cons_of_neg (by decide +kernel)).trans
        (List.find?_cons_of_pos (by decide +kernel))
  have beside :
      ∀ place ∈ entryPlaces.kept,
        (modeInfoAt entryMemory entryModeSource.start).KeepsApart place.start
          place.size := by
    rw [mode]
    decide
  obtain ⟨enough, style, started, later, begins, draws⟩ :=
    entry_showsFirstScreen entryStartsFrom_entryMemory fits placed
      (by decide +kernel) beside
  obtain ⟨enoughThen, final, latest, ends, painted, _⟩ :=
    draws [] started (UnchangedOutside.refl _ _)
      (fun _ _ => List.forall_mem_nil _)
  rw [mode] at painted
  refine
    ⟨max enough enoughThen, style, started, later, final, latest,
      begins _ (Nat.le_max_left _ _), ends _ (Nat.le_max_right _ _), ?_, ?_⟩
  · rw [painted _ ⟨by decide, by decide⟩]
    rfl
  · rw [painted _ ⟨by decide, by decide⟩]
    rfl

end HobbyOS
