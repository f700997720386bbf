import HobbyOS.ImageBuild.ConvertImage
import HobbyOS.Video.MaskedImage

namespace HobbyOS

open Library

/-!
# Drawing the files of `convert_image.py`

The loops of `convert_image.py` and of `sc_putimg_masked` go through the
pixels of an image in the same order, and the bits of the file stand in the
order in which the drawing takes them from its words.  So every pixel gets the
color for its own alpha.
-/

/-- The pixel of the screen for a pixel of an image at `(x0, y0)`. -/
def pixelAt (x0 y0 : BitVec 32) (pixel : Nat × Nat) : Pixel where
  x := x0 + BitVec.ofNat 32 pixel.1
  y := y0 + BitVec.ofNat 32 pixel.2

section Images

variable
  {mode : ModeInfoBlock}
  {image : Image}
  {x0 y0 : BitVec 32}

/-- No pixel of an image is listed twice. -/
theorem Image.nodup_pixels (image : Image) : image.pixels.Nodup := by
  rw [Image.pixels, List.nodup_flatMap]
  constructor
  · intro y _
    refine List.nodup_range.map fun x other same => ?_
    exact congrArg Prod.fst same
  · refine List.nodup_range.imp fun {y other} apart => ?_
    intro pixel inRow inOther
    obtain ⟨_, _, rfl⟩ := List.mem_map.mp inRow
    obtain ⟨_, _, same⟩ := List.mem_map.mp inOther
    exact apart (congrArg Prod.snd same).symm

/-- Where the pixels of an image come to lie. -/
theorem toNat_pixelAt
    (insideX : x0.toNat + image.width ≤ mode.xResolution.toNat)
    (insideY : y0.toNat + image.height ≤ mode.yResolution.toNat)
    {pixel : Nat × Nat}
    (listed : pixel ∈ image.pixels) :
    (pixelAt x0 y0 pixel).x.toNat = x0.toNat + pixel.1 ∧
      (pixelAt x0 y0 pixel).y.toNat = y0.toNat + pixel.2 := by
  have resolutionX := mode.xResolution.isLt
  have resolutionY := mode.yResolution.isLt
  obtain ⟨column, row⟩ := Image.mem_pixels_iff.mp listed
  exact ⟨toNat_add_ofNat _ (by omega), toNat_add_ofNat _ (by omega)⟩

/-- The loops go through the pixels in the order of the image. -/
theorem putimgPixels_eq
    (insideX : x0.toNat + image.width ≤ mode.xResolution.toNat)
    (insideY : y0.toNat + image.height ≤ mode.yResolution.toNat) :
    putimgPixels x0 y0 (BitVec.ofNat 32 image.width)
        (BitVec.ofNat 32 image.height) =
      image.pixels.map (pixelAt x0 y0) := by
  have resolutionX := mode.xResolution.isLt
  have resolutionY := mode.yResolution.isLt
  rw [putimgPixels, countBelow_add (by omega), countBelow_add (by omega),
    Image.pixels, List.map_flatMap, List.flatMap_map]
  simp only [List.map_map]
  rfl

/-- The pixels of an image inside the screen are on the screen. -/
theorem onScreen_pixelAt
    (insideX : x0.toNat + image.width ≤ mode.xResolution.toNat)
    (insideY : y0.toNat + image.height ≤ mode.yResolution.toNat)
    {pixel : Nat × Nat}
    (listed : pixel ∈ image.pixels) :
    mode.OnScreen (pixelAt x0 y0 pixel) := by
  obtain ⟨x, y⟩ := toNat_pixelAt insideX insideY listed
  obtain ⟨column, row⟩ := Image.mem_pixels_iff.mp listed
  exact ⟨by omega, by omega⟩

/-- Different pixels of an image are different pixels of the screen. -/
theorem nodup_map_pixelAt
    (insideX : x0.toNat + image.width ≤ mode.xResolution.toNat)
    (insideY : y0.toNat + image.height ≤ mode.yResolution.toNat) :
    (image.pixels.map (pixelAt x0 y0)).Nodup := by
  refine image.nodup_pixels.map_on fun pixel listed other otherListed same => ?_
  obtain ⟨x, y⟩ := toNat_pixelAt insideX insideY listed
  obtain ⟨otherX, otherY⟩ := toNat_pixelAt insideX insideY otherListed
  rw [same] at x y
  exact Prod.ext (by omega) (by omega)

/-- The file of an image in the memory, beside the framebuffer. -/
structure MaskLoaded
    (mode : ModeInfoBlock)
    (memory : Memory)
    (filedata : PtrT)
    (file : List Byte) :
    Prop where
  loaded : loadBytes memory filedata file.length = file
  fits : filedata.toNat + file.length ≤ 2 ^ 32
  apart :
    filedata.toNat + file.length ≤ mode.physicalBasePointer.toNat ∨
      mode.physicalBasePointer.toNat +
          mode.yResolution.toNat * mode.bytesPerScanline.toNat ≤
        filedata.toNat

variable
  {memory : Memory}
  {filedata : PtrT}
  {file : List Byte}

/-- The two words in front of the bits are the width and the height. -/
theorem MaskLoaded.size
    (inMemory : MaskLoaded mode memory filedata file)
    (maskFile : MaskFile image file) :
    readWord memory filedata = BitVec.ofNat 32 image.width ∧
      readWord memory (filedata + 4) = BitVec.ofNat 32 image.height := by
  have total := maskFile.total
  constructor
  · refine readWord_eq_ofNat fun offset inside => ?_
    rw [bytesAt_of_loadBytes inMemory.loaded (by omega)]
    exact maskFile.width offset inside
  · refine readWord_eq_ofNat fun offset inside => ?_
    have byte :=
      bytesAt_of_loadBytes inMemory.loaded
        (show 4 + offset < file.length by omega)
    rw [bytesAt, BitVec.ofNat_add, ← BitVec.add_assoc] at byte
    exact byte.trans (maskFile.height offset inside)

/-- The bits behind the width and the height are those of the pixels. -/
theorem MaskLoaded.bits
    (inMemory : MaskLoaded mode memory filedata file)
    (maskFile : MaskFile image file)
    (whole : 8 ∣ image.width * image.height)
    {index : Nat}
    (inside : index < image.pixels.length) :
    bitAt memory (filedata + 8) index = image.bit image.pixels[index] := by
  have total := maskFile.total
  have count := image.length_pixels
  have parts : file.length = 8 + (file.drop 8).length := by
    rw [List.length_drop]
    omega
  have behind :
      loadBytes memory (filedata + 8) (file.drop 8).length = file.drop 8 := by
    have dropped := @drop_loadBytes memory filedata 8 (file.drop 8).length
    rw [← parts, inMemory.loaded] at dropped
    exact dropped.symm
  rw [bitAt_of_loadBytes behind (by rw [List.length_drop]; omega),
    maskFile.bits index (by omega),
    List.getD_eq_getElem _ _ (by rwa [List.length_map]), List.getElem_map]

/-- The bytes of the bits are beside the framebuffer. -/
theorem MaskLoaded.beside
    (inMemory : MaskLoaded mode memory filedata file)
    (maskFile : MaskFile image file)
    (whole : 8 ∣ image.width * image.height)
    (is32Bit : mode.Is32Bit)
    {index : Nat}
    (inside : index < image.pixels.length)
    {pixel : Pixel}
    (onScreen : mode.OnScreen pixel) :
    mode.Beside pixel (filedata + 8 + BitVec.ofNat 32 (index / 8)) := by
  have total := maskFile.total
  have fits := inMemory.fits
  have apart := inMemory.apart
  have pixelFits := is32Bit.pixelPointer_fits onScreen
  have pixelStart := is32Bit.toNat_pixelPointer onScreen
  rw [image.length_pixels] at inside
  have offset :
      filedata + 8 + BitVec.ofNat 32 (index / 8) =
        filedata + BitVec.ofNat 32 (8 + index / 8) := by
    rw [BitVec.ofNat_add, ← BitVec.add_assoc]
    rfl
  have address := @toNat_add_ofNat filedata (8 + index / 8) (by omega)
  rw [offset, ModeInfoBlock.Beside, address]
  omega

/-- The drawn pixels are on the screen. -/
theorem onScreen_of_mem_pixels
    (insideX : x0.toNat + image.width ≤ mode.xResolution.toNat)
    (insideY : y0.toNat + image.height ≤ mode.yResolution.toNat) :
    ∀ pixel ∈ image.pixels.map (pixelAt x0 y0), mode.OnScreen pixel := by
  intro pixel listed
  obtain ⟨source, sourceListed, rfl⟩ := List.mem_map.mp listed
  exact onScreen_pixelAt insideX insideY sourceListed

/-- The drawing of an image behind its last pixel. -/
theorem MaskLoaded.drawn
    (inMemory : MaskLoaded mode memory filedata file)
    (maskFile : MaskFile image file)
    (whole : 8 ∣ image.width * image.height)
    (is32Bit : mode.Is32Bit)
    (insideX : x0.toNat + image.width ≤ mode.xResolution.toNat)
    (insideY : y0.toNat + image.height ≤ mode.yResolution.toNat)
    {color1 color2 : BitVec 32}
    (opaque1 : IsOpaque color1)
    (opaque2 : IsOpaque color2) :
    Drawn mode memory (filedata + 8) color1 color2
      (image.pixels.map (pixelAt x0 y0))
      ((image.pixels.map (pixelAt x0 y0)).foldl
        (putimgMaskedPixel mode color1 color2)
        { memory, r := 1, data := filedata + 8 }) := by
  have onScreen := onScreen_of_mem_pixels insideX insideY
  refine
    Drawn.foldl is32Bit opaque1 opaque2 Drawn.start onScreen
      (nodup_map_pixelAt insideX insideY) fun index inside pixel listed => ?_
  rw [List.nil_append, List.length_map] at inside
  exact
    inMemory.beside maskFile whole is32Bit inside (onScreen pixel listed)

/-- `sc_putimg_masked` draws the images that `convert_image.py` stores. -/
theorem scPutimgMasked_draws_convertImage
    {color1 color2 : BitVec 32}
    (is32Bit : mode.Is32Bit)
    (whole : 8 ∣ image.width * image.height)
    (converted : convertImage image = .ok file)
    (inMemory : MaskLoaded mode memory filedata file)
    (insideX : x0.toNat + image.width ≤ mode.xResolution.toNat)
    (insideY : y0.toNat + image.height ≤ mode.yResolution.toNat)
    (opaque1 : IsOpaque color1)
    (opaque2 : IsOpaque color2) :
    let after :=
      scPutimgMasked mode memory x0 y0 (readWord memory filedata)
        (readWord memory (filedata + 4)) (filedata + 8) color1 color2
    (∀ x < image.width,
      ∀ y < image.height,
        readWord after (mode.pixelPointer (pixelAt x0 y0 (x, y))) =
          if image.alpha x y = 255 then color1 else color2) ∧
      (∀ pixel,
        mode.OnScreen pixel →
        ¬((x0.toNat ≤ pixel.x.toNat ∧
              pixel.x.toNat < x0.toNat + image.width) ∧
            y0.toNat ≤ pixel.y.toNat ∧
              pixel.y.toNat < y0.toNat + image.height) →
        readWord after (mode.pixelPointer pixel) =
          readWord memory (mode.pixelPointer pixel)) ∧
      ∀ target,
        (∀ x < image.width,
          ∀ y < image.height,
            mode.Beside (pixelAt x0 y0 (x, y)) target) →
        after target = memory target := by
  have maskFile := maskFile_of_convertImage converted
  obtain ⟨width, height⟩ := inMemory.size maskFile
  have drawn :=
    inMemory.drawn maskFile whole is32Bit insideX insideY opaque1 opaque2
  rw [width, height, scPutimgMasked, putimgPixels_eq insideX insideY]
  refine ⟨?_, ?_, ?_⟩
  · intro x column y row
    have listed : (x, y) ∈ image.pixels :=
      Image.mem_pixels_iff.mpr ⟨column, row⟩
    obtain ⟨index, inside, here⟩ := List.mem_iff_getElem.mp listed
    have painted :=
      drawn.painted index (by rwa [List.length_map])
    rw [List.getElem_map, inMemory.bits maskFile whole inside, here] at painted
    rw [painted, Image.bit]
    simp only [decide_eq_true_eq]
  · intro pixel onScreen outside
    refine
      drawn.other is32Bit (onScreen_of_mem_pixels insideX insideY) onScreen
        fun listed => outside ?_
    obtain ⟨source, sourceListed, rfl⟩ := List.mem_map.mp listed
    obtain ⟨x, y⟩ := toNat_pixelAt insideX insideY sourceListed
    obtain ⟨column, row⟩ := Image.mem_pixels_iff.mp sourceListed
    omega
  · intro target beside
    refine drawn.outside target fun pixel listed => ?_
    obtain ⟨source, sourceListed, rfl⟩ := List.mem_map.mp listed
    obtain ⟨column, row⟩ := Image.mem_pixels_iff.mp sourceListed
    exact beside source.1 column source.2 row

end Images

/-- A small image, opaque like a chess board. -/
def chessImage : Image where
  width := 4
  height := 2
  alpha := fun x y => if (x + y) % 2 = 0 then 255 else 254

/-- The file of the small image. -/
def chessFile : List Byte :=
  [4, 0, 0, 0, 2, 0, 0, 0, 0xA5]

/-- A memory with the file of the small image. -/
def chessMemory : Memory :=
  storeBytes (fun _ => 0) 0x20000 (fun offset => chessFile.getD offset 0) 9

/-- The small image at the place of the start picture. -/
def chessDrawn : Memory :=
  scPutimgMasked mode640x480 chessMemory 6 6 (readWord chessMemory 0x20000)
    (readWord chessMemory (0x20000 + 4)) (0x20000 + 8) 0xFFE2A302 0xFF040505

/-- An opaque pixel of the small image and the one beside it. -/
theorem scPutimgMasked_draws_convertImage_chess :
    readWord chessDrawn (mode640x480.pixelPointer (pixelAt 6 6 (3, 1))) =
        0xFFE2A302 ∧
      readWord chessDrawn (mode640x480.pixelPointer (pixelAt 6 6 (2, 1))) =
        0xFF040505 := by
  have inMemory : MaskLoaded mode640x480 chessMemory 0x20000 chessFile :=
    ⟨loadBytes_storeBytes (by decide), by decide, .inl (by decide)⟩
  have insideX : (6 : BitVec 32).toNat + 4 ≤ 640 := by decide
  have insideY : (6 : BitVec 32).toNat + 2 ≤ 480 := by decide
  have drawn :=
    (scPutimgMasked_draws_convertImage mode640x480_is32Bit
      (by decide : 8 ∣ chessImage.width * chessImage.height) rfl inMemory
      insideX insideY (by decide : IsOpaque 0xFFE2A302)
      (by decide : IsOpaque 0xFF040505)).1
  exact
    ⟨drawn 3 (by decide) 1 (by decide), drawn 2 (by decide) 1 (by decide)⟩

end HobbyOS
