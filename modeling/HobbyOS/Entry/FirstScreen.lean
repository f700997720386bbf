import HobbyOS.Video.DrawCommands
import HobbyOS.Video.VbeInitialization

namespace HobbyOS

open Library

/-!
# The first screen

`entry` clears the screen, draws a picture or a message that there is none, and
lays a title, a frame and a rule over it.  All its colors are opaque, so what is
seen at a pixel is the last stroke that covers it.
-/

/-- `header_foreground` and `line_foreground`. -/
def lineForeground : BitVec 32 := 0xFFE2A302

/-- `text_backgound`. -/
def textBackground : BitVec 32 := 0xFF040505

/-- `"Hobby OS 0.2.0"`. -/
def titleString : List Byte :=
  [0x48, 0x6F, 0x62, 0x62, 0x79, 0x20, 0x4F, 0x53, 0x20, 0x30, 0x2E, 0x32,
    0x2E, 0x30]

/-- `"Could not find image file..."`. -/
def notFoundString : List Byte :=
  [0x43, 0x6F, 0x75, 0x6C, 0x64, 0x20, 0x6E, 0x6F, 0x74, 0x20, 0x66, 0x69,
    0x6E, 0x64, 0x20, 0x69, 0x6D, 0x61, 0x67, 0x65, 0x20, 0x66, 0x69, 0x6C,
    0x65, 0x2E, 0x2E, 0x2E]

/-- The calls of `entry` in front of its picture. -/
def callsInFront : List DrawCommand :=
  [.clear, .setForeground lineForeground, .setBackground textBackground,
    .clear]

/-- The call of `entry` for its picture, with the bits behind `filedata`. -/
def imageCall (width height : BitVec 32) (filedata : PtrT) : DrawCommand :=
  .putimgMasked 6 6 width height (filedata + 8) lineForeground textBackground

/-- The call of `entry` if there is no picture. -/
def notFoundCall : DrawCommand :=
  .print { x := 0, y := 1 } notFoundString

/-- The calls of `entry` behind its picture. -/
def callsBehind (mode : ModeInfoBlock) : List DrawCommand :=
  let right := mode.screenPixelWidth - 1
  [.print { x := 62, y := 22 } titleString,
    .box 0 0 right (mode.screenPixelHeight - 1) 2 lineForeground,
    .fill 0 60 right 61 lineForeground]

/-! ## What is to be seen -/

/-- The colors of the first screen. -/
def entryStyle (font : Int → CharacterT) : TextStyle where
  font := font
  foregroundColor := lineForeground
  backgroundColor := textBackground

/-- The frame and the rule. -/
def linesStroke (mode : ModeInfoBlock) : Stroke Pixel (BitVec 32) :=
  let right := mode.screenPixelWidth - 1
  solidStroke
    (fun pixel =>
      InFrame 0 0 right (mode.screenPixelHeight - 1) 2 pixel ∨
        InRectangle 0 60 right 61 pixel)
    lineForeground

/-- The picture, or the message that there is none. -/
def pictureStroke (font : Int → CharacterT) :
    Option Image → Stroke Pixel (BitVec 32)
  | some image => fun pixel =>
      if InImage 6 6 image.width image.height pixel then
        some
          (if image.alpha (pixel.x.toNat - 6) (pixel.y.toNat - 6) = 255 then
            lineForeground
          else
            textBackground)
      else
        none
  | none => textStroke (entryStyle font) { x := 0, y := 1 } notFoundString

/-- The first screen: the lines over the title over the picture. -/
def firstScreen
    (mode : ModeInfoBlock)
    (font : Int → CharacterT)
    (picture : Option Image)
    (pixel : Pixel) :
    BitVec 32 :=
  let title :=
    textStroke (entryStyle font) { x := 62, y := 22 } titleString
  ((linesStroke mode pixel).or
      ((title pixel).or (pictureStroke font picture pixel))).getD
    textBackground

/-- The picture or the message fits the screen. -/
def PictureFits (mode : ModeInfoBlock) : Option Image → Prop
  | some image =>
      6 + image.width ≤ mode.xResolution.toNat ∧
        6 + image.height ≤ mode.yResolution.toNat ∧
        8 ∣ image.width * image.height
  | none => 224 ≤ mode.xResolution.toNat

/-- The first screen fits the mode. -/
structure FirstScreenFits
    (mode : ModeInfoBlock)
    (picture : Option Image) :
    Prop where
  is32Bit : mode.Is32Bit
  limitFits : mode.LimitFits
  columns : 174 ≤ mode.xResolution.toNat
  rows : 62 ≤ mode.yResolution.toNat
  picture : PictureFits mode picture

/-- The call of `entry` for its picture or the message. -/
def pictureCall (filedata : PtrT) : Option Image → DrawCommand
  | some image =>
      imageCall (BitVec.ofNat 32 image.width) (BitVec.ofNat 32 image.height)
        filedata
  | none => notFoundCall

/-- The file of the picture, if there is one, is in the memory. -/
def PictureLoaded
    (mode : ModeInfoBlock)
    (memory : Memory)
    (filedata : PtrT) :
    Option Image → Prop
  | some image =>
      ∃ file,
        MaskFile image file ∧ MaskLoaded mode memory filedata file
  | none => True

/-! ## Opaque strokes -/

section Hiding

variable
  {style other : TextStyle}
  {color : BitVec 32}

/-- An opaque color hides what is below it. -/
theorem IsOpaque.hides (isOpaque : IsOpaque color) (below : BitVec 32) :
    pixelAfter color below = color :=
  if_pos isOpaque

/-- A rectangle of opaque colors. -/
theorem hiding_imageStroke
    {x0 y0 : BitVec 32}
    {width height : Nat}
    {colorOf : Nat → BitVec 32}
    (isOpaque : ∀ index, IsOpaque (colorOf index)) :
    Hiding pixelAfter (imageStroke x0 y0 width height colorOf) := by
  intro pixel color covered
  rw [imageStroke] at covered
  split at covered
  · obtain rfl := Option.some.inj covered
    exact (isOpaque _).hides
  · cases covered

/-- A character in opaque colors. -/
theorem hiding_glyphStroke
    (foreground : IsOpaque style.foregroundColor)
    (background : IsOpaque style.backgroundColor)
    (glyph : Glyph) :
    Hiding pixelAfter (glyphStroke style glyph) := by
  refine hiding_imageStroke fun index => ?_
  rw [glyphColor]
  split
  · exact foreground
  · exact background

/-- A text depends on the characters of the font that it prints. -/
theorem textStroke_congr
    {cell : Pixel}
    {string : List Byte}
    (foreground : style.foregroundColor = other.foregroundColor)
    (background : style.backgroundColor = other.backgroundColor)
    (same :
      ∀ c ∈ string, style.font (c.toInt - 1) = other.font (c.toInt - 1)) :
    textStroke style cell string = textStroke other cell string := by
  funext pixel
  rw [textStroke, textStroke]
  split
  next inside =>
    have column := inside.1
    have listed :
        (pixel.x.toNat - cell.x.toNat) / 8 < string.length := by
      omega
    dsimp only
    rw [glyphColor, glyphColor, List.getD_eq_getElem _ _ listed,
      same _ (List.getElem_mem listed), foreground, background]
  · rfl

end Hiding

/-! ## The strokes of the calls -/

section Calls

variable
  {mode : ModeInfoBlock}
  {picture : Option Image}
  {style : TextStyle}
  {memory : Memory}
  {filedata : PtrT}

/-- The one element of an option is the last one. -/
theorem getLast?_toList {α : Type} (element : Option α) :
    element.toList.getLast? = element := by
  cases element with
  | none =>
      rfl
  | some element =>
      rfl

/-- The last row and column of a screen that has room for the calls. -/
theorem FirstScreenFits.last (fits : FirstScreenFits mode picture) :
    (mode.screenPixelWidth - 1).toNat = mode.xResolution.toNat - 1 ∧
      (mode.screenPixelHeight - 1).toNat = mode.yResolution.toNat - 1 := by
  have columns := fits.columns
  have rows := fits.rows
  exact ⟨toNat_lastPixel (by omega), toNat_lastPixel (by omega)⟩

/-- The width and the height of the picture are words. -/
theorem FirstScreenFits.imageSize
    {image : Image}
    (fits : FirstScreenFits mode (some image)) :
    (BitVec.ofNat 32 image.width).toNat = image.width ∧
      (BitVec.ofNat 32 image.height).toNat = image.height := by
  obtain ⟨insideX, insideY, _⟩ := fits.picture
  have columns := mode.xResolution.isLt
  have rows := mode.yResolution.isLt
  rw [BitVec.toNat_ofNat, BitVec.toNat_ofNat]
  exact ⟨Nat.mod_eq_of_lt (by omega), Nat.mod_eq_of_lt (by omega)⟩

/-- The clearing in front fits. -/
theorem FirstScreenFits.fitsInFront (fits : FirstScreenFits mode picture) :
    ∀ command ∈ callsInFront, command.Fits mode := by
  have columns := fits.columns
  have rows := fits.rows
  have clear : DrawCommand.clear.Fits mode := ⟨by omega, by omega⟩
  simp only [callsInFront, List.forall_mem_cons]
  exact ⟨clear, trivial, trivial, clear, List.forall_mem_nil _⟩

/-- A string of the first screen is printed side by side. -/
theorem scPrintGlyphs_printable
    {cell : Pixel}
    {string : List Byte}
    (printable : string.all isprint = true)
    (columns : cell.x.toNat + 8 * string.length ≤ mode.xResolution.toNat)
    (rows : cell.y.toNat + 16 ≤ mode.yResolution.toNat) :
    scPrintGlyphs mode cell string = lineGlyphs cell string ∧
      (DrawCommand.print cell string).Fits mode := by
  have line :=
    scPrintGlyphs_line (List.all_eq_true.mp printable) columns (by omega)
  refine ⟨line, ?_⟩
  rw [DrawCommand.Fits, line]
  exact glyphOnScreen_of_mem_lineGlyphs columns rows

/-- The title is printed side by side. -/
theorem FirstScreenFits.title (fits : FirstScreenFits mode picture) :
    scPrintGlyphs mode { x := 62, y := 22 } titleString =
        lineGlyphs { x := 62, y := 22 } titleString ∧
      (DrawCommand.print { x := 62, y := 22 } titleString).Fits mode := by
  have columns := fits.columns
  have rows := fits.rows
  have x : (62 : BitVec 32).toNat = 62 := rfl
  have y : (22 : BitVec 32).toNat = 22 := rfl
  have length : titleString.length = 14 := rfl
  exact
    scPrintGlyphs_printable (by decide) (by dsimp only; omega)
      (by dsimp only; omega)

/-- The message is printed side by side. -/
theorem FirstScreenFits.message (fits : FirstScreenFits mode none) :
    scPrintGlyphs mode { x := 0, y := 1 } notFoundString =
        lineGlyphs { x := 0, y := 1 } notFoundString ∧
      notFoundCall.Fits mode := by
  have columns : 224 ≤ mode.xResolution.toNat := fits.picture
  have rows := fits.rows
  have x : (0 : BitVec 32).toNat = 0 := rfl
  have y : (1 : BitVec 32).toNat = 1 := rfl
  have length : notFoundString.length = 28 := rfl
  exact
    scPrintGlyphs_printable (by decide) (by dsimp only; omega)
      (by dsimp only; omega)

/-- The calls behind the picture fit. -/
theorem FirstScreenFits.fitsBehind (fits : FirstScreenFits mode picture) :
    ∀ command ∈ callsBehind mode, command.Fits mode := by
  obtain ⟨right, bottom⟩ := fits.last
  have columns := fits.columns
  have rows := fits.rows
  simp only [callsBehind, List.forall_mem_cons]
  refine ⟨fits.title.2, ⟨⟨?_, ?_⟩, fun _ => ⟨?_, ?_⟩⟩, ⟨?_, ?_⟩,
    List.forall_mem_nil _⟩
  · rw [right]
    omega
  · rw [bottom]
    omega
  · exact Nat.lt_of_lt_of_le (by decide : (1 : Nat) < 174) columns
  · exact Nat.lt_of_lt_of_le (by decide : (1 : Nat) < 62) rows
  · rw [right]
    omega
  · exact Nat.lt_of_lt_of_le (by decide : (61 : Nat) < 62) rows

/-- The bits of a loaded picture are beside the framebuffer. -/
theorem MaskLoaded.keepsApart
    {image : Image}
    {file : List Byte}
    (inMemory : MaskLoaded mode memory filedata file)
    (maskFile : MaskFile image file)
    (whole : 8 ∣ image.width * image.height) :
    mode.KeepsApart (filedata + 8)
      ((image.width * image.height + 7) / 8) := by
  have total := maskFile.total
  have fits := inMemory.fits
  have apart := inMemory.apart
  have eight : (8 : BitVec 32).toNat = 8 := rfl
  have start : (filedata + 8).toNat = (filedata.toNat + 8) % 2 ^ 32 := by
    rw [BitVec.toNat_add, eight]
  refine ⟨by omega, ?_⟩
  rw [ModeInfoBlock.framebufferEnd]
  omega

/-- The call for the picture fits. -/
theorem FirstScreenFits.fitsPicture
    (fits : FirstScreenFits mode picture)
    (loaded : PictureLoaded mode memory filedata picture) :
    (pictureCall filedata picture).Fits mode := by
  cases picture with
  | none =>
      exact fits.message.2
  | some image =>
      obtain ⟨file, maskFile, inMemory⟩ := loaded
      obtain ⟨insideX, insideY, whole⟩ := fits.picture
      obtain ⟨width, height⟩ := fits.imageSize
      rw [pictureCall, imageCall, DrawCommand.Fits, width, height]
      exact ⟨insideX, insideY, inMemory.keepsApart maskFile whole⟩

/-- The frame and the rule are painted in one color. -/
theorem FirstScreenFits.getLast?_lines
    (fits : FirstScreenFits mode picture)
    (pixel : Pixel) :
    ((boxStrokes 0 0 (mode.screenPixelWidth - 1) (mode.screenPixelHeight - 1)
            2 lineForeground ++
          [solidStroke (InRectangle 0 60 (mode.screenPixelWidth - 1) 61)
            lineForeground]).filterMap
        (· pixel)).getLast? =
      linesStroke mode pixel := by
  obtain ⟨right, bottom⟩ := fits.last
  have columns := fits.columns
  have rows := fits.rows
  have zero : (0 : BitVec 32).toNat = 0 := rfl
  have two : (2 : BitVec 32).toNat = 2 := rfl
  have frame :=
    @strips_iff_inFrame 0 0 (mode.screenPixelWidth - 1)
      (mode.screenPixelHeight - 1) 2 (by omega) (by omega) (by omega)
      (by omega) (by omega) pixel
  have isSome
      (covers : Pixel → Prop)
      [DecidablePred covers] :
      (solidStroke covers lineForeground pixel).isSome = true ↔
        covers pixel := by
    rw [solidStroke]
    split
    next here =>
      exact iff_of_true rfl here
    next outside =>
      exact iff_of_false Bool.false_ne_true outside
  rw [boxStrokes, if_neg (by decide)]
  rw [linesStroke]
  refine getLast?_filterMap_of_color ?_ ?_
  · have colored
        (covers : Pixel → Prop)
        [DecidablePred covers]
        (other : BitVec 32)
        (covered : solidStroke covers lineForeground pixel = some other) :
        other = lineForeground :=
      (Option.some.inj (Option.ite_none_right_eq_some.mp covered).2).symm
    simp only [List.cons_append, List.nil_append, List.forall_mem_cons]
    exact
      ⟨colored _, colored _, colored _, colored _, colored _,
        List.forall_mem_nil _⟩
  · simp only [List.cons_append, List.nil_append, List.exists_mem_cons_iff,
      List.not_mem_nil, false_and, exists_false, or_false, isSome]
    rw [← frame, InStrips, or_assoc, or_assoc, or_assoc]

/-- The bits of a loaded picture, by the numbers of its pixels. -/
theorem MaskLoaded.bitAt_eq
    {image : Image}
    {file : List Byte}
    (inMemory : MaskLoaded mode memory filedata file)
    (maskFile : MaskFile image file)
    (whole : 8 ∣ image.width * image.height)
    {index : Nat}
    (inside : index < image.width * image.height) :
    bitAt memory (filedata + 8) index =
      image.bit (index % image.width, index / image.width) := by
  have listed : index < image.pixels.length := by
    rw [image.length_pixels]
    exact inside
  have pixels :
      image.pixels =
        (List.range (image.width * image.height)).map fun index =>
          (index % image.width, index / image.width) :=
    flatMap_range_map_range (fun x y => (x, y)) image.width image.height
  rw [inMemory.bits maskFile whole listed, List.getElem_of_eq pixels listed,
    List.getElem_map, List.getElem_range]

/-- The call for the picture paints the picture. -/
theorem FirstScreenFits.getLast?_picture
    (fits : FirstScreenFits mode picture)
    (loaded : PictureLoaded mode memory filedata picture)
    (font : Int → CharacterT)
    (pixel : Pixel) :
    (((pictureCall filedata picture).strokes mode (entryStyle font)
          memory).filterMap
        (· pixel)).getLast? =
      pictureStroke font picture pixel := by
  cases picture with
  | none =>
      rw [pictureCall, notFoundCall, DrawCommand.strokes, fits.message.1,
        filterMap_lineGlyphs _ (by decide)]
      exact getLast?_toList _
  | some image =>
      obtain ⟨file, maskFile, inMemory⟩ := loaded
      obtain ⟨insideX, insideY, whole⟩ := fits.picture
      obtain ⟨width, height⟩ := fits.imageSize
      have six : (6 : BitVec 32).toNat = 6 := rfl
      have painted :
          imageStroke 6 6 image.width image.height
              (maskedColor memory (filedata + 8) lineForeground
                textBackground)
              pixel =
            pictureStroke font (some image) pixel := by
        rw [imageStroke, pictureStroke]
        refine if_ctx_congr Iff.rfl (fun inside => ?_) fun _ => rfl
        obtain ⟨listed, _⟩ := imagePlace_imageIndex insideX insideY inside
        have right := inside.1
        have column : pixel.x.toNat - 6 < image.width := by
          omega
        rw [maskedColor, inMemory.bitAt_eq maskFile whole listed, imageIndex,
          six, Nat.mul_add_mod', Nat.mod_eq_of_lt column, Nat.mul_comm,
          Nat.mul_add_div (by omega), Nat.div_eq_of_lt column, Nat.add_zero,
          Image.bit]
        simp only [decide_eq_true_eq]
      rw [pictureCall, imageCall, DrawCommand.strokes, width, height,
        List.filterMap_cons, painted]
      cases pictureStroke font (some image) pixel with
      | none =>
          rfl
      | some color =>
          rfl

/-- The strokes of the calls behind the clearing. -/
theorem allStrokes_picture
    (mode : ModeInfoBlock)
    (memory : Memory)
    (filedata : PtrT)
    (picture : Option Image)
    (style : TextStyle) :
    allStrokes mode memory style
        (pictureCall filedata picture :: callsBehind mode) =
      (pictureCall filedata picture).strokes mode style memory ++
        ((scPrintGlyphs mode { x := 62, y := 22 } titleString).map
            (glyphStroke style) ++
          (boxStrokes 0 0 (mode.screenPixelWidth - 1)
              (mode.screenPixelHeight - 1) 2 lineForeground ++
            [solidStroke (InRectangle 0 60 (mode.screenPixelWidth - 1) 61)
              lineForeground])) := by
  have restyled : (pictureCall filedata picture).restyle style = style := by
    cases picture with
    | none =>
        rfl
    | some image =>
        rfl
  rw [allStrokes, restyled]
  rfl

/-- All strokes behind the clearing are opaque. -/
theorem hiding_allStrokes_picture (font : Int → CharacterT) :
    ∀ stroke ∈
        allStrokes mode memory (entryStyle font)
          (pictureCall filedata picture :: callsBehind mode),
      Hiding pixelAfter stroke := by
  have line : IsOpaque lineForeground := by
    decide
  have text : IsOpaque textBackground := by
    decide
  have glyphs (glyphs : List Glyph) :
      ∀ stroke ∈ glyphs.map (glyphStroke (entryStyle font)),
        Hiding pixelAfter stroke :=
    List.forall_mem_map.mpr fun glyph _ => hiding_glyphStroke line text glyph
  have solid (covers : Pixel → Prop) [DecidablePred covers] :
      Hiding pixelAfter (solidStroke covers lineForeground) :=
    hiding_solidStroke line.hides
  rw [allStrokes_picture, List.forall_mem_append, List.forall_mem_append,
    List.forall_mem_append, List.forall_mem_singleton]
  refine ⟨?_, glyphs _, ?_, solid _⟩
  · cases picture with
    | none =>
        exact glyphs _
    | some image =>
        refine
          List.forall_mem_singleton.mpr (hiding_imageStroke fun index => ?_)
        rw [maskedColor]
        split
        · exact line
        · exact text
  · rw [boxStrokes, if_neg (by decide)]
    simp only [List.forall_mem_cons]
    exact ⟨solid _, solid _, solid _, solid _, List.forall_mem_nil _⟩

/-- On a cleared screen the calls paint the first screen. -/
theorem FirstScreenFits.painted
    (fits : FirstScreenFits mode picture)
    (loaded : PictureLoaded mode memory filedata picture)
    (font : Int → CharacterT)
    {below : Pixel → BitVec 32}
    {pixel : Pixel}
    (cleared : below pixel = textBackground) :
    paintAll pixelAfter below
        (allStrokes mode memory (entryStyle font)
          (pictureCall filedata picture :: callsBehind mode))
        pixel =
      firstScreen mode font picture pixel := by
  rw [paintAll_of_hiding (hiding_allStrokes_picture font), allStrokes_picture,
    List.filterMap_append, List.getLast?_append, List.filterMap_append,
    List.getLast?_append, fits.getLast?_lines,
    fits.getLast?_picture loaded, fits.title.1,
    filterMap_lineGlyphs _ (by decide), getLast?_toList, cleared,
    Option.or_assoc]
  rfl

end Calls

/-! ## The font in its file -/

/-- A font as it is in its file. -/
def fileFont (contents : List Byte) (index : Int) : CharacterT where
  lines :=
    Vector.ofFn fun line => bytesOf contents (16 * index.toNat + line)

section Fonts

variable
  {memory : Memory}
  {region : MemoryRegion}
  {contents : List Byte}
  (held : Holds memory region (bytesOf contents))
  (size : region.size = sizeofFont)

include held size

/-- The characters of a loaded font are those of its file. -/
theorem fontAt_eq_fileFont
    {index : Int}
    (inside : 0 ≤ index ∧ index < 128) :
    fontAt memory region.start index = fileFont contents index := by
  obtain ⟨number, rfl⟩ := Int.eq_ofNat_of_zero_le inside.1
  have total : sizeofFont = 128 * 16 := rfl
  rw [fontAt, fileFont]
  refine congrArg CharacterT.mk (congrArg Vector.ofFn (funext fun line => ?_))
  have below := line.isLt
  have offset : BitVec.ofInt 32 (16 * number) = BitVec.ofNat 32 (16 * number) :=
    BitVec.ofInt_natCast 32 (16 * number)
  rw [offset, BitVec.add_assoc, ← BitVec.ofNat_add]
  exact held _ (by omega)

omit held size in
/-- Printable characters have a place in the font. -/
theorem fontIndex_of_isprint
    {c : Byte}
    (printable : isprint c = true) :
    0 ≤ c.toInt - 1 ∧ c.toInt - 1 < 128 := by
  rw [isprint, Bool.and_eq_true, BitVec.slt_iff_toInt_lt,
    BitVec.slt_iff_toInt_lt] at printable
  have low : (0x1F : Byte).toInt = 31 := rfl
  have high : (0x7F : Byte).toInt = 127 := rfl
  omega

/-- A loaded font looks like its file on the first screen. -/
theorem firstScreen_fontAt
    (mode : ModeInfoBlock)
    (picture : Option Image) :
    firstScreen mode (fontAt memory region.start) picture =
      firstScreen mode (fileFont contents) picture := by
  have text
      {cell : Pixel}
      {string : List Byte}
      (printable : string.all isprint = true) :
      textStroke (entryStyle (fontAt memory region.start)) cell string =
        textStroke (entryStyle (fileFont contents)) cell string := by
    refine
      textStroke_congr (show lineForeground = lineForeground from rfl)
        (show textBackground = textBackground from rfl) fun c member => ?_
    have inside :=
      fontIndex_of_isprint (List.all_eq_true.mp printable c member)
    exact fontAt_eq_fileFont held size inside
  have same :
      pictureStroke (fontAt memory region.start) picture =
        pictureStroke (fileFont contents) picture := by
    cases picture with
    | none =>
        exact text (by decide)
    | some image =>
        rw [pictureStroke, pictureStroke]
  have title :=
    @text { x := 62, y := 22 } titleString (by decide)
  funext pixel
  rw [firstScreen, firstScreen, same, title]

end Fonts

end HobbyOS
