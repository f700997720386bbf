import HobbyOS.Video.PlacedImages

namespace HobbyOS

open Library

/-!
# Characters as strokes

`sc_putch` goes through the pixels of a cell and through the bits of the font,
so that a character in a cell on the screen is one stroke.
-/

/-- The color of a pixel of `sc_putch`. -/
def maskColor (style : TextStyle) (line r : Byte) : BitVec 32 :=
  if line &&& r = 0 then style.backgroundColor else style.foregroundColor

/-- The color of a pixel of a character, the leftmost bit of a row first. -/
def glyphColor (style : TextStyle) (chr : Byte) (index : Nat) : BitVec 32 :=
  let line := (style.font (chr.toInt - 1)).lines.toList.getD (index / 8) 0
  if line.getLsbD (7 - index % 8) then
    style.foregroundColor
  else
    style.backgroundColor

/-- A character in its cell. -/
def glyphStroke
    (style : TextStyle)
    (glyph : Glyph) :
    Stroke Pixel (BitVec 32) :=
  imageStroke glyph.cell.x glyph.cell.y 8 16 (glyphColor style glyph.chr)

/-- The cell of a character is on the screen. -/
def GlyphOnScreen (mode : ModeInfoBlock) (glyph : Glyph) : Prop :=
  glyph.cell.x.toNat + 8 ≤ mode.xResolution.toNat ∧
    glyph.cell.y.toNat + 16 ≤ mode.yResolution.toNat

instance (mode : ModeInfoBlock) (glyph : Glyph) :
    Decidable (GlyphOnScreen mode glyph) :=
  inferInstanceAs (Decidable (_ ∧ _))

/-- The limit of `sc_putch` lies in the address space. -/
def ModeInfoBlock.LimitFits (mode : ModeInfoBlock) : Prop :=
  mode.framebufferEnd + 32 * mode.xResolution.toNat < 2 ^ 32

instance (mode : ModeInfoBlock) : Decidable mode.LimitFits :=
  inferInstanceAs (Decidable (_ < _))

section Rows

variable
  {mode : ModeInfoBlock}
  {style : TextStyle}
  {line : Byte}
  {cbuff : PtrT}

/-- A row in front of the limit is not cut off. -/
theorem putchRow_eq
    {limit : PtrT}
    {masks : List Byte}
    (below : cbuff.toNat + 4 * masks.length < limit.toNat) :
    putchRow limit style line masks cbuff =
      ((List.range masks.length).map fun column =>
          (cbuff + BitVec.ofNat 32 (4 * column),
            maskColor style line (masks.getD column 0)),
        some (cbuff + BitVec.ofNat 32 (4 * masks.length))) := by
  have bounded := limit.isLt
  induction masks generalizing cbuff with
  | nil =>
      rw [putchRow, List.length_nil, Nat.mul_zero, BitVec.add_zero]
      rfl
  | cons r masks inductionHypothesis =>
      rw [List.length_cons] at below
      have next : (cbuff + 4).toNat = cbuff.toNat + 4 :=
        toNat_add_ofNat 4 (by omega)
      have goesOn : ¬limit ≤ cbuff + 4 := by
        rw [BitVec.le_def, next]
        omega
      have shift (column : Nat) :
          cbuff + 4 + BitVec.ofNat 32 (4 * column) =
            cbuff + BitVec.ofNat 32 (4 * (column + 1)) := by
        rw [Nat.mul_succ, Nat.add_comm, BitVec.ofNat_add, BitVec.add_assoc]
        rfl
      rw [putchRow]
      dsimp only
      rw [if_neg goesOn, inductionHypothesis (by omega), List.length_cons,
        List.range_succ_eq_map, List.map_cons, List.map_map, shift,
        Nat.mul_zero, BitVec.add_zero]
      simp only [shift]
      rfl

/-- The rows of a character in front of the limit are not cut off. -/
theorem putchRows_eq
    (wide : 8 ≤ mode.pitch)
    {lines : List Byte}
    (below :
      cbuff.toNat + 4 * (lines.length * mode.pitch) <
        mode.screenLimit.toNat) :
    putchRows mode style lines cbuff =
      (List.range (8 * lines.length)).map fun index =>
        (cbuff + BitVec.ofNat 32 (4 * (index / 8 * mode.pitch + index % 8)),
          maskColor style (lines.getD (index / 8) 0)
            (putchMasks.getD (index % 8) 0)) := by
  have bounded := mode.screenLimit.isLt
  have eight : putchMasks.length = 8 := rfl
  induction lines generalizing cbuff with
  | nil =>
      rfl
  | cons line lines inductionHypothesis =>
      rw [List.length_cons, Nat.succ_mul lines.length] at below
      have next := @toNat_nextRow mode cbuff
      rw [Nat.mod_eq_of_lt (by omega)] at next
      rw [putchRows_cons, putchRow_eq (by omega)]
      dsimp only
      have goesOn :
          ¬mode.screenLimit ≤
            cbuff + BitVec.ofNat 32 (4 * putchMasks.length) +
              4 * (mode.bytesPerScanline.setWidth 32 / 4 - 8) := by
        rw [BitVec.le_def, next]
        omega
      have start :
          cbuff + BitVec.ofNat 32 (4 * putchMasks.length) +
              4 * (mode.bytesPerScanline.setWidth 32 / 4 - 8) =
            cbuff + BitVec.ofNat 32 (4 * mode.pitch) := by
        refine BitVec.eq_of_toNat_eq ?_
        rw [next, toNat_add_ofNat _ (by omega)]
      rw [if_neg goesOn, inductionHypothesis (by omega), start, eight,
        List.length_cons, Nat.mul_succ, Nat.add_comm (8 * _), List.range_add,
        List.map_append, List.map_map]
      refine congrArg₂ _ (List.map_congr_left fun column inside => ?_)
        (List.map_congr_left fun index _ => ?_)
      · rw [List.mem_range] at inside
        rw [Nat.div_eq_of_lt inside, Nat.mod_eq_of_lt inside, Nat.zero_mul,
          Nat.zero_add]
        rfl
      · have row : (8 + index) / 8 = index / 8 + 1 := by
          omega
        have column : (8 + index) % 8 = index % 8 := by
          omega
        have offset :
            4 * ((index / 8 + 1) * mode.pitch + index % 8) =
              4 * mode.pitch + 4 * (index / 8 * mode.pitch + index % 8) := by
          rw [Nat.succ_mul (index / 8)]
          omega
        rw [Function.comp_apply, row, column, offset, BitVec.ofNat_add,
          BitVec.add_assoc]
        rfl

end Rows

/-! ## Characters -/

/-- The masks of a row select its bits from the left to the right. -/
theorem maskColor_putchMasks
    (style : TextStyle)
    (line : Byte)
    {column : Nat}
    (inside : column < 8) :
    maskColor style line (putchMasks.getD column 0) =
      if line.getLsbD (7 - column) then
        style.foregroundColor
      else
        style.backgroundColor := by
  have masks :
      ∀ column < 8, putchMasks.getD column 0 = BitVec.twoPow 8 (7 - column) :=
    by decide
  have some : BitVec.twoPow 8 (7 - column) ≠ 0 := fun zero => by
    have width := twoPow_eq_zero_iff.mp zero
    omega
  rw [maskColor, masks column inside, BitVec.and_twoPow]
  cases line.getLsbD (7 - column) with
  | false =>
      rfl
  | true =>
      rw [if_pos rfl, if_neg some]
      rfl

section Characters

variable
  {mode : ModeInfoBlock}
  (style : TextStyle)
  {glyph : Glyph}
  (is32Bit : mode.Is32Bit)
  (limitFits : mode.LimitFits)
  (onScreen : GlyphOnScreen mode glyph)

include is32Bit limitFits onScreen

/-- `sc_putch` sets the pixels of its cell in their order. -/
theorem scPutchWrites_eq :
    scPutchWrites mode style glyph =
      (imageMarks glyph.cell.x glyph.cell.y 8 16
          (glyphColor style glyph.chr)).map fun mark =>
        (mode.pixelPointer mark.1, mark.2) := by
  have wide := is32Bit.wide
  have pitch := is32Bit.four_mul_pitch
  have size := is32Bit.size_eq
  have limit := is32Bit.toNat_screenLimit
  have columns := mode.xResolution.isLt
  have corner : mode.OnScreen glyph.cell :=
    ⟨by have := onScreen.1; omega, by have := onScreen.2; omega⟩
  have cell := is32Bit.toNat_cellPointer corner
  have below :=
    Nat.mul_le_mul_right mode.pitch onScreen.2
  rw [Nat.add_mul] at below
  have left := onScreen.1
  have fits := limitFits
  rw [ModeInfoBlock.LimitFits, ModeInfoBlock.framebufferEnd] at fits
  rw [Nat.mod_eq_of_lt fits] at limit
  have sixteen :
      (style.font glyph.fontIndex).lines.toList.length = 16 :=
    Vector.length_toList
  rw [scPutchWrites, putchRows_eq (by omega) (by rw [sixteen]; omega),
    imageMarks, List.map_map, sixteen]
  refine List.map_congr_left fun index inside => ?_
  rw [List.mem_range] at inside
  obtain ⟨x, y, ⟨column, row⟩, _⟩ :=
    @toNat_imagePlace mode _ _ 8 16 onScreen.1 onScreen.2 index inside
  have pixel :
      mode.OnScreen (imagePlace glyph.cell.x glyph.cell.y 8 index) :=
    ⟨Nat.lt_of_lt_of_le column.2 onScreen.1,
      Nat.lt_of_lt_of_le row.2 onScreen.2⟩
  have rows : index / 8 * mode.pitch ≤ 15 * mode.pitch :=
    Nat.mul_le_mul_right _ (by omega)
  refine Prod.ext ?_ ?_
  · refine BitVec.eq_of_toNat_eq ?_
    have target := is32Bit.toNat_pixelPointer pixel
    rw [x, y, ← pitch, Nat.mul_left_comm, Nat.add_mul] at target
    rw [Function.comp_apply, target, toNat_add_ofNat _ (by omega), cell]
    omega
  · exact maskColor_putchMasks style _ (Nat.mod_lt _ (by decide))

/-- `sc_putch` is one stroke. -/
theorem draws_scPutch (memory : Memory) :
    Draws mode [glyphStroke style glyph] memory
      (scPutch mode style memory glyph) := by
  rw [scPutch, scPutchWrites_eq style is32Bit limitFits onScreen,
    List.foldl_map]
  exact draws_imageMarks onScreen.1 onScreen.2 is32Bit _ memory

end Characters

/-- A text whose cells are on the screen is a stroke for each character. -/
theorem draws_glyphs
    {mode : ModeInfoBlock}
    (style : TextStyle)
    (is32Bit : mode.Is32Bit)
    (limitFits : mode.LimitFits)
    {glyphs : List Glyph}
    (onScreen : ∀ glyph ∈ glyphs, GlyphOnScreen mode glyph)
    (memory : Memory) :
    Draws mode (glyphs.map (glyphStroke style)) memory
      (glyphs.foldl (scPutch mode style) memory) := by
  induction glyphs generalizing memory with
  | nil =>
      exact Draws.refl memory
  | cons glyph glyphs inductionHypothesis =>
      rw [List.forall_mem_cons] at onScreen
      exact
        (draws_scPutch style is32Bit limitFits onScreen.1 memory).trans
          (inductionHypothesis onScreen.2 _)

/-! ## Lines of text -/

/-- The characters of a string in cells side by side. -/
def lineGlyphs : Pixel → List Byte → List Glyph
  | _, [] => []
  | cell, c :: string =>
      { cell, chr := c } :: lineGlyphs { cell with x := cell.x + 8 } string

/-- The characters of a string in cells side by side, as one stroke. -/
def textStroke
    (style : TextStyle)
    (cell : Pixel)
    (string : List Byte) :
    Stroke Pixel (BitVec 32) :=
  fun pixel =>
    if InImage cell.x cell.y (8 * string.length) 16 pixel then
      let column := pixel.x.toNat - cell.x.toNat
      let row := pixel.y.toNat - cell.y.toNat
      some
        (glyphColor style (string.getD (column / 8) 0) (row * 8 + column % 8))
    else
      none

section Lines

variable
  {mode : ModeInfoBlock}
  {cell : Pixel}
  {string : List Byte}

/-- A character that moves the cursor on is printed as it is. -/
theorem ne_of_isprint
    {c : Byte}
    (printable : isprint c = true) :
    c ≠ 0xA ∧ c ≠ 0xD := by
  constructor
  · rintro rfl
    exact absurd printable (by decide)
  · rintro rfl
    exact absurd printable (by decide)

/-- A string that fits its line is printed side by side. -/
theorem scPrintGlyphs_line
    (printable : ∀ c ∈ string, isprint c = true)
    (fits : cell.x.toNat + 8 * string.length ≤ mode.xResolution.toNat)
    (row : cell.y.toNat < mode.yResolution.toNat) :
    scPrintGlyphs mode cell string = lineGlyphs cell string := by
  have columns := mode.xResolution.isLt
  have rows := mode.yResolution.isLt
  have width : mode.screenPixelWidth.toNat = mode.xResolution.toNat := by
    rw [ModeInfoBlock.screenPixelWidth, BitVec.toNat_setWidth]
    omega
  have height : mode.screenPixelHeight.toNat = mode.yResolution.toNat := by
    rw [ModeInfoBlock.screenPixelHeight, BitVec.toNat_setWidth]
    omega
  induction string generalizing cell with
  | nil =>
      rfl
  | cons c string inductionHypothesis =>
      rw [List.forall_mem_cons] at printable
      rw [List.length_cons] at fits
      obtain ⟨noLineFeed, noReturn⟩ := ne_of_isprint printable.1
      rw [scPrintGlyphs, if_neg noLineFeed, if_neg noReturn,
        if_pos printable.1, lineGlyphs]
      refine congrArg (List.cons _) ?_
      cases string with
      | nil =>
          dsimp only
          split
          · rfl
          · rfl
      | cons next string =>
          rw [List.length_cons] at fits
          have moved : (cell.x + 8).toNat = cell.x.toNat + 8 :=
            toNat_add_ofNat 8 (by omega)
          have stays :
              wrapLine mode { cell with x := cell.x + 8 } =
                { cell with x := cell.x + 8 } := by
            rw [wrapLine, if_neg]
            rw [BitVec.le_def, width, moved]
            omega
          have above : ¬mode.screenPixelHeight ≤ cell.y := by
            rw [BitVec.le_def, height]
            omega
          rw [stays]
          dsimp only
          rw [if_neg above]
          refine inductionHypothesis printable.2 ?_ row
          rw [moved, List.length_cons]
          omega

/-- The cells of a line are on the screen. -/
theorem glyphOnScreen_of_mem_lineGlyphs
    (fits : cell.x.toNat + 8 * string.length ≤ mode.xResolution.toNat)
    (rows : cell.y.toNat + 16 ≤ mode.yResolution.toNat) :
    ∀ glyph ∈ lineGlyphs cell string, GlyphOnScreen mode glyph := by
  have columns := mode.xResolution.isLt
  induction string generalizing cell with
  | nil =>
      exact fun glyph member => (List.not_mem_nil member).elim
  | cons c string inductionHypothesis =>
      rw [List.length_cons] at fits
      rw [lineGlyphs, List.forall_mem_cons]
      refine ⟨⟨by dsimp only; omega, rows⟩, ?_⟩
      cases string with
      | nil =>
          exact fun glyph member => (List.not_mem_nil member).elim
      | cons next string =>
          refine inductionHypothesis ?_ rows
          have moved : (cell.x + 8).toNat = cell.x.toNat + 8 :=
            toNat_add_ofNat 8 (by omega)
          rw [moved]
          omega

/-- A pixel of a line is a pixel of its first character or of the others. -/
theorem textStroke_cons
    (style : TextStyle)
    {c : Byte}
    (fits : cell.x.toNat + 8 * (string.length + 1) < 2 ^ 32)
    (pixel : Pixel) :
    textStroke style cell (c :: string) pixel =
        (glyphStroke style { cell, chr := c } pixel).or
          (textStroke style { cell with x := cell.x + 8 } string pixel) ∧
      (glyphStroke style { cell, chr := c } pixel = none ∨
        textStroke style { cell with x := cell.x + 8 } string pixel =
          none) := by
  have moved : (cell.x + 8).toNat = cell.x.toNat + 8 :=
    toNat_add_ofNat 8 (by omega)
  rw [textStroke, textStroke, glyphStroke, imageStroke, imageIndex]
  dsimp only
  rw [moved, List.length_cons]
  by_cases here : pixel.x.toNat < cell.x.toNat + 8
  · have behind :
        ¬InImage (cell.x + 8) cell.y (8 * string.length) 16 pixel := by
      rw [InImage, moved]
      omega
    have first : (pixel.x.toNat - cell.x.toNat) / 8 = 0 := by
      omega
    have column :
        (pixel.x.toNat - cell.x.toNat) % 8 =
          pixel.x.toNat - cell.x.toNat := by
      omega
    rw [if_neg behind, Option.or_none, first, column]
    refine ⟨if_congr ?_ rfl rfl, .inr rfl⟩
    rw [InImage, InImage]
    omega
  · have outside : ¬InImage cell.x cell.y 8 16 pixel := by
      rw [InImage]
      omega
    rw [if_neg outside, Option.none_or]
    refine ⟨?_, .inl rfl⟩
    have later :
        (pixel.x.toNat - cell.x.toNat) / 8 =
          (pixel.x.toNat - (cell.x.toNat + 8)) / 8 + 1 := by
      omega
    have column :
        (pixel.x.toNat - cell.x.toNat) % 8 =
          (pixel.x.toNat - (cell.x.toNat + 8)) % 8 := by
      omega
    rw [later, column]
    refine if_congr ?_ rfl rfl
    rw [InImage, InImage, moved]
    omega

/-- A pixel of a line has the color of one character. -/
theorem filterMap_lineGlyphs
    (style : TextStyle)
    (fits : cell.x.toNat + 8 * string.length < 2 ^ 32)
    (pixel : Pixel) :
    ((lineGlyphs cell string).map (glyphStroke style)).filterMap (· pixel) =
      (textStroke style cell string pixel).toList := by
  induction string generalizing cell with
  | nil =>
      have nothing : ¬InImage cell.x cell.y (8 * 0) 16 pixel := by
        rw [InImage]
        omega
      rw [textStroke, List.length_nil, if_neg nothing]
      rfl
  | cons c string inductionHypothesis =>
      rw [List.length_cons] at fits
      have moved : (cell.x + 8).toNat = cell.x.toNat + 8 :=
        toNat_add_ofNat 8 (by omega)
      obtain ⟨both, one⟩ := @textStroke_cons cell string style c fits pixel
      rw [lineGlyphs, List.map_cons, List.filterMap_cons,
        inductionHypothesis (by rw [moved]; omega), both]
      rcases one with none | none
      · rw [none, Option.none_or]
      · rw [none, Option.or_none]
        cases glyphStroke style { cell, chr := c } pixel with
        | none =>
            rfl
        | some color =>
            rfl

end Lines

end HobbyOS
