import HobbyOS.Library.TextGrid
import HobbyOS.Video.Screen

namespace HobbyOS

open Library

/-!
# Text

`sc_putch`, `sc_print`, `sc_print_byte` and `sc_print_hex` of `vbe_driver.c`.
Which characters are drawn, and where, does not depend on the memory, so the
printing functions yield lists of glyphs, and drawing puts one after the other.
-/

/-- `Character_t`, one byte for each row. -/
structure CharacterT where
  lines : Vector Byte 16

/-- The static variables that `sc_putch` reads, beside the mode. -/
structure TextStyle where
  font : Int → CharacterT
  foregroundColor : BitVec 32
  backgroundColor : BitVec 32

/-- `(uint32_t*)PhysicalBasePointer + SCREEN_BUFFER_SIZE`. -/
def ModeInfoBlock.screenLimit (mode : ModeInfoBlock) : PtrT :=
  mode.physicalBasePointer + 4 * mode.screenBufferSize

/-- The values of `r` in a row of `sc_putch`. -/
def putchMasks : List Byte :=
  [0x80, 0x40, 0x20, 0x10, 0x08, 0x04, 0x02, 0x01]

/--
The calls of `sc_setpixel` in a row of `sc_putch`, and where `cbuff` points
behind it unless the function has returned.
-/
def putchRow
    (limit : PtrT)
    (style : TextStyle)
    (line : Byte) :
    List Byte → PtrT → List (PtrT × BitVec 32) × Option PtrT
  | [], cbuff => ([], some cbuff)
  | r :: masks, cbuff =>
      let color :=
        if line &&& r = 0 then
          style.backgroundColor
        else
          style.foregroundColor
      let cbuffNext := cbuff + 4
      if limit ≤ cbuffNext then
        ([(cbuff, color)], none)
      else
        let behind := putchRow limit style line masks cbuffNext
        ((cbuff, color) :: behind.1, behind.2)

/-- The calls of `sc_setpixel` in the rows of `sc_putch`. -/
def putchRows
    (mode : ModeInfoBlock)
    (style : TextStyle) :
    List Byte → PtrT → List (PtrT × BitVec 32)
  | [], _ => []
  | line :: lines, cbuff =>
      match putchRow mode.screenLimit style line putchMasks cbuff with
      | (writes, none) => writes
      | (writes, some cbuff) =>
          let cbuff := cbuff + 4 * (mode.bytesPerScanline.setWidth 32 / 4 - 8)
          if mode.screenLimit ≤ cbuff then
            writes
          else
            writes ++ putchRows mode style lines cbuff

/-- `PhysicalBasePointer + x + BytesPerScanline*y/4`, a pointer to words. -/
def ModeInfoBlock.cellPointer (mode : ModeInfoBlock) (cell : Pixel) : PtrT :=
  mode.physicalBasePointer + 4 * cell.x +
    4 * (mode.bytesPerScanline.setWidth 32 * cell.y / 4)

/-- A character and the pixel at its upper left corner. -/
structure Glyph where
  cell : Pixel
  chr : Byte
  deriving DecidableEq

/-- `(int)chr-1`, the index into `Font`. -/
def Glyph.fontIndex (glyph : Glyph) : Int :=
  glyph.chr.toInt - 1

/-- The calls of `sc_setpixel` in `sc_putch`, in order. -/
def scPutchWrites
    (mode : ModeInfoBlock)
    (style : TextStyle)
    (glyph : Glyph) :
    List (PtrT × BitVec 32) :=
  putchRows mode style (style.font glyph.fontIndex).lines.toList
    (mode.cellPointer glyph.cell)

/-- `sc_putch`. -/
def scPutch
    (mode : ModeInfoBlock)
    (style : TextStyle)
    (memory : Memory)
    (glyph : Glyph) :
    Memory :=
  (scPutchWrites mode style glyph).foldl
    (fun memory write => scSetpixel memory write.1 write.2) memory

/-- `isprint` of a `char`. -/
def isprint (c : Byte) : Bool :=
  (0x1F : Byte).slt c && c.slt 0x7F

/-- `if(x >= SCREEN_PIXEL_WIDTH) { x = 0; y+=16; }`. -/
def wrapLine (mode : ModeInfoBlock) (cell : Pixel) : Pixel :=
  if mode.screenPixelWidth ≤ cell.x then
    { x := 0, y := cell.y + 16 }
  else
    cell

/-- The calls of `sc_putch` in `sc_print`, in order. -/
def scPrintGlyphs (mode : ModeInfoBlock) : Pixel → List Byte → List Glyph
  | _, [] => []
  | cell, c :: string =>
      if c = 0xA then
        let cell := { cell with y := cell.y + 16 }
        if mode.screenPixelHeight ≤ cell.y then
          []
        else
          scPrintGlyphs mode cell string
      else if c = 0xD then
        scPrintGlyphs mode { cell with x := 0 } string
      else
        { cell, chr := c } ::
          if isprint c then
            let cell := wrapLine mode { cell with x := cell.x + 8 }
            if mode.screenPixelHeight ≤ cell.y then
              []
            else
              scPrintGlyphs mode cell string
          else
            scPrintGlyphs mode cell string

/-- `sc_print`. -/
def scPrint
    (mode : ModeInfoBlock)
    (style : TextStyle)
    (memory : Memory)
    (cell : Pixel)
    (string : List Byte) :
    Memory :=
  (scPrintGlyphs mode cell string).foldl (scPutch mode style) memory

/-- `hextoasc`. -/
def hextoasc : Vector Byte 16 :=
  #v[0x30, 0x31, 0x32, 0x33, 0x34, 0x35, 0x36, 0x37,
    0x38, 0x39, 0x41, 0x42, 0x43, 0x44, 0x45, 0x46]

/-- The calls of `sc_putch` in `sc_print_byte`, in order. -/
def scPrintByteGlyphs
    (mode : ModeInfoBlock)
    (cell : Pixel)
    (b : Byte) :
    List Glyph :=
  { cell, chr := hextoasc.getD ((b >>> 4) &&& 0xF).toNat 0 } ::
    let cell := wrapLine mode { cell with x := cell.x + 8 }
    if mode.screenPixelHeight ≤ cell.y then
      []
    else
      [{ cell, chr := hextoasc.getD (b &&& 0xF).toNat 0 }]

/-- The calls of `sc_putch` in `sc_print_hex`, in order. -/
def scPrintHexGlyphs (mode : ModeInfoBlock) : Pixel → List Byte → List Glyph
  | _, [] => []
  | cell, b :: bytes =>
      scPrintByteGlyphs mode cell b ++
        let cell := wrapLine mode { cell with x := cell.x + 16 }
        if mode.screenPixelHeight ≤ cell.y then
          []
        else
          { cell, chr := 0x20 } ::
            let cell := wrapLine mode { cell with x := cell.x + 8 }
            if mode.screenPixelHeight ≤ cell.y then
              []
            else
              scPrintHexGlyphs mode cell bytes

/-- `sc_print_hex`. -/
def scPrintHex
    (mode : ModeInfoBlock)
    (style : TextStyle)
    (memory : Memory)
    (cell : Pixel)
    (bytes : List Byte) :
    Memory :=
  (scPrintHexGlyphs mode cell bytes).foldl (scPutch mode style) memory

/-! ## The layout of text -/

/-- The screen as a page of characters. -/
def ModeInfoBlock.textGrid (mode : ModeInfoBlock) : TextGrid where
  width := mode.xResolution.toNat
  height := mode.yResolution.toNat
  cellWidth := 8
  cellHeight := 16

/-- What a character does to the cursor. -/
def cursorMove (c : Byte) : CursorMove :=
  if c = 0xA then
    .lineFeed
  else if c = 0xD then
    .carriageReturn
  else if isprint c then
    .advance
  else
    .stay

/-- Every character but the two that only move the cursor is drawn. -/
def isDrawn (c : Byte) : Bool :=
  c != 0xA && c != 0xD

/-- The pixel at a cursor. -/
def cursorPixel (cursor : Cursor) : Pixel where
  x := BitVec.ofNat 32 cursor.x
  y := BitVec.ofNat 32 cursor.y

/-- A character at its place on the page. -/
def placedGlyph (placed : Cursor × Byte) : Glyph where
  cell := cursorPixel placed.1
  chr := placed.2

section Layout

variable
  {mode : ModeInfoBlock}
  {cursor : Cursor}

/-- The pixel at the cursor at a pixel. -/
theorem cursorPixel_toNat (cell : Pixel) :
    cursorPixel { x := cell.x.toNat, y := cell.y.toNat } = cell := by
  rw [cursorPixel, BitVec.ofNat_toNat, BitVec.ofNat_toNat,
    BitVec.setWidth_eq, BitVec.setWidth_eq]

/-- The test for the end of the page. -/
theorem screenPixelHeight_le_iff (small : cursor.y < 2 ^ 32) :
    mode.screenPixelHeight ≤ (cursorPixel cursor).y ↔
      ¬cursor.y < mode.textGrid.height := by
  have bounded := mode.yResolution.isLt
  have height :
      mode.screenPixelHeight.toNat = mode.yResolution.toNat := by
    rw [ModeInfoBlock.screenPixelHeight, BitVec.toNat_setWidth]
    omega
  have row : (cursorPixel cursor).y.toNat = cursor.y :=
    (BitVec.toNat_ofNat _ _).trans (Nat.mod_eq_of_lt small)
  rw [BitVec.le_def, height, row, Nat.not_lt]
  rfl

/-- Moving to the right in the code is moving to the right on the page. -/
theorem wrapLine_cursorPixel
    (inside : cursor.x < mode.textGrid.width)
    {cells : Nat}
    (few : cells ≤ 2) :
    wrapLine mode
        { cursorPixel cursor with
          x := (cursorPixel cursor).x + BitVec.ofNat 32 (cells * 8) } =
      cursorPixel (mode.textGrid.advance cells cursor) := by
  have bounded := mode.xResolution.isLt
  have width : mode.screenPixelWidth.toNat = mode.xResolution.toNat := by
    rw [ModeInfoBlock.screenPixelWidth, BitVec.toNat_setWidth]
    omega
  have right :
      (cursorPixel cursor).x + BitVec.ofNat 32 (cells * 8) =
        BitVec.ofNat 32 (cursor.x + cells * 8) := by
    rw [BitVec.ofNat_add]
    rfl
  have inside : cursor.x < mode.xResolution.toNat := inside
  have edge :
      mode.screenPixelWidth ≤ BitVec.ofNat 32 (cursor.x + cells * 8) ↔
        mode.textGrid.width ≤
          cursor.x + cells * mode.textGrid.cellWidth := by
    rw [BitVec.le_def, width, BitVec.toNat_ofNat,
      Nat.mod_eq_of_lt (by omega)]
    rfl
  rw [wrapLine, TextGrid.advance, right]
  by_cases past :
      mode.textGrid.width ≤ cursor.x + cells * mode.textGrid.cellWidth
  · rw [if_pos past, if_pos (edge.mpr past)]
    exact congrArg (Pixel.mk 0) (BitVec.ofNat_add _ _).symm
  · rw [if_neg past, if_neg (edge.not.mpr past)]
    rfl

/-- `sc_print` draws the layout of its string. -/
theorem scPrintGlyphs_eq_layout
    (inside : cursor.x < mode.textGrid.width)
    (onPage : cursor.y < mode.textGrid.height)
    (string : List Byte) :
    scPrintGlyphs mode (cursorPixel cursor) string =
      (mode.textGrid.layout cursorMove isDrawn cursor string).map
        placedGlyph := by
  have rows := mode.yResolution.isLt
  have height : mode.textGrid.height = mode.yResolution.toNat := rfl
  induction string generalizing cursor with
  | nil =>
      rfl
  | cons c string inductionHypothesis =>
      have stays (next : Cursor)
          (left : next.x < mode.textGrid.width)
          (near : next.y ≤ cursor.y + 16) :
          (if mode.screenPixelHeight ≤ (cursorPixel next).y then
              []
            else
              scPrintGlyphs mode (cursorPixel next) string) =
            if next.y < mode.textGrid.height then
              (mode.textGrid.layout cursorMove isDrawn next string).map
                placedGlyph
            else
              [] := by
        have test := @screenPixelHeight_le_iff mode next (by omega)
        by_cases last : next.y < mode.textGrid.height
        · rw [if_neg (test.not.mpr (not_not.mpr last)), if_pos last,
            inductionHypothesis left last]
        · rw [if_pos (test.mpr last), if_neg last]
      rw [scPrintGlyphs, TextGrid.layout, List.map_append,
        apply_ite (List.map placedGlyph) (_ < _), List.map_nil]
      by_cases lineFeed : c = 0xA
      · have down :
            ({ cursorPixel cursor with y := (cursorPixel cursor).y + 16 } :
                Pixel) =
              cursorPixel { cursor with y := cursor.y + 16 } :=
          congrArg (Pixel.mk _) (BitVec.ofNat_add _ _).symm
        have move : cursorMove c = .lineFeed := if_pos lineFeed
        have blank : isDrawn c = false := by
          rw [isDrawn, lineFeed]
          rfl
        rw [if_pos lineFeed, down, move, blank, if_neg Bool.false_ne_true]
        exact stays { cursor with y := cursor.y + 16 } inside (Nat.le_refl _)
      · by_cases carriageReturn : c = 0xD
        · have move : cursorMove c = .carriageReturn := by
            rw [cursorMove, if_neg lineFeed, if_pos carriageReturn]
          have blank : isDrawn c = false := by
            rw [isDrawn, carriageReturn]
            rfl
          rw [if_neg lineFeed, if_pos carriageReturn, move, blank,
            if_neg Bool.false_ne_true, TextGrid.after, if_pos onPage]
          exact
            @inductionHypothesis { cursor with x := 0 }
              (Nat.zero_lt_of_lt inside) onPage
        · have draws : isDrawn c = true := by
            rw [isDrawn, Bool.and_eq_true, bne_iff_ne, bne_iff_ne]
            exact ⟨lineFeed, carriageReturn⟩
          rw [if_neg lineFeed, if_neg carriageReturn, draws, if_pos rfl]
          refine congrArg (List.cons (placedGlyph (cursor, c))) ?_
          by_cases printable : isprint c = true
          · have move : cursorMove c = .advance := by
              rw [cursorMove, if_neg lineFeed, if_neg carriageReturn,
                if_pos printable]
            have right :
                wrapLine mode
                    { cursorPixel cursor with
                      x := (cursorPixel cursor).x + 8 } =
                  cursorPixel (mode.textGrid.advance 1 cursor) :=
              @wrapLine_cursorPixel mode cursor inside 1 (by decide)
            have near :
                (mode.textGrid.advance 1 cursor).y ≤ cursor.y + 16 := by
              rw [TextGrid.advance]
              split
              · exact Nat.le_refl _
              · exact Nat.le_add_right _ _
            rw [if_pos printable, move, TextGrid.after, right]
            exact
              stays _ (TextGrid.after_x_lt inside .advance) near
          · have move : cursorMove c = .stay := by
              rw [cursorMove, if_neg lineFeed, if_neg carriageReturn,
                if_neg printable]
            rw [if_neg printable, move, TextGrid.after, if_pos onPage]
            exact inductionHypothesis inside onPage

end Layout

end HobbyOS
