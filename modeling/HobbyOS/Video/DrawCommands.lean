import HobbyOS.Video.PlacedText

namespace HobbyOS

open Library

/-!
# Runs of drawing calls

A program that draws makes a sequence of calls of `vbe_driver.c`, which share
the colors that `sc_set_foreground` and `sc_set_background` leave.  Whatever the
calls are, as long as they stay on the screen they paint their strokes one over
the other, and nothing beside the framebuffer changes.
-/

/-! ## The remaining functions -/

/-- `sc_set_foreground`. -/
def scSetForeground (style : TextStyle) (foreground : BitVec 32) : TextStyle :=
  { style with foregroundColor := foreground }

/-- `sc_set_background`. -/
def scSetBackground (style : TextStyle) (background : BitVec 32) : TextStyle :=
  { style with backgroundColor := background }

/-- `sc_clear`. -/
def scClear
    (fuel : Nat)
    (mode : ModeInfoBlock)
    (style : TextStyle)
    (memory : Memory) :
    Option Memory :=
  scFill fuel mode memory 0 0 (mode.screenPixelWidth - 1)
    (mode.screenPixelHeight - 1) style.backgroundColor

/-- `sc_print_byte`. -/
def scPrintByte
    (mode : ModeInfoBlock)
    (style : TextStyle)
    (memory : Memory)
    (cell : Pixel)
    (b : Byte) :
    Memory :=
  (scPrintByteGlyphs mode cell b).foldl (scPutch mode style) memory

/-- The calls of `sc_putch` in the loop of `sc_print_rhex`, in order. -/
def printRhexLoop (mode : ModeInfoBlock) : Pixel → List Byte → List Glyph
  | _, [] => []
  | cell, b :: bytes =>
      scPrintByteGlyphs mode cell b ++
        let cell := wrapLine mode { cell with x := cell.x + 16 }
        if mode.screenPixelHeight ≤ cell.y then
          []
        else
          printRhexLoop mode cell bytes

/--
The calls of `sc_putch` in `sc_print_rhex`, in order.  The index is an `int`,
which is negative at once for more than `2^31` bytes.
-/
def scPrintRhexGlyphs
    (mode : ModeInfoBlock)
    (cell : Pixel)
    (bytes : List Byte) :
    List Glyph :=
  if 2 ^ 31 < bytes.length then
    []
  else
    printRhexLoop mode cell bytes.reverse

/-- `sc_print_rhex`. -/
def scPrintRhex
    (mode : ModeInfoBlock)
    (style : TextStyle)
    (memory : Memory)
    (cell : Pixel)
    (bytes : List Byte) :
    Memory :=
  (scPrintRhexGlyphs mode cell bytes).foldl (scPutch mode style) memory

/-! ## Calls and their runs -/

/-- The colors, the font and the memory. -/
structure VideoState where
  style : TextStyle
  memory : Memory

/-- A call of a function of `vbe_driver.c` with its arguments. -/
inductive DrawCommand where
  | setForeground (foreground : BitVec 32)
  | setBackground (background : BitVec 32)
  | clear
  | putch (cell : Pixel) (chr : Byte)
  | print (cell : Pixel) (string : List Byte)
  | printByte (cell : Pixel) (b : Byte)
  | printHex (cell : Pixel) (bytes : List Byte)
  | printRhex (cell : Pixel) (bytes : List Byte)
  | line (x0 y0 x1 y1 color : BitVec 32)
  | fill (x1 y1 x2 y2 color : BitVec 32)
  | box (x1 y1 x2 y2 thickness color : BitVec 32)
  | putimg (x0 y0 width height : BitVec 32) (data : PtrT)
  | putimgMasked
      (x0 y0 width height : BitVec 32) (data : PtrT) (color1 color2 : BitVec 32)

namespace DrawCommand

/-- What a call leaves in the memory. -/
def draw
    (fuel : Nat)
    (mode : ModeInfoBlock)
    (style : TextStyle)
    (memory : Memory) :
    DrawCommand → Option Memory
  | setForeground _ => some memory
  | setBackground _ => some memory
  | clear => scClear fuel mode style memory
  | putch cell chr => some (scPutch mode style memory { cell, chr })
  | print cell string => some (scPrint mode style memory cell string)
  | printByte cell b => some (scPrintByte mode style memory cell b)
  | printHex cell bytes => some (scPrintHex mode style memory cell bytes)
  | printRhex cell bytes => some (scPrintRhex mode style memory cell bytes)
  | line x0 y0 x1 y1 color => scLine fuel mode memory x0 y0 x1 y1 color
  | fill x1 y1 x2 y2 color => scFill fuel mode memory x1 y1 x2 y2 color
  | box x1 y1 x2 y2 thickness color =>
      scBox fuel mode memory x1 y1 x2 y2 thickness color
  | putimg x0 y0 width height data =>
      some (scPutimg mode memory x0 y0 width height data)
  | putimgMasked x0 y0 width height data color1 color2 =>
      some
        (scPutimgMasked mode memory x0 y0 width height data color1 color2)

/-- The colors that a call leaves. -/
def restyle (style : TextStyle) : DrawCommand → TextStyle
  | setForeground foreground => scSetForeground style foreground
  | setBackground background => scSetBackground style background
  | _ => style

/-- The strokes of a call. -/
def strokes
    (mode : ModeInfoBlock)
    (style : TextStyle)
    (memory : Memory) :
    DrawCommand → List (Stroke Pixel (BitVec 32))
  | setForeground _ => []
  | setBackground _ => []
  | clear => [fun _ => some style.backgroundColor]
  | putch cell chr => [glyphStroke style { cell, chr }]
  | print cell string =>
      (scPrintGlyphs mode cell string).map (glyphStroke style)
  | printByte cell b => (scPrintByteGlyphs mode cell b).map (glyphStroke style)
  | printHex cell bytes =>
      (scPrintHexGlyphs mode cell bytes).map (glyphStroke style)
  | printRhex cell bytes =>
      (scPrintRhexGlyphs mode cell bytes).map (glyphStroke style)
  | line x0 y0 x1 y1 color =>
      [solidStroke (· ∈ linePixels x0 y0 x1 y1) color]
  | fill x1 y1 x2 y2 color => [solidStroke (InRectangle x1 y1 x2 y2) color]
  | box x1 y1 x2 y2 thickness color => boxStrokes x1 y1 x2 y2 thickness color
  | putimg x0 y0 width height data =>
      [imageStroke x0 y0 width.toNat height.toNat (storedColor memory data)]
  | putimgMasked x0 y0 width height data color1 color2 =>
      [imageStroke x0 y0 width.toNat height.toNat
        (maskedColor memory data color1 color2)]

/-- A call stays on the screen, and its image is not on it. -/
def Fits (mode : ModeInfoBlock) : DrawCommand → Prop
  | setForeground _ => True
  | setBackground _ => True
  | clear => 0 < mode.xResolution.toNat ∧ 0 < mode.yResolution.toNat
  | putch cell chr => GlyphOnScreen mode { cell, chr }
  | print cell string =>
      ∀ glyph ∈ scPrintGlyphs mode cell string, GlyphOnScreen mode glyph
  | printByte cell b =>
      ∀ glyph ∈ scPrintByteGlyphs mode cell b, GlyphOnScreen mode glyph
  | printHex cell bytes =>
      ∀ glyph ∈ scPrintHexGlyphs mode cell bytes, GlyphOnScreen mode glyph
  | printRhex cell bytes =>
      ∀ glyph ∈ scPrintRhexGlyphs mode cell bytes, GlyphOnScreen mode glyph
  | line x0 y0 x1 y1 _ =>
      ∀ pixel ∈ linePixels x0 y0 x1 y1, mode.OnScreen pixel
  | fill _ _ x2 y2 _ => mode.OnScreen { x := x2, y := y2 }
  | box x1 y1 x2 y2 thickness _ =>
      mode.OnScreen { x := x2, y := y2 } ∧
        (thickness ≠ 0 →
          mode.OnScreen
            { x := x1 + (thickness - 1), y := y1 + (thickness - 1) })
  | putimg x0 y0 width height data =>
      x0.toNat + width.toNat ≤ mode.xResolution.toNat ∧
        y0.toNat + height.toNat ≤ mode.yResolution.toNat ∧
        mode.KeepsApart data (4 * (width.toNat * height.toNat))
  | putimgMasked x0 y0 width height data _ _ =>
      x0.toNat + width.toNat ≤ mode.xResolution.toNat ∧
        y0.toNat + height.toNat ≤ mode.yResolution.toNat ∧
        mode.KeepsApart data ((width.toNat * height.toNat + 7) / 8)

instance (mode : ModeInfoBlock) (pixel : Pixel) :
    Decidable (mode.OnScreen pixel) :=
  inferInstanceAs (Decidable (_ ∧ _))

instance (mode : ModeInfoBlock) :
    (command : DrawCommand) → Decidable (command.Fits mode)
  | setForeground _ => inferInstanceAs (Decidable True)
  | setBackground _ => inferInstanceAs (Decidable True)
  | clear => inferInstanceAs (Decidable (_ ∧ _))
  | putch cell chr =>
      inferInstanceAs (Decidable (GlyphOnScreen mode { cell, chr }))
  | print _ _ => inferInstanceAs (Decidable (∀ glyph ∈ _, _))
  | printByte _ _ => inferInstanceAs (Decidable (∀ glyph ∈ _, _))
  | printHex _ _ => inferInstanceAs (Decidable (∀ glyph ∈ _, _))
  | printRhex _ _ => inferInstanceAs (Decidable (∀ glyph ∈ _, _))
  | line _ _ _ _ _ => inferInstanceAs (Decidable (∀ pixel ∈ _, _))
  | fill _ _ x2 y2 _ =>
      inferInstanceAs (Decidable (mode.OnScreen { x := x2, y := y2 }))
  | box _ _ _ _ _ _ => inferInstanceAs (Decidable (_ ∧ (_ → _)))
  | putimg _ _ _ _ _ => inferInstanceAs (Decidable (_ ∧ _ ∧ _))
  | putimgMasked _ _ _ _ _ _ _ => inferInstanceAs (Decidable (_ ∧ _ ∧ _))

end DrawCommand

/-- What a sequence of calls leaves. -/
def drawAll
    (fuel : Nat)
    (mode : ModeInfoBlock) :
    VideoState → List DrawCommand → Option VideoState
  | state, [] => some state
  | state, command :: commands => do
      let memory ← command.draw fuel mode state.style state.memory
      drawAll fuel mode { style := command.restyle state.style, memory }
        commands

/-- The strokes of a sequence of calls, with the images of one memory. -/
def allStrokes
    (mode : ModeInfoBlock)
    (memory : Memory) :
    TextStyle → List DrawCommand → List (Stroke Pixel (BitVec 32))
  | _, [] => []
  | style, command :: commands =>
      command.strokes mode style memory ++
        allStrokes mode memory (command.restyle style) commands

/-! ## One call -/

section Commands

variable
  {mode : ModeInfoBlock}
  {command : DrawCommand}

/-- The number of the last column or row. -/
theorem toNat_lastPixel
    {resolution : BitVec 16}
    (some : 0 < resolution.toNat) :
    (resolution.setWidth 32 - 1 : BitVec 32).toNat =
      resolution.toNat - 1 := by
  have bounded := resolution.isLt
  have one : (1 : BitVec 32).toNat = 1 := rfl
  rw [BitVec.toNat_sub, BitVec.toNat_setWidth, one]
  omega

/-- `sc_clear` paints the whole screen. -/
theorem draws_scClear
    (is32Bit : mode.Is32Bit)
    (columns : 0 < mode.xResolution.toNat)
    (rows : 0 < mode.yResolution.toNat)
    (style : TextStyle)
    (memory : Memory) :
    EventuallyDraws mode [fun _ => some style.backgroundColor] memory
      fun fuel => scClear fuel mode style memory := by
  have right : (mode.screenPixelWidth - 1).toNat = _ :=
    toNat_lastPixel columns
  have bottom : (mode.screenPixelHeight - 1).toNat = _ :=
    toNat_lastPixel rows
  obtain ⟨enough, after, ends, draws⟩ :=
    @draws_scFill mode 0 0 (mode.screenPixelWidth - 1)
      (mode.screenPixelHeight - 1) style.backgroundColor is32Bit (by omega)
      (by omega) memory
  refine ⟨enough, after, ends, draws.congr fun pixel onScreen => ?_⟩
  refine paintAll_congr rfl ?_
  have inside :
      InRectangle 0 0 (mode.screenPixelWidth - 1)
        (mode.screenPixelHeight - 1) pixel := by
    have column := onScreen.1
    have row := onScreen.2
    refine ⟨⟨Nat.zero_le _, ?_⟩, Nat.zero_le _, ?_⟩
    · rw [BitVec.le_def, right]
      omega
    · rw [BitVec.le_def, bottom]
      omega
  simp only [List.filterMap_cons, solidStroke, if_pos inside]

/-- A call paints its strokes. -/
theorem DrawCommand.Fits.draws
    (fits : command.Fits mode)
    (is32Bit : mode.Is32Bit)
    (limitFits : mode.LimitFits)
    (style : TextStyle)
    (memory : Memory) :
    EventuallyDraws mode (command.strokes mode style memory) memory
      fun fuel => command.draw fuel mode style memory := by
  cases command with
  | setForeground foreground =>
      exact (Draws.refl memory).eventually
  | setBackground background =>
      exact (Draws.refl memory).eventually
  | clear =>
      exact draws_scClear is32Bit fits.1 fits.2 style memory
  | putch cell chr =>
      exact (draws_scPutch style is32Bit limitFits fits memory).eventually
  | print cell string =>
      exact (draws_glyphs style is32Bit limitFits fits memory).eventually
  | printByte cell b =>
      exact (draws_glyphs style is32Bit limitFits fits memory).eventually
  | printHex cell bytes =>
      exact (draws_glyphs style is32Bit limitFits fits memory).eventually
  | printRhex cell bytes =>
      exact (draws_glyphs style is32Bit limitFits fits memory).eventually
  | line x0 y0 x1 y1 color =>
      exact draws_scLine is32Bit fits memory
  | fill x1 y1 x2 y2 color =>
      exact draws_scFill is32Bit fits.1 fits.2 memory
  | box x1 y1 x2 y2 thickness color =>
      exact
        draws_scBox is32Bit fits.1.1 fits.1.2
          (fun some => (fits.2 some).1) (fun some => (fits.2 some).2) memory
  | putimg x0 y0 width height data =>
      have draws :=
        draws_scPutimg memory is32Bit fits.1 fits.2.1 fits.2.2
      rw [BitVec.ofNat_toNat, BitVec.setWidth_eq, BitVec.ofNat_toNat,
        BitVec.setWidth_eq] at draws
      exact draws.eventually
  | putimgMasked x0 y0 width height data color1 color2 =>
      have draws :=
        draws_scPutimgMasked memory is32Bit fits.1 fits.2.1 fits.2.2 color1
          color2
      rw [BitVec.ofNat_toNat, BitVec.setWidth_eq, BitVec.ofNat_toNat,
        BitVec.setWidth_eq] at draws
      exact draws.eventually

/-- The strokes of a rectangle with the same colors are the same. -/
theorem imageStroke_congr
    {x0 y0 : BitVec 32}
    {width height : Nat}
    (insideX : x0.toNat + width ≤ mode.xResolution.toNat)
    (insideY : y0.toNat + height ≤ mode.yResolution.toNat)
    {colorOf other : Nat → BitVec 32}
    (same : ∀ index < width * height, colorOf index = other index) :
    imageStroke x0 y0 width height colorOf =
      imageStroke x0 y0 width height other := by
  funext pixel
  rw [imageStroke, imageStroke]
  split
  next inside =>
    rw [same _ (imagePlace_imageIndex insideX insideY inside).1]
  · rfl

/-- The strokes of a call depend on its image only. -/
theorem DrawCommand.Fits.strokes_congr
    (fits : command.Fits mode)
    {before after : Memory}
    (same :
      AgreeOutside mode.physicalBasePointer.toNat mode.framebufferEnd before
        after)
    (style : TextStyle) :
    command.strokes mode style after = command.strokes mode style before := by
  cases command with
  | putimg x0 y0 width height data =>
      refine congrArg (fun stroke => [stroke]) ?_
      exact
        imageStroke_congr fits.1 fits.2.1 fun index inside =>
          storedColor_congr same fits.2.2 inside
  | putimgMasked x0 y0 width height data color1 color2 =>
      refine congrArg (fun stroke => [stroke]) ?_
      refine imageStroke_congr fits.1 fits.2.1 fun index inside => ?_
      rw [maskedColor, bitAt_congr same fits.2.2 inside]
      rfl
  | _ =>
      rfl

end Commands

/-! ## All calls -/

/-- The strokes of fitting calls depend on their images only. -/
theorem allStrokes_congr
    {mode : ModeInfoBlock}
    {commands : List DrawCommand}
    (fits : ∀ command ∈ commands, command.Fits mode)
    {before after : Memory}
    (same :
      AgreeOutside mode.physicalBasePointer.toNat mode.framebufferEnd before
        after)
    (style : TextStyle) :
    allStrokes mode after style commands =
      allStrokes mode before style commands := by
  induction commands generalizing style with
  | nil =>
      rfl
  | cons command commands inductionHypothesis =>
      rw [List.forall_mem_cons] at fits
      rw [allStrokes, allStrokes, fits.1.strokes_congr same,
        inductionHypothesis fits.2]

/-- Calls that stay on the screen end, and paint all their strokes. -/
theorem draws_drawAll
    {mode : ModeInfoBlock}
    (is32Bit : mode.Is32Bit)
    (limitFits : mode.LimitFits)
    {commands : List DrawCommand}
    (fits : ∀ command ∈ commands, command.Fits mode)
    (state : VideoState) :
    ∃ enough after,
      (∀ fuel ≥ enough, drawAll fuel mode state commands = some after) ∧
        after.style = commands.foldl DrawCommand.restyle state.style ∧
        Draws mode (allStrokes mode state.memory state.style commands)
          state.memory after.memory := by
  induction commands generalizing state with
  | nil =>
      exact ⟨0, state, fun _ _ => rfl, rfl, Draws.refl state.memory⟩
  | cons command commands inductionHypothesis =>
      rw [List.forall_mem_cons] at fits
      obtain ⟨enough, memory, ends, draws⟩ :=
        fits.1.draws is32Bit limitFits state.style state.memory
      obtain ⟨enoughNext, after, endsNext, styled, drawsNext⟩ :=
        inductionHypothesis fits.2
          { style := command.restyle state.style, memory }
      rw [allStrokes_congr fits.2 draws.beside] at drawsNext
      refine
        ⟨max enough enoughNext, after, fun fuel fueled => ?_, styled,
          draws.trans drawsNext⟩
      have first := ends fuel (Nat.le_trans (Nat.le_max_left _ _) fueled)
      dsimp only at first
      rw [drawAll, first, Option.bind_eq_bind, Option.bind_some,
        endsNext fuel (Nat.le_trans (Nat.le_max_right _ _) fueled)]

/--
Calls that stay on the screen end.  Behind them the word of each pixel has gone
through the blends of the strokes that cover it, one over the other, and no byte
beside the framebuffer has changed.
-/
theorem drawAll_paints
    {mode : ModeInfoBlock}
    (is32Bit : mode.Is32Bit)
    (limitFits : mode.LimitFits)
    {commands : List DrawCommand}
    (fits : ∀ command ∈ commands, command.Fits mode)
    (state : VideoState) :
    ∃ enough after,
      (∀ fuel ≥ enough, drawAll fuel mode state commands = some after) ∧
        after.style = commands.foldl DrawCommand.restyle state.style ∧
        (∀ pixel,
          mode.OnScreen pixel →
          readWord after.memory (mode.pixelPointer pixel) =
            ((allStrokes mode state.memory state.style commands).filterMap
                (· pixel)).foldl
              (fun below color => pixelAfter color below)
              (readWord state.memory (mode.pixelPointer pixel))) ∧
        AgreeOutside mode.physicalBasePointer.toNat mode.framebufferEnd
          state.memory after.memory := by
  obtain ⟨enough, after, ends, styled, draws⟩ :=
    draws_drawAll is32Bit limitFits fits state
  refine
    ⟨enough, after, ends, styled, fun pixel onScreen => ?_, draws.beside⟩
  exact (draws.painted pixel onScreen).trans (paintAll_eq_foldl _)

/-- Calls of every kind near the corner of a screen, one over the other. -/
def cornerCalls : List DrawCommand :=
  [.clear, .setForeground 0x80E2A302, .print { x := 6, y := 0 } [0x4F, 0x53],
    .setBackground 0xFF040505, .printHex { x := 6, y := 16 } [0x2A],
    .line 0 0 9 4 0xFFFFFFFF, .box 0 0 20 20 2 0x40FF0000,
    .fill 3 3 5 5 0xFF00FF00, .putimg 8 8 2 2 0x1000,
    .putimgMasked 4 4 3 3 0x1000 0xFF0000FF 0x20FFFFFF]

/-- What the calls lay on a pixel, and the color that is left there. -/
theorem drawAll_paints_corner :
    ∃ enough after,
      (∀ fuel ≥ enough,
        drawAll fuel mode640x480 { style := fullCells, memory := chessMemory }
            cornerCalls =
          some after) ∧
        after.style.foregroundColor = 0x80E2A302 ∧
        readWord after.memory
            (mode640x480.pixelPointer { x := 5, y := 5 }) =
          pixelAfter 0x20FFFFFF 0xFF00FF00 := by
  obtain ⟨enough, after, ends, styled, painted, _⟩ :=
    drawAll_paints mode640x480_is32Bit (by decide)
      (by decide : ∀ command ∈ cornerCalls, command.Fits mode640x480)
      { style := fullCells, memory := chessMemory }
  refine ⟨enough, after, ends, congrArg TextStyle.foregroundColor styled, ?_⟩
  have laid :
      (allStrokes mode640x480 chessMemory fullCells cornerCalls).filterMap
          (· { x := 5, y := 5 }) =
        [0xFF000000, 0xFF00FF00, 0x20FFFFFF] := by
    decide
  rw [painted _ ⟨by decide, by decide⟩, laid]
  rfl

end HobbyOS
