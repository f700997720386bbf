import HobbyOS.Library.Canvas
import HobbyOS.Video.BoxFrame
import HobbyOS.Video.Line
import HobbyOS.Video.TextBounds

namespace HobbyOS

open Library

/-!
# Drawing as painting

The framebuffer of a 32-bit mode is a picture, and each drawing function of
`vbe_driver.c` paints some strokes over it, whose colors `sc_setpixel` blends
with those that are there.
-/

/-- The words of the pixels. -/
def ModeInfoBlock.picture
    (mode : ModeInfoBlock)
    (memory : Memory)
    (pixel : Pixel) :
    BitVec 32 :=
  readWord memory (mode.pixelPointer pixel)

/-- The end of the framebuffer. -/
def ModeInfoBlock.framebufferEnd (mode : ModeInfoBlock) : Nat :=
  mode.physicalBasePointer.toNat +
    mode.yResolution.toNat * mode.bytesPerScanline.toNat

/-- Strokes are painted over the picture, and nothing else changes. -/
structure Draws
    (mode : ModeInfoBlock)
    (strokes : List (Stroke Pixel (BitVec 32)))
    (before after : Memory) :
    Prop where
  painted :
    ∀ pixel,
      mode.OnScreen pixel →
      mode.picture after pixel =
        paintAll pixelAfter (mode.picture before) strokes pixel
  beside :
    AgreeOutside mode.physicalBasePointer.toNat mode.framebufferEnd before
      after

/-- `sc_setpixel` for each of some marks. -/
def drawMarks
    (mode : ModeInfoBlock)
    (memory : Memory)
    (marks : List (Pixel × BitVec 32)) :
    Memory :=
  marks.foldl
    (fun memory mark => scSetpixel memory (mode.pixelPointer mark.1) mark.2)
    memory

section Strokes

variable
  {mode : ModeInfoBlock}
  {strokes others : List (Stroke Pixel (BitVec 32))}
  {before middle after : Memory}

/-- Nothing is drawn. -/
theorem Draws.refl (memory : Memory) : Draws mode [] memory memory where
  painted := fun _ _ => rfl
  beside := AgreeOutside.refl _ _ _

/-- Some strokes behind others. -/
theorem Draws.trans
    (first : Draws mode strokes before middle)
    (second : Draws mode others middle after) :
    Draws mode (strokes ++ others) before after where
  painted := by
    intro pixel onScreen
    rw [second.painted pixel onScreen, paintAll_append]
    exact paintAll_congr (first.painted pixel onScreen) rfl
  beside := first.beside.trans second.beside

/-- Only what is painted on the screen counts. -/
theorem Draws.congr
    (draws : Draws mode strokes before after)
    (same :
      ∀ pixel,
        mode.OnScreen pixel →
        paintAll pixelAfter (mode.picture before) strokes pixel =
          paintAll pixelAfter (mode.picture before) others pixel) :
    Draws mode others before after where
  painted := fun pixel onScreen =>
    (draws.painted pixel onScreen).trans (same pixel onScreen)
  beside := draws.beside

/-- `sc_setpixel` on the screen. -/
theorem draws_scSetpixel
    (is32Bit : mode.Is32Bit)
    {mark : Pixel × BitVec 32}
    (onScreen : mode.OnScreen mark.1)
    (memory : Memory) :
    Draws mode [markStroke mark] memory
      (scSetpixel memory (mode.pixelPointer mark.1) mark.2) where
  painted := by
    intro other otherOnScreen
    rw [scSetpixel_eq, ModeInfoBlock.picture, modifyWord, paintAll,
      List.foldl_cons, List.foldl_nil]
    by_cases same : other = mark.1
    · rw [same, readWord_writeWord_self,
        paintOver_of_some (show markStroke mark mark.1 = _ from if_pos rfl)]
      rfl
    · rw [readWord_writeWord_of_apart _ _ (is32Bit.pixelPointer_room onScreen)
          (is32Bit.pixelPointer_room otherOnScreen)
          (is32Bit.pixelPointer_apart onScreen otherOnScreen same),
        paintOver_of_none (show markStroke mark other = _ from if_neg same)]
      rfl
  beside := by
    have start := is32Bit.toNat_pixelPointer onScreen
    exact
      scSetpixel_agreeOutside is32Bit
        ⟨by omega, is32Bit.pixelPointer_fits onScreen⟩ memory mark.2

/-- Marks on the screen. -/
theorem draws_marks
    (is32Bit : mode.Is32Bit)
    {marks : List (Pixel × BitVec 32)}
    (allOnScreen : ∀ mark ∈ marks, mode.OnScreen mark.1)
    (memory : Memory) :
    Draws mode (marks.map markStroke) memory
      (drawMarks mode memory marks) := by
  induction marks generalizing memory with
  | nil =>
      exact Draws.refl memory
  | cons mark marks inductionHypothesis =>
      rw [List.forall_mem_cons] at allOnScreen
      exact
        (draws_scSetpixel is32Bit allOnScreen.1 memory).trans
          (inductionHypothesis allOnScreen.2 _)

/-- Marks on different pixels are one stroke. -/
theorem draws_marks_once
    (is32Bit : mode.Is32Bit)
    {marks : List (Pixel × BitVec 32)}
    (allOnScreen : ∀ mark ∈ marks, mode.OnScreen mark.1)
    (once : (marks.map (·.1)).Nodup)
    (memory : Memory) :
    Draws mode [marksStroke marks] memory (drawMarks mode memory marks) :=
  (draws_marks is32Bit allOnScreen memory).congr fun pixel _ =>
    paintAll_marks once pixel

/-- Pixels of one color. -/
theorem draws_paint
    (is32Bit : mode.Is32Bit)
    {pixels : List Pixel}
    (allOnScreen : ∀ pixel ∈ pixels, mode.OnScreen pixel)
    (once : pixels.Nodup)
    (color : BitVec 32)
    (memory : Memory) :
    Draws mode [solidStroke (· ∈ pixels) color] memory
      (paint mode memory color pixels) := by
  have places :
      (pixels.map fun pixel => (pixel, color)).map (·.1) = pixels := by
    rw [List.map_map]
    exact List.map_id pixels
  have draws :=
    @draws_marks_once mode is32Bit (pixels.map fun pixel => (pixel, color))
      (List.forall_mem_map.mpr allOnScreen) (by rwa [places]) memory
  rw [marksStroke_map, drawMarks, List.foldl_map] at draws
  exact draws

end Strokes

/-! ## Drawing that ends -/

/-- With enough fuel the drawing ends, always in the same memory. -/
def EventuallyDraws
    (mode : ModeInfoBlock)
    (strokes : List (Stroke Pixel (BitVec 32)))
    (before : Memory)
    (run : Nat → Option Memory) :
    Prop :=
  ∃ enough after,
    (∀ fuel ≥ enough, run fuel = some after) ∧ Draws mode strokes before after

section Endings

variable
  {mode : ModeInfoBlock}
  {strokes others : List (Stroke Pixel (BitVec 32))}
  {before after : Memory}
  {run : Nat → Option Memory}

/-- Drawing that needs no fuel. -/
theorem Draws.eventually (draws : Draws mode strokes before after) :
    EventuallyDraws mode strokes before fun _ => some after :=
  ⟨0, after, fun _ _ => rfl, draws⟩

/-- Drawing that goes on behind some drawing. -/
theorem EventuallyDraws.bind
    (first : EventuallyDraws mode strokes before run)
    {next : Nat → Memory → Option Memory}
    (second :
      ∀ middle,
        Draws mode strokes before middle →
        EventuallyDraws mode others middle fun fuel => next fuel middle) :
    EventuallyDraws mode (strokes ++ others) before fun fuel =>
      (run fuel).bind (next fuel) := by
  obtain ⟨enough, middle, ends, draws⟩ := first
  obtain ⟨enoughNext, after, endsNext, drawsNext⟩ := second middle draws
  refine
    ⟨max enough enoughNext, after, fun fuel fueled => ?_,
      draws.trans drawsNext⟩
  dsimp only at endsNext ⊢
  rw [ends fuel (Nat.le_trans (Nat.le_max_left _ _) fueled), Option.bind_some,
    endsNext fuel (Nat.le_trans (Nat.le_max_right _ _) fueled)]

/-- A loop that yields the pixels of a shape. -/
theorem eventuallyDraws_paint
    (is32Bit : mode.Is32Bit)
    {pixelsOf : Nat → Option (List Pixel)}
    {enough : Nat}
    {pixels : List Pixel}
    (ends : ∀ fuel ≥ enough, pixelsOf fuel = some pixels)
    (allOnScreen : ∀ pixel ∈ pixels, mode.OnScreen pixel)
    (once : pixels.Nodup)
    {covers : Pixel → Prop}
    [DecidablePred covers]
    (member : ∀ pixel, pixel ∈ pixels ↔ covers pixel)
    (color : BitVec 32)
    (memory : Memory) :
    EventuallyDraws mode [solidStroke covers color] memory fun fuel =>
      (pixelsOf fuel).map (paint mode memory color) := by
  refine ⟨enough, paint mode memory color pixels, fun fuel fueled => ?_, ?_⟩
  · dsimp only
    rw [ends fuel fueled, Option.map_some]
  · refine (draws_paint is32Bit allOnScreen once color memory).congr
      fun pixel _ => paintAll_congr rfl ?_
    simp only [List.filterMap_cons, solidStroke, member pixel]

end Endings

/-! ## Shapes -/

/-- The strokes of the four calls of `sc_fill` in `sc_box`. -/
def boxStrokes
    (x1 y1 x2 y2 thickness color : BitVec 32) :
    List (Stroke Pixel (BitVec 32)) :=
  if thickness = 0 then
    []
  else
    let thickness := thickness - 1
    [solidStroke (InRectangle x1 y1 x2 (y1 + thickness)) color,
      solidStroke (InRectangle x1 y1 (x1 + thickness) y2) color,
      solidStroke (InRectangle (x2 - thickness) y1 x2 y2) color,
      solidStroke (InRectangle x1 (y2 - thickness) x2 y2) color]

/-- The pixels of a line, for as many steps as its loop may take. -/
def linePixels (x0 y0 x1 y1 : BitVec 32) : List Pixel :=
  (scLinePixels (x1.toNat + y1.toNat + 1) x0 y0 x1 y1).getD []

section Shapes

variable
  {mode : ModeInfoBlock}
  {x0 y0 x1 y1 x2 y2 thickness color : BitVec 32}

/-- `sc_fill` paints its rectangle. -/
theorem draws_scFill
    (is32Bit : mode.Is32Bit)
    (onScreenX : x2.toNat < mode.xResolution.toNat)
    (onScreenY : y2.toNat < mode.yResolution.toNat)
    (memory : Memory) :
    EventuallyDraws mode [solidStroke (InRectangle x1 y1 x2 y2) color] memory
      fun fuel => scFill fuel mode memory x1 y1 x2 y2 color := by
  have columns := mode.xResolution.isLt
  have rows := mode.yResolution.isLt
  obtain ⟨enough, pixels, ends⟩ :=
    @scFillPixels_ends x1 y1 x2 y2 (by omega) (by omega)
  have ended := ends enough (Nat.le_refl _)
  have member := @mem_of_scFillPixels enough x1 y1 x2 y2 pixels ended
  exact
    eventuallyDraws_paint is32Bit ends
      (fun pixel listed =>
        onScreen_of_inRectangle onScreenX onScreenY (member.mp listed))
      (nodup_of_scFillPixels ended) (fun _ => member) color memory

/-- `sc_box` paints its four sides. -/
theorem draws_scBox
    (is32Bit : mode.Is32Bit)
    (onScreenX : x2.toNat < mode.xResolution.toNat)
    (onScreenY : y2.toNat < mode.yResolution.toNat)
    (leftOnScreen :
      thickness ≠ 0 →
      (x1 + (thickness - 1)).toNat < mode.xResolution.toNat)
    (topOnScreen :
      thickness ≠ 0 →
      (y1 + (thickness - 1)).toNat < mode.yResolution.toNat)
    (memory : Memory) :
    EventuallyDraws mode (boxStrokes x1 y1 x2 y2 thickness color) memory
      fun fuel => scBox fuel mode memory x1 y1 x2 y2 thickness color := by
  unfold scBox boxStrokes
  split
  · exact (Draws.refl memory).eventually
  next nonzero =>
    exact
      (draws_scFill is32Bit onScreenX (topOnScreen nonzero) memory).bind
        fun memory _ =>
          (draws_scFill is32Bit (leftOnScreen nonzero) onScreenY memory).bind
            fun memory _ =>
              (draws_scFill is32Bit onScreenX onScreenY memory).bind
                fun memory _ => draws_scFill is32Bit onScreenX onScreenY memory

/-- A loop of `sc_line` sets no point twice. -/
theorem nodup_loopPoints
    (dMajor dMinor last : BitVec 32)
    (vars : LineVars) :
    ((List.range (last.toNat - vars.major.toNat)).map fun step =>
      let vars := (LineVars.next dMajor dMinor)^[step] vars
      (vars.major, vars.minor)).Nodup := by
  have bounded := last.isLt
  refine List.nodup_range.map_on fun step inside other otherInside same => ?_
  rw [List.mem_range] at inside otherInside
  have majors := congrArg (fun point => point.1.toNat) same
  dsimp only at majors
  rw [major_iterate_next, major_iterate_next, toNat_add_ofNat _ (by omega),
    toNat_add_ofNat _ (by omega)] at majors
  omega

/-- The loops of `sc_line` end with the pixels of the line, all different. -/
theorem scLinePixels_ends (x0 y0 x1 y1 : BitVec 32) :
    (∀ fuel ≥ x1.toNat + y1.toNat + 1,
        scLinePixels fuel x0 y0 x1 y1 = some (linePixels x0 y0 x1 y1)) ∧
      (linePixels x0 y0 x1 y1).Nodup := by
  have loop
      {dMajor dMinor last : BitVec 32}
      {vars : LineVars}
      {fuel : Nat}
      (fueled : fuel ≥ last.toNat + 1) :=
    @linePoints_eq last dMajor dMinor fuel vars (by omega)
  unfold linePixels scLinePixels
  dsimp only
  split
  · refine ⟨fun fuel fueled => ?_, ?_⟩
    · rw [loop (by omega), loop (by omega)]
      rfl
    · rw [loop (by omega), Option.map_some, Option.getD_some]
      refine (nodup_loopPoints _ _ _ _).map fun point other same => ?_
      rw [Pixel.mk.injEq] at same
      exact Prod.ext same.1 same.2
  · refine ⟨fun fuel fueled => ?_, ?_⟩
    · rw [loop (by omega), loop (by omega)]
      rfl
    · rw [loop (by omega), Option.map_some, Option.getD_some]
      refine (nodup_loopPoints _ _ _ _).map fun point other same => ?_
      rw [Pixel.mk.injEq] at same
      exact Prod.ext same.2 same.1

/-- `sc_line` paints its pixels. -/
theorem draws_scLine
    (is32Bit : mode.Is32Bit)
    (allOnScreen : ∀ pixel ∈ linePixels x0 y0 x1 y1, mode.OnScreen pixel)
    (memory : Memory) :
    EventuallyDraws mode [solidStroke (· ∈ linePixels x0 y0 x1 y1) color]
      memory fun fuel => scLine fuel mode memory x0 y0 x1 y1 color := by
  obtain ⟨ends, once⟩ := scLinePixels_ends x0 y0 x1 y1
  exact
    eventuallyDraws_paint is32Bit ends allOnScreen once (fun _ => Iff.rfl)
      color memory

end Shapes

end HobbyOS
