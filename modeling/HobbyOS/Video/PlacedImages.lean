import HobbyOS.Video.MaskRoundTrip
import HobbyOS.Video.Painting

namespace HobbyOS

open Library

/-!
# Images and characters as strokes

`sc_putimg` and `sc_putimg_masked` go through the pixels of a rectangle and
through the words from `data` on, and `sc_putch` through those of a cell and
through the bits of the font.  Each of them is one stroke, as long as its
rectangle is on the screen and its data are not.
-/

/-- The memory and the variable of the loops of `sc_putimg`. -/
structure ImageDrawing where
  memory : Memory
  data : PtrT

/-- The body of the loops of `sc_putimg`. -/
def putimgPixel
    (mode : ModeInfoBlock)
    (drawing : ImageDrawing)
    (pixel : Pixel) :
    ImageDrawing where
  memory :=
    scSetpixel drawing.memory (mode.imagePointer pixel)
      (readWord drawing.memory drawing.data)
  data := drawing.data + 4

/-- `sc_putimg`. -/
def scPutimg
    (mode : ModeInfoBlock)
    (memory : Memory)
    (x0 y0 width height : BitVec 32)
    (data : PtrT) :
    Memory :=
  ((putimgPixels x0 y0 width height).foldl (putimgPixel mode)
    { memory, data }).memory

/-! ## Rectangles of pixels in their order -/

/-- A pixel of a rectangle, by its number. -/
def imagePlace (x0 y0 : BitVec 32) (width index : Nat) : Pixel :=
  pixelAt x0 y0 (index % width, index / width)

/-- The pixels of a rectangle with their colors. -/
def imageMarks
    (x0 y0 : BitVec 32)
    (width height : Nat)
    (colorOf : Nat → BitVec 32) :
    List (Pixel × BitVec 32) :=
  (List.range (width * height)).map fun index =>
    (imagePlace x0 y0 width index, colorOf index)

/-- A pixel of a rectangle with the given corner and size. -/
def InImage
    (x0 y0 : BitVec 32)
    (width height : Nat)
    (pixel : Pixel) :
    Prop :=
  (x0.toNat ≤ pixel.x.toNat ∧ pixel.x.toNat < x0.toNat + width) ∧
    y0.toNat ≤ pixel.y.toNat ∧ pixel.y.toNat < y0.toNat + height

instance (x0 y0 : BitVec 32) (width height : Nat) (pixel : Pixel) :
    Decidable (InImage x0 y0 width height pixel) :=
  inferInstanceAs (Decidable ((_ ∧ _) ∧ _ ∧ _))

/-- The number of a pixel of a rectangle. -/
def imageIndex (x0 y0 : BitVec 32) (width : Nat) (pixel : Pixel) : Nat :=
  (pixel.y.toNat - y0.toNat) * width + (pixel.x.toNat - x0.toNat)

/-- Each pixel of a rectangle has the color of its number. -/
def imageStroke
    (x0 y0 : BitVec 32)
    (width height : Nat)
    (colorOf : Nat → BitVec 32) :
    Stroke Pixel (BitVec 32) :=
  fun pixel =>
    if InImage x0 y0 width height pixel then
      some (colorOf (imageIndex x0 y0 width pixel))
    else
      none

/-- The cells of some rows are numbered row by row. -/
theorem flatMap_range_map_range
    {α : Type}
    (place : Nat → Nat → α)
    (width height : Nat) :
    ((List.range height).flatMap fun y =>
        (List.range width).map fun x => place x y) =
      (List.range (width * height)).map fun index =>
        place (index % width) (index / width) := by
  induction height with
  | zero =>
      rfl
  | succ height inductionHypothesis =>
      rw [List.range_succ, List.flatMap_append, inductionHypothesis,
        List.flatMap_singleton, Nat.mul_succ, List.range_add, List.map_append,
        List.map_map]
      refine congrArg _ (List.map_congr_left fun x inside => ?_)
      rw [List.mem_range] at inside
      rw [Function.comp_apply, Nat.mul_add_mod, Nat.mod_eq_of_lt inside,
        Nat.mul_add_div (Nat.zero_lt_of_lt inside), Nat.div_eq_of_lt inside,
        Nat.add_zero]

section Rectangles

variable
  {mode : ModeInfoBlock}
  {x0 y0 : BitVec 32}
  {width height : Nat}
  (insideX : x0.toNat + width ≤ mode.xResolution.toNat)
  (insideY : y0.toNat + height ≤ mode.yResolution.toNat)

include insideX insideY

/-- Where the pixels of a rectangle lie. -/
theorem toNat_imagePlace
    {index : Nat}
    (inside : index < width * height) :
    (imagePlace x0 y0 width index).x.toNat = x0.toNat + index % width ∧
      (imagePlace x0 y0 width index).y.toNat = y0.toNat + index / width ∧
      InImage x0 y0 width height (imagePlace x0 y0 width index) ∧
      imageIndex x0 y0 width (imagePlace x0 y0 width index) = index := by
  have columns := mode.xResolution.isLt
  have rows := mode.yResolution.isLt
  have some : 0 < width := by
    rcases Nat.eq_zero_or_pos width with rfl | some
    · omega
    · exact some
  have column : index % width < width := Nat.mod_lt _ some
  have row : index / width < height := Nat.div_lt_of_lt_mul inside
  have x :
      (imagePlace x0 y0 width index).x.toNat = x0.toNat + index % width :=
    toNat_add_ofNat _ (by omega)
  have y :
      (imagePlace x0 y0 width index).y.toNat = y0.toNat + index / width :=
    toNat_add_ofNat _ (by omega)
  refine ⟨x, y, ?_, ?_⟩
  · rw [InImage, x, y]
    exact
      ⟨⟨Nat.le_add_right _ _, Nat.add_lt_add_left column _⟩,
        Nat.le_add_right _ _, Nat.add_lt_add_left row _⟩
  · rw [imageIndex, x, y, Nat.add_sub_cancel_left, Nat.add_sub_cancel_left]
    exact Nat.div_add_mod' index width

/-- A pixel of a rectangle is the pixel of its number. -/
theorem imagePlace_imageIndex
    {pixel : Pixel}
    (inside : InImage x0 y0 width height pixel) :
    imageIndex x0 y0 width pixel < width * height ∧
      imagePlace x0 y0 width (imageIndex x0 y0 width pixel) = pixel := by
  have columns := mode.xResolution.isLt
  have rows := mode.yResolution.isLt
  obtain ⟨⟨left, right⟩, top, bottom⟩ := inside
  have column : pixel.x.toNat - x0.toNat < width := by
    omega
  have index :
      imageIndex x0 y0 width pixel =
        pixel.x.toNat - x0.toNat + width * (pixel.y.toNat - y0.toNat) := by
    rw [imageIndex, Nat.add_comm, Nat.mul_comm]
  refine ⟨?_, ?_⟩
  · rw [index]
    calc
      _ < width + width * (pixel.y.toNat - y0.toNat) := by
        omega
      _ = width * (pixel.y.toNat - y0.toNat + 1) := by
        rw [Nat.mul_succ, Nat.add_comm]
      _ ≤ width * height := Nat.mul_le_mul_left width (by omega)
  · rw [imagePlace, index, Nat.add_mul_mod_self_left,
      Nat.mod_eq_of_lt column, Nat.add_mul_div_left _ _ (by omega),
      Nat.div_eq_of_lt column, Nat.zero_add, pixelAt]
    cases pixel
    rw [Pixel.mk.injEq]
    refine ⟨BitVec.eq_of_toNat_eq ?_, BitVec.eq_of_toNat_eq ?_⟩
    · rw [toNat_add_ofNat _ (by omega)]
      exact Nat.add_sub_cancel' left
    · rw [toNat_add_ofNat _ (by omega)]
      exact Nat.add_sub_cancel' top

/-- The loops go through the pixels in the order of their numbers. -/
theorem putimgPixels_eq_range :
    putimgPixels x0 y0 (BitVec.ofNat 32 width) (BitVec.ofNat 32 height) =
      (List.range (width * height)).map (imagePlace x0 y0 width) := by
  have columns := mode.xResolution.isLt
  have rows := mode.yResolution.isLt
  rw [putimgPixels, countBelow_add (by omega), countBelow_add (by omega),
    List.flatMap_map]
  simp only [List.map_map]
  exact
    flatMap_range_map_range (fun x y => pixelAt x0 y0 (x, y)) width height

/-- The marks of a rectangle are its stroke. -/
theorem draws_imageMarks
    (is32Bit : mode.Is32Bit)
    (colorOf : Nat → BitVec 32)
    (memory : Memory) :
    Draws mode [imageStroke x0 y0 width height colorOf] memory
      (drawMarks mode memory (imageMarks x0 y0 width height colorOf)) := by
  have places :
      (imageMarks x0 y0 width height colorOf).map (·.1) =
        (List.range (width * height)).map (imagePlace x0 y0 width) := by
    rw [imageMarks, List.map_map]
    rfl
  have once : ((imageMarks x0 y0 width height colorOf).map (·.1)).Nodup := by
    rw [places]
    refine List.nodup_range.map_on fun index inside other otherInside same => ?_
    rw [List.mem_range] at inside otherInside
    rw [← (toNat_imagePlace insideX insideY inside).2.2.2, same,
      (toNat_imagePlace insideX insideY otherInside).2.2.2]
  have allOnScreen :
      ∀ mark ∈ imageMarks x0 y0 width height colorOf,
        mode.OnScreen mark.1 := by
    rw [imageMarks, List.forall_mem_map]
    intro index inside
    obtain ⟨_, _, ⟨column, row⟩, _⟩ :=
      toNat_imagePlace insideX insideY (List.mem_range.mp inside)
    exact ⟨Nat.lt_of_lt_of_le column.2 insideX,
      Nat.lt_of_lt_of_le row.2 insideY⟩
  refine (draws_marks_once is32Bit allOnScreen once memory).congr
    fun pixel onScreen => ?_
  have covered :
      marksStroke (imageMarks x0 y0 width height colorOf) pixel =
        imageStroke x0 y0 width height colorOf pixel := by
    rw [imageStroke]
    split
    next inside =>
      obtain ⟨listed, place⟩ := imagePlace_imageIndex insideX insideY inside
      refine marksStroke_of_mem once ?_
      exact
        List.mem_map.mpr
          ⟨_, List.mem_range.mpr listed, Prod.ext place rfl⟩
    next outside =>
      refine marksStroke_of_unmarked (List.forall_mem_map.mpr ?_)
      rintro index inside rfl
      exact outside
        (toNat_imagePlace insideX insideY (List.mem_range.mp inside)).2.2.1
  refine paintAll_congr rfl ?_
  simp only [List.filterMap_cons, covered]

end Rectangles

/-! ## Images from the memory -/

/-- Some bytes of the address space beside the framebuffer. -/
structure ModeInfoBlock.KeepsApart
    (mode : ModeInfoBlock)
    (data : PtrT)
    (size : Nat) :
    Prop where
  room : data.toNat + size ≤ 2 ^ 32
  apart :
    data.toNat + size ≤ mode.physicalBasePointer.toNat ∨
      mode.framebufferEnd ≤ data.toNat

instance (mode : ModeInfoBlock) (data : PtrT) (size : Nat) :
    Decidable (mode.KeepsApart data size) :=
  decidable_of_iff
    (data.toNat + size ≤ 2 ^ 32 ∧
      (data.toNat + size ≤ mode.physicalBasePointer.toNat ∨
        mode.framebufferEnd ≤ data.toNat))
    ⟨fun both => ⟨both.1, both.2⟩, fun apart => ⟨apart.room, apart.apart⟩⟩

/-- The color of a pixel of `sc_putimg`. -/
def storedColor (memory : Memory) (data : PtrT) (index : Nat) : BitVec 32 :=
  readWord memory (data + BitVec.ofNat 32 (4 * index))

/-- The color of a pixel of `sc_putimg_masked`. -/
def maskedColor
    (memory : Memory)
    (data : PtrT)
    (color1 color2 : BitVec 32)
    (index : Nat) :
    BitVec 32 :=
  if bitAt memory data index then color1 else color2

section Data

variable
  {mode : ModeInfoBlock}
  {before after : Memory}
  {data : PtrT}
  {size index : Nat}

/-- Drawing leaves the words of an image. -/
theorem storedColor_congr
    (same :
      AgreeOutside mode.physicalBasePointer.toNat mode.framebufferEnd before
        after)
    (keeps : mode.KeepsApart data (4 * size))
    (inside : index < size) :
    storedColor after data index = storedColor before data index := by
  have room := keeps.room
  have apart := keeps.apart
  have address := @toNat_add_ofNat data (4 * index) (by omega)
  exact readWord_of_agreeOutside same (by omega) (by omega)

/-- Drawing leaves the bits of an image. -/
theorem bitAt_congr
    (same :
      AgreeOutside mode.physicalBasePointer.toNat mode.framebufferEnd before
        after)
    (keeps : mode.KeepsApart data ((size + 7) / 8))
    (inside : index < size) :
    bitAt after data index = bitAt before data index := by
  have room := keeps.room
  have apart := keeps.apart
  have address := @toNat_add_ofNat data (index / 8) (by omega)
  have byte := same (data + BitVec.ofNat 32 (index / 8)) (by omega)
  rw [bitAt, bytesAt, byte]
  rfl

end Data

/-- The mask and the pointer of `sc_putimg_masked` at a bit. -/
structure AtBit
    (data : PtrT)
    (index : Nat)
    (drawing : MaskedDrawing) :
    Prop where
  mask : drawing.r = BitVec.twoPow 32 (index % 32)
  word : drawing.data = data + 4 * BitVec.ofNat 32 (index / 32)

section Bits

variable
  {mode : ModeInfoBlock}
  {data : PtrT}
  {index : Nat}
  {drawing : MaskedDrawing}

/-- The mask selects the bit. -/
theorem AtBit.selects (atBit : AtBit data index drawing) :
    drawing.r &&& readWord drawing.memory drawing.data ≠ 0 ↔
      bitAt drawing.memory data index = true := by
  have place : index % 32 < 32 := Nat.mod_lt _ (by omega)
  rw [atBit.mask, atBit.word, BitVec.twoPow_and, getLsbD_readWord]
  cases bitAt drawing.memory data index with
  | false =>
      simp
  | true =>
      rw [if_pos rfl]
      simp only [iff_true]
      intro zero
      have width := twoPow_eq_zero_iff.mp zero
      omega

/-- The pixel of a bit is drawn in its color. -/
theorem AtBit.memory_next
    (atBit : AtBit data index drawing)
    (color1 color2 : BitVec 32)
    (pixel : Pixel) :
    (putimgMaskedPixel mode color1 color2 drawing pixel).memory =
      scSetpixel drawing.memory (mode.imagePointer pixel)
        (maskedColor drawing.memory data color1 color2 index) := by
  have memory :
      (putimgMaskedPixel mode color1 color2 drawing pixel).memory =
        if drawing.r &&& readWord drawing.memory drawing.data ≠ 0 then
          scSetpixel drawing.memory (mode.imagePointer pixel) color1
        else
          scSetpixel drawing.memory (mode.imagePointer pixel) color2 := by
    unfold putimgMaskedPixel
    dsimp only
    split
    · rfl
    · rfl
  rw [memory, maskedColor, apply_ite (scSetpixel _ _)]
  exact if_congr atBit.selects rfl rfl

/-- The mask and the pointer move on to the next bit. -/
theorem AtBit.next
    (atBit : AtBit data index drawing)
    (color1 color2 : BitVec 32)
    (pixel : Pixel) :
    AtBit data (index + 1)
      (putimgMaskedPixel mode color1 color2 drawing pixel) := by
  have shifted : drawing.r <<< 1 = BitVec.twoPow 32 (index % 32 + 1) := by
    rw [atBit.mask, twoPow_shiftLeft_one]
  by_cases last : index % 32 = 31
  · have wraps : drawing.r <<< 1 = 0 := by
      rw [shifted, last]
      rfl
    have place : (index + 1) % 32 = 0 := by omega
    have word : (index + 1) / 32 = index / 32 + 1 := by omega
    rw [putimgMaskedPixel, if_pos wraps]
    refine ⟨?_, ?_⟩
    · rw [place]
      exact BitVec.twoPow_zero.symm
    · rw [word, BitVec.ofNat_add, BitVec.mul_add, ← BitVec.add_assoc,
        ← atBit.word]
      rfl
  · have goesOn : drawing.r <<< 1 ≠ 0 := by
      rw [shifted]
      intro zero
      have width := twoPow_eq_zero_iff.mp zero
      omega
    have place : (index + 1) % 32 = index % 32 + 1 := by omega
    have word : (index + 1) / 32 = index / 32 := by omega
    rw [putimgMaskedPixel, if_neg goesOn]
    refine ⟨?_, ?_⟩
    · rw [place]
      exact shifted
    · rw [word]
      exact atBit.word

end Bits

section Images

variable
  {mode : ModeInfoBlock}
  (memory : Memory)
  {x0 y0 : BitVec 32}
  {width height : Nat}
  {data : PtrT}

/-- The memory behind the first pixels of a rectangle. -/
def drawnPixels
    (mode : ModeInfoBlock)
    (memory : Memory)
    (x0 y0 : BitVec 32)
    (width : Nat)
    (colorOf : Nat → BitVec 32)
    (count : Nat) :
    Memory :=
  drawMarks mode memory
    ((List.range count).map fun index =>
      (imagePlace x0 y0 width index, colorOf index))

/-- One more pixel of a rectangle. -/
theorem drawnPixels_succ
    (colorOf : Nat → BitVec 32)
    (count : Nat) :
    drawnPixels mode memory x0 y0 width colorOf (count + 1) =
      scSetpixel (drawnPixels mode memory x0 y0 width colorOf count)
        (mode.pixelPointer (imagePlace x0 y0 width count)) (colorOf count) := by
  rw [drawnPixels, drawMarks, List.range_succ, List.map_append,
    List.foldl_append]
  rfl

variable
  (is32Bit : mode.Is32Bit)
  (insideX : x0.toNat + width ≤ mode.xResolution.toNat)
  (insideY : y0.toNat + height ≤ mode.yResolution.toNat)

include is32Bit insideX insideY

/-- The first pixels of a rectangle change the framebuffer only. -/
theorem drawnPixels_agreeOutside
    (colorOf : Nat → BitVec 32)
    {count : Nat}
    (few : count ≤ width * height) :
    AgreeOutside mode.physicalBasePointer.toNat mode.framebufferEnd memory
      (drawnPixels mode memory x0 y0 width colorOf count) := by
  refine (draws_marks is32Bit (List.forall_mem_map.mpr ?_) memory).beside
  intro index inside
  rw [List.mem_range] at inside
  obtain ⟨_, _, ⟨column, row⟩, _⟩ :=
    toNat_imagePlace insideX insideY (Nat.lt_of_lt_of_le inside few)
  exact ⟨Nat.lt_of_lt_of_le column.2 insideX,
    Nat.lt_of_lt_of_le row.2 insideY⟩

/-- Both ways to point to a pixel agree in a rectangle. -/
theorem imagePointer_imagePlace
    {index : Nat}
    (inside : index < width * height) :
    mode.imagePointer (imagePlace x0 y0 width index) =
      mode.pixelPointer (imagePlace x0 y0 width index) := by
  obtain ⟨_, _, ⟨column, row⟩, _⟩ := toNat_imagePlace insideX insideY inside
  exact
    is32Bit.imagePointer_eq
      ⟨Nat.lt_of_lt_of_le column.2 insideX,
        Nat.lt_of_lt_of_le row.2 insideY⟩

/-- The loops of `sc_putimg` behind some of their pixels. -/
theorem foldl_putimgPixel
    (keeps : mode.KeepsApart data (4 * (width * height)))
    {count : Nat}
    (few : count ≤ width * height) :
    ((List.range count).map (imagePlace x0 y0 width)).foldl (putimgPixel mode)
        { memory, data } =
      { memory :=
          drawnPixels mode memory x0 y0 width (storedColor memory data) count
        data := data + BitVec.ofNat 32 (4 * count) } := by
  induction count with
  | zero =>
      rw [Nat.mul_zero, BitVec.add_zero]
      rfl
  | succ count inductionHypothesis =>
      have same :=
        drawnPixels_agreeOutside memory is32Bit insideX insideY
          (storedColor memory data) (Nat.le_of_succ_le few)
      have color := storedColor_congr same keeps few
      rw [List.range_succ, List.map_append, List.foldl_append,
        inductionHypothesis (by omega), drawnPixels_succ, Nat.mul_succ,
        BitVec.ofNat_add, ← BitVec.add_assoc, ← color,
        ← imagePointer_imagePlace is32Bit insideX insideY few]
      rfl

/-- `sc_putimg` is one stroke. -/
theorem draws_scPutimg (keeps : mode.KeepsApart data (4 * (width * height))) :
    Draws mode [imageStroke x0 y0 width height (storedColor memory data)]
      memory
      (scPutimg mode memory x0 y0 (BitVec.ofNat 32 width)
        (BitVec.ofNat 32 height) data) := by
  rw [scPutimg, putimgPixels_eq_range insideX insideY,
    foldl_putimgPixel memory is32Bit insideX insideY keeps (Nat.le_refl _)]
  exact draws_imageMarks insideX insideY is32Bit _ memory

/-- The loops of `sc_putimg_masked` behind some of their pixels. -/
theorem foldl_putimgMaskedPixel
    (keeps : mode.KeepsApart data ((width * height + 7) / 8))
    (color1 color2 : BitVec 32)
    {count : Nat}
    (few : count ≤ width * height) :
    let drawing :=
      ((List.range count).map (imagePlace x0 y0 width)).foldl
        (putimgMaskedPixel mode color1 color2) { memory, r := 1, data }
    drawing.memory =
        drawnPixels mode memory x0 y0 width
          (maskedColor memory data color1 color2) count ∧
      AtBit data count drawing := by
  induction count with
  | zero =>
      exact ⟨rfl, BitVec.twoPow_zero.symm, (BitVec.add_zero data).symm⟩
  | succ count inductionHypothesis =>
      obtain ⟨drawn, atBit⟩ := inductionHypothesis (Nat.le_of_succ_le few)
      have same :=
        drawnPixels_agreeOutside memory is32Bit insideX insideY
          (maskedColor memory data color1 color2) (Nat.le_of_succ_le few)
      have bit := bitAt_congr same keeps few
      rw [List.range_succ, List.map_append, List.foldl_append]
      refine ⟨?_, atBit.next color1 color2 _⟩
      refine (atBit.memory_next color1 color2 _).trans ?_
      rw [drawn, drawnPixels_succ,
        imagePointer_imagePlace is32Bit insideX insideY few, maskedColor, bit]
      rfl

/-- `sc_putimg_masked` is one stroke. -/
theorem draws_scPutimgMasked
    (keeps : mode.KeepsApart data ((width * height + 7) / 8))
    (color1 color2 : BitVec 32) :
    Draws mode
      [imageStroke x0 y0 width height (maskedColor memory data color1 color2)]
      memory
      (scPutimgMasked mode memory x0 y0 (BitVec.ofNat 32 width)
        (BitVec.ofNat 32 height) data color1 color2) := by
  have drawn :=
    (foldl_putimgMaskedPixel memory is32Bit insideX insideY keeps color1
      color2 (Nat.le_refl _)).1
  rw [scPutimgMasked, putimgPixels_eq_range insideX insideY, drawn]
  exact draws_imageMarks insideX insideY is32Bit _ memory

end Images

end HobbyOS
