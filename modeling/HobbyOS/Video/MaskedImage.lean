import HobbyOS.Library.BitStream
import HobbyOS.Library.CountedLoop
import HobbyOS.Video.Screen

namespace HobbyOS

open Library

/-!
# Masked images

`sc_putimg_masked` of `vbe_driver.c`, which draws a pixel for each bit of the
words from `data` on, each word from its least significant bit on.
-/

/--
`framebuffer + x + y*ModeInfoBlock.BytesPerScanline/4`, a pointer to words.
-/
def ModeInfoBlock.imagePointer
    (mode : ModeInfoBlock)
    (pixel : Pixel) :
    PtrT :=
  mode.physicalBasePointer + 4 * pixel.x +
    4 * (pixel.y * mode.bytesPerScanline.setWidth 32 / 4)

/-- The memory and the variables of the loops of `sc_putimg_masked`. -/
structure MaskedDrawing where
  memory : Memory
  r : BitVec 32
  data : PtrT

/-- The body of the loops of `sc_putimg_masked`. -/
def putimgMaskedPixel
    (mode : ModeInfoBlock)
    (color1 color2 : BitVec 32)
    (drawing : MaskedDrawing)
    (pixel : Pixel) :
    MaskedDrawing :=
  let memory :=
    if drawing.r &&& readWord drawing.memory drawing.data ≠ 0 then
      scSetpixel drawing.memory (mode.imagePointer pixel) color1
    else
      scSetpixel drawing.memory (mode.imagePointer pixel) color2
  let r := drawing.r <<< 1
  if r = 0 then
    { memory, r := 1, data := drawing.data + 4 }
  else
    { memory, r, data := drawing.data }

/-- The pixels of the two loops of `sc_putimg_masked`, in order. -/
def putimgPixels (x0 y0 width height : BitVec 32) : List Pixel :=
  (countBelow y0 (y0 + height)).flatMap fun y =>
    (countBelow x0 (x0 + width)).map fun x => { x, y }

/-- `sc_putimg_masked`. -/
def scPutimgMasked
    (mode : ModeInfoBlock)
    (memory : Memory)
    (x0 y0 width height : BitVec 32)
    (data : PtrT)
    (color1 color2 : BitVec 32) :
    Memory :=
  ((putimgPixels x0 y0 width height).foldl
    (putimgMaskedPixel mode color1 color2) { memory, r := 1, data }).memory

/-! ## One pixel for each bit -/

/-- A color that `sc_setpixel` stores as it is. -/
def IsOpaque (color : BitVec 32) : Prop :=
  color &&& 0xFF000000 = 0xFF000000

instance (color : BitVec 32) : Decidable (IsOpaque color) :=
  inferInstanceAs (Decidable (_ = _))

/-- An opaque color is stored. -/
theorem scSetpixel_of_isOpaque
    {color : BitVec 32}
    (isOpaque : IsOpaque color)
    (memory : Memory)
    (offset : PtrT) :
    scSetpixel memory offset color = writeWord memory offset color :=
  if_pos isOpaque

/-- An address outside of the word of a pixel. -/
def ModeInfoBlock.Beside
    (mode : ModeInfoBlock)
    (pixel : Pixel)
    (target : PtrT) :
    Prop :=
  target.toNat < (mode.pixelPointer pixel).toNat ∨
    (mode.pixelPointer pixel).toNat + 4 ≤ target.toNat

/-- In a 32-bit mode both ways to point to a pixel agree. -/
theorem ModeInfoBlock.Is32Bit.imagePointer_eq
    {mode : ModeInfoBlock}
    {pixel : Pixel}
    (is32Bit : mode.Is32Bit)
    (onScreen : mode.OnScreen pixel) :
    mode.imagePointer pixel = mode.pixelPointer pixel := by
  have column := onScreen.1
  have resolution := mode.xResolution.isLt
  have whole : pixel.x * 32 / 32 = pixel.x := by
    have product : (pixel.x * 32).toNat = pixel.x.toNat * 32 := by
      have factor : (32 : BitVec 32).toNat = 32 := rfl
      rw [BitVec.toNat_mul, factor]
      exact Nat.mod_eq_of_lt (by omega)
    refine BitVec.eq_of_toNat_eq ?_
    rw [BitVec.toNat_udiv, product]
    exact Nat.mul_div_cancel _ (by omega)
  rw [ModeInfoBlock.imagePointer, ModeInfoBlock.pixelPointer,
    is32Bit.setWidth_bitsPerPixel, whole]

/-- The drawing behind some pixels. -/
structure Drawn
    (mode : ModeInfoBlock)
    (memory : Memory)
    (data : PtrT)
    (color1 color2 : BitVec 32)
    (pixels : List Pixel)
    (drawing : MaskedDrawing) :
    Prop where
  mask : drawing.r = BitVec.twoPow 32 (pixels.length % 32)
  word : drawing.data = data + 4 * BitVec.ofNat 32 (pixels.length / 32)
  painted :
    ∀ (index : Nat) (inside : index < pixels.length),
      readWord drawing.memory (mode.pixelPointer pixels[index]) =
        if bitAt memory data index then color1 else color2
  outside :
    ∀ target,
      (∀ pixel ∈ pixels, mode.Beside pixel target) →
      drawing.memory target = memory target

section Drawing

variable
  {mode : ModeInfoBlock}
  {memory : Memory}
  {data : PtrT}
  {color1 color2 : BitVec 32}
  {pixels : List Pixel}
  {drawing : MaskedDrawing}

/-- Nothing is drawn yet. -/
theorem Drawn.start :
    Drawn mode memory data color1 color2 []
      { memory, r := 1, data } where
  mask := BitVec.twoPow_zero.symm
  word := (BitVec.add_zero data).symm
  painted := fun _ inside => (Nat.not_lt_zero _ inside).elim
  outside := fun _ _ => rfl

/-- The mask selects the bit of the next pixel. -/
theorem Drawn.selects
    (drawn : Drawn mode memory data color1 color2 pixels drawing)
    (unread :
      ∀ pixel ∈ pixels,
        mode.Beside pixel (data + BitVec.ofNat 32 (pixels.length / 8))) :
    drawing.r &&& readWord drawing.memory drawing.data ≠ 0 ↔
      bitAt memory data pixels.length = true := by
  have place : pixels.length % 32 < 32 := Nat.mod_lt _ (by omega)
  have byte := drawn.outside _ unread
  have bit :
      bitAt drawing.memory data pixels.length =
        bitAt memory data pixels.length := by
    rw [bitAt, bytesAt, byte]
    rfl
  rw [drawn.mask, drawn.word, BitVec.twoPow_and, getLsbD_readWord, bit]
  cases bitAt memory data pixels.length with
  | false =>
      simp
  | true =>
      rw [if_pos rfl]
      simp only [iff_true]
      intro zero
      have width := twoPow_eq_zero_iff.mp zero
      omega

/-- The mask and the pointer after a pixel. -/
theorem Drawn.cursor
    (drawn : Drawn mode memory data color1 color2 pixels drawing)
    (pixel : Pixel) :
    (putimgMaskedPixel mode color1 color2 drawing pixel).r =
        BitVec.twoPow 32 ((pixels.length + 1) % 32) ∧
      (putimgMaskedPixel mode color1 color2 drawing pixel).data =
        data + 4 * BitVec.ofNat 32 ((pixels.length + 1) / 32) := by
  have shifted :
      drawing.r <<< 1 = BitVec.twoPow 32 (pixels.length % 32 + 1) := by
    rw [drawn.mask, twoPow_shiftLeft_one]
  by_cases last : pixels.length % 32 = 31
  · have wraps : drawing.r <<< 1 = 0 := by
      rw [shifted, last]
      rfl
    have place : (pixels.length + 1) % 32 = 0 := by omega
    have word : (pixels.length + 1) / 32 = pixels.length / 32 + 1 := by omega
    rw [putimgMaskedPixel, if_pos wraps, place, word, BitVec.ofNat_add,
      BitVec.mul_add, ← BitVec.add_assoc, ← drawn.word]
    exact ⟨BitVec.twoPow_zero.symm, rfl⟩
  · have goesOn : drawing.r <<< 1 ≠ 0 := by
      rw [shifted]
      intro zero
      have width := twoPow_eq_zero_iff.mp zero
      omega
    have place : (pixels.length + 1) % 32 = pixels.length % 32 + 1 := by omega
    have word : (pixels.length + 1) / 32 = pixels.length / 32 := by omega
    rw [putimgMaskedPixel, if_neg goesOn, place, word, ← shifted,
      ← drawn.word]
    exact ⟨rfl, rfl⟩

/-- The memory after a pixel. -/
theorem Drawn.memory_next
    (drawn : Drawn mode memory data color1 color2 pixels drawing)
    (is32Bit : mode.Is32Bit)
    (opaque1 : IsOpaque color1)
    (opaque2 : IsOpaque color2)
    {pixel : Pixel}
    (onScreen : mode.OnScreen pixel)
    (unread :
      ∀ pixel ∈ pixels,
        mode.Beside pixel (data + BitVec.ofNat 32 (pixels.length / 8))) :
    (putimgMaskedPixel mode color1 color2 drawing pixel).memory =
      writeWord drawing.memory (mode.pixelPointer pixel)
        (if bitAt memory data pixels.length then color1 else color2) := by
  have selects := drawn.selects unread
  have stored :
      (putimgMaskedPixel mode color1 color2 drawing pixel).memory =
        if drawing.r &&& readWord drawing.memory drawing.data ≠ 0 then
          scSetpixel drawing.memory (mode.imagePointer pixel) color1
        else
          scSetpixel drawing.memory (mode.imagePointer pixel) color2 := by
    rw [putimgMaskedPixel]
    split <;> rfl
  rw [stored, is32Bit.imagePointer_eq onScreen]
  by_cases bit : bitAt memory data pixels.length = true
  · rw [if_pos (selects.mpr bit), if_pos bit,
      scSetpixel_of_isOpaque opaque1]
  · rw [if_neg (fun nonzero => bit (selects.mp nonzero)), if_neg bit,
      scSetpixel_of_isOpaque opaque2]

/-- A pixel is drawn behind the others. -/
theorem Drawn.next
    (drawn : Drawn mode memory data color1 color2 pixels drawing)
    (is32Bit : mode.Is32Bit)
    (opaque1 : IsOpaque color1)
    (opaque2 : IsOpaque color2)
    {pixel : Pixel}
    (onScreen : mode.OnScreen pixel)
    (allOnScreen : ∀ other ∈ pixels, mode.OnScreen other)
    (fresh : pixel ∉ pixels)
    (unread :
      ∀ pixel ∈ pixels,
        mode.Beside pixel (data + BitVec.ofNat 32 (pixels.length / 8))) :
    Drawn mode memory data color1 color2 (pixels ++ [pixel])
      (putimgMaskedPixel mode color1 color2 drawing pixel) := by
  have length : (pixels ++ [pixel]).length = pixels.length + 1 := by
    rw [List.length_append, List.length_singleton]
  have cursor := drawn.cursor pixel
  have stored := drawn.memory_next is32Bit opaque1 opaque2 onScreen unread
  refine ⟨?_, ?_, ?_, ?_⟩
  · rw [length, cursor.1]
  · rw [length, cursor.2]
  · intro index inside
    rw [stored]
    rcases Nat.lt_or_ge index pixels.length with before | last
    · have listed : pixels[index] ∈ pixels := List.getElem_mem before
      have different : pixels[index] ≠ pixel := fun same =>
        fresh (same ▸ listed)
      have apart :=
        is32Bit.pixelPointer_apart onScreen (allOnScreen _ listed) different
      rw [List.getElem_append_left before,
        readWord_writeWord_of_apart _ _ (is32Bit.pixelPointer_room onScreen)
          (is32Bit.pixelPointer_room (allOnScreen _ listed)) apart]
      exact drawn.painted index before
    · obtain rfl : index = pixels.length := by omega
      rw [List.getElem_concat_length rfl, readWord_writeWord_self]
  · intro target beside
    rw [stored, writeWord_agreeOutside _ _
      (is32Bit.pixelPointer_room onScreen) target (beside pixel (by simp))]
    refine drawn.outside target fun other listed => ?_
    exact beside other (List.mem_append_left _ listed)

/-- The loops draw their pixels. -/
theorem Drawn.foldl
    (is32Bit : mode.Is32Bit)
    (opaque1 : IsOpaque color1)
    (opaque2 : IsOpaque color2)
    {rest : List Pixel}
    (drawn : Drawn mode memory data color1 color2 pixels drawing)
    (allOnScreen : ∀ pixel ∈ pixels ++ rest, mode.OnScreen pixel)
    (distinct : (pixels ++ rest).Nodup)
    (unread :
      ∀ index < (pixels ++ rest).length,
        ∀ pixel ∈ pixels ++ rest,
          mode.Beside pixel (data + BitVec.ofNat 32 (index / 8))) :
    Drawn mode memory data color1 color2 (pixels ++ rest)
      (rest.foldl (putimgMaskedPixel mode color1 color2) drawing) := by
  induction rest generalizing pixels drawing with
  | nil =>
      rwa [List.append_nil]
  | cons pixel rest inductionHypothesis =>
      have shape : pixels ++ pixel :: rest = pixels ++ [pixel] ++ rest := by
        rw [List.append_assoc, List.singleton_append]
      rw [shape] at allOnScreen distinct unread ⊢
      refine
        inductionHypothesis (drawn.next is32Bit opaque1 opaque2 ?_ ?_ ?_ ?_)
          allOnScreen distinct unread
      · exact allOnScreen pixel (by simp)
      · exact fun other listed => allOnScreen other (by simp [listed])
      · intro listed
        have split := List.nodup_append.mp distinct.of_append_left
        exact split.2.2 pixel listed pixel (List.mem_singleton_self _) rfl
      · intro other listed
        refine unread pixels.length ?_ other (by simp [listed])
        simp only [List.length_append, List.length_singleton]
        omega

/-- A pixel that is not drawn stays. -/
theorem Drawn.other
    (drawn : Drawn mode memory data color1 color2 pixels drawing)
    (is32Bit : mode.Is32Bit)
    (allOnScreen : ∀ other ∈ pixels, mode.OnScreen other)
    {pixel : Pixel}
    (onScreen : mode.OnScreen pixel)
    (unlisted : pixel ∉ pixels) :
    readWord drawing.memory (mode.pixelPointer pixel) =
      readWord memory (mode.pixelPointer pixel) := by
  refine readWord_congr ?_ fun target from_ below => ?_
  · exact is32Bit.pixelPointer_room onScreen
  · refine drawn.outside target fun other listed => ?_
    have apart :=
      is32Bit.pixelPointer_apart onScreen (allOnScreen other listed)
        fun same => unlisted (same ▸ listed)
    rw [WordsApart] at apart
    rw [ModeInfoBlock.Beside]
    omega

end Drawing

end HobbyOS
