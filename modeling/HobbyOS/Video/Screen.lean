import HobbyOS.Library.WordUpdates
import HobbyOS.Stddef

namespace HobbyOS

open Library

/-!
# The framebuffer

The mode information, the pointers to pixels, and `sc_setpixel` of
`vbe_driver.c`.  A pixel is a little-endian word of the memory, so the fields
of a `Pixel_t` are its bytes from the least significant one on.
-/

/-- The fields of `MODEINFOBLOCK_t` that the drawing functions read. -/
structure ModeInfoBlock where
  bytesPerScanline : BitVec 16
  xResolution : BitVec 16
  yResolution : BitVec 16
  bitsPerPixel : Byte
  physicalBasePointer : PtrT

/-- `SCREEN_PIXEL_WIDTH`. -/
def ModeInfoBlock.screenPixelWidth (mode : ModeInfoBlock) : BitVec 32 :=
  mode.xResolution.setWidth 32

/-- `SCREEN_PIXEL_HEIGHT`. -/
def ModeInfoBlock.screenPixelHeight (mode : ModeInfoBlock) : BitVec 32 :=
  mode.yResolution.setWidth 32

/-- `SCREEN_BUFFER_SIZE`, an `int`. -/
def ModeInfoBlock.screenBufferSize (mode : ModeInfoBlock) : BitVec 32 :=
  (mode.xResolution.setWidth 32 * mode.bitsPerPixel.setWidth 32).sdiv 4 +
    (mode.yResolution.setWidth 32 * mode.bytesPerScanline.setWidth 32).sdiv 4

/-- A pixel, by its column and its row. -/
structure Pixel where
  x : BitVec 32
  y : BitVec 32
  deriving DecidableEq

/--
`framebuffer + x*ModeInfoBlock.BitsPerPixel/32 +
y*ModeInfoBlock.BytesPerScanline/4`, a pointer to words.
-/
def ModeInfoBlock.pixelPointer
    (mode : ModeInfoBlock)
    (pixel : Pixel) :
    PtrT :=
  mode.physicalBasePointer +
    4 * (pixel.x * mode.bitsPerPixel.setWidth 32 / 32) +
    4 * (pixel.y * mode.bytesPerScanline.setWidth 32 / 4)

/-- The fields of `Pixel_t`, in the order of their bytes. -/
structure PixelT where
  alpha : Byte
  red : Byte
  green : Byte
  blue : Byte

/-- The `Pixel_t` at the address of a word. -/
def PixelT.ofWord (word : BitVec 32) : PixelT where
  alpha := word.extractLsb' 0 8
  red := word.extractLsb' 8 8
  green := word.extractLsb' 16 8
  blue := word.extractLsb' 24 8

/-- The bytes of a `Pixel_t` as a word. -/
def PixelT.toWord (pixel : PixelT) : BitVec 32 :=
  pixel.blue ++ pixel.green ++ pixel.red ++ pixel.alpha

/-- `(prev * (0xFF - alpha) + add * alpha) >> 8`, cut to a byte. -/
def blendChannel (prev add alpha : Byte) : Byte :=
  BitVec.ofNat 8
    ((prev.toNat * (0xFF - alpha.toNat) + add.toNat * alpha.toNat) / 256)

/-- `sc_setpixel`. -/
def scSetpixel
    (memory : Memory)
    (offset : PtrT)
    (value : BitVec 32) :
    Memory :=
  if value &&& 0xFF000000 = 0xFF000000 then
    writeWord memory offset value
  else
    let add := PixelT.ofWord value
    let memory :=
      writeByte memory (offset + 1)
        (blendChannel (memory (offset + 1)) add.red add.alpha)
    let memory :=
      writeByte memory (offset + 2)
        (blendChannel (memory (offset + 2)) add.green add.alpha)
    writeByte memory (offset + 3)
      (blendChannel (memory (offset + 3)) add.blue add.alpha)

/-- The word that `sc_setpixel` leaves for the word that was there. -/
def pixelAfter (value prev : BitVec 32) : BitVec 32 :=
  if value &&& 0xFF000000 = 0xFF000000 then
    value
  else
    let add := PixelT.ofWord value
    let prev := PixelT.ofWord prev
    PixelT.toWord
      { prev with
        red := blendChannel prev.red add.red add.alpha
        green := blendChannel prev.green add.green add.alpha
        blue := blendChannel prev.blue add.blue add.alpha }

/-- The fields of a word are those it was made of. -/
@[simp] theorem PixelT.ofWord_toWord (pixel : PixelT) :
    PixelT.ofWord pixel.toWord = pixel := by
  have alpha : pixel.toWord.extractLsb' 0 8 = pixel.alpha :=
    BitVec.extractLsb'_append_eq_right
  have red : pixel.toWord.extractLsb' 8 8 = pixel.red :=
    (BitVec.extractLsb'_append_eq_of_le (Nat.le_refl 8)).trans
      BitVec.extractLsb'_append_eq_right
  have green : pixel.toWord.extractLsb' 16 8 = pixel.green :=
    (BitVec.extractLsb'_append_eq_of_le (by decide)).trans
      ((BitVec.extractLsb'_append_eq_of_le (Nat.le_refl 8)).trans
        BitVec.extractLsb'_append_eq_right)
  have blue : pixel.toWord.extractLsb' 24 8 = pixel.blue :=
    (BitVec.extractLsb'_append_eq_of_le (by decide)).trans
      ((BitVec.extractLsb'_append_eq_of_le (by decide)).trans
        BitVec.extractLsb'_append_eq_left)
  rw [PixelT.ofWord, alpha, red, green, blue]

/-- The word at an address has the bytes there as its fields. -/
theorem PixelT.ofWord_readWord
    (memory : Memory)
    (address : PtrT) :
    PixelT.ofWord (readWord memory address) =
      { alpha := memory address
        red := memory (address + 1)
        green := memory (address + 2)
        blue := memory (address + 3) } :=
  PixelT.ofWord_toWord
    { alpha := memory address
      red := memory (address + 1)
      green := memory (address + 2)
      blue := memory (address + 3) }

/-- Storing a pixel stores its fields. -/
theorem writeWord_toWord
    (memory : Memory)
    (address : PtrT)
    (pixel : PixelT) :
    writeWord memory address pixel.toWord =
      writeByte
        (writeByte
          (writeByte (writeByte memory address pixel.alpha)
            (address + 1) pixel.red)
          (address + 2) pixel.green)
        (address + 3) pixel.blue := by
  have fields := PixelT.ofWord_toWord pixel
  have alpha := congrArg PixelT.alpha fields
  have red := congrArg PixelT.red fields
  have green := congrArg PixelT.green fields
  have blue := congrArg PixelT.blue fields
  dsimp only [PixelT.ofWord] at alpha red green blue
  rw [writeWord, alpha, red, green, blue]

/-- `sc_setpixel` updates the word of its pixel. -/
theorem scSetpixel_eq
    (memory : Memory)
    (offset : PtrT)
    (value : BitVec 32) :
    scSetpixel memory offset value =
      modifyWord memory offset (pixelAfter value) := by
  rw [scSetpixel, modifyWord, pixelAfter]
  split
  · rfl
  · have two : offset + 2 ≠ offset + 1 := by bv_omega
    have three : offset + 3 ≠ offset + 1 := by bv_omega
    have threeTwo : offset + 3 ≠ offset + 2 := by bv_omega
    dsimp only
    rw [writeWord_toWord, PixelT.ofWord_readWord]
    dsimp only [writeByte]
    rw [Function.update_eq_self, Function.update_of_ne two,
      Function.update_of_ne threeTwo, Function.update_of_ne three]

/-! ## 32-bit modes -/

/-- A 32-bit mode whose framebuffer lies in the address space. -/
structure ModeInfoBlock.Is32Bit (mode : ModeInfoBlock) : Prop where
  bits : mode.bitsPerPixel = 32
  aligned : mode.bytesPerScanline.toNat % 4 = 0
  wide : 4 * mode.xResolution.toNat ≤ mode.bytesPerScanline.toNat
  fits :
    mode.physicalBasePointer.toNat +
        mode.yResolution.toNat * mode.bytesPerScanline.toNat ≤
      2 ^ 32

/-- A mode of 640 by 480 pixels. -/
def mode640x480 : ModeInfoBlock where
  bytesPerScanline := 2560
  xResolution := 640
  yResolution := 480
  bitsPerPixel := 32
  physicalBasePointer := 0xFD000000

theorem mode640x480_is32Bit : mode640x480.Is32Bit where
  bits := rfl
  aligned := rfl
  wide := by decide
  fits := by decide

/-- A pixel of the screen. -/
def ModeInfoBlock.OnScreen (mode : ModeInfoBlock) (pixel : Pixel) : Prop :=
  pixel.x.toNat < mode.xResolution.toNat ∧
    pixel.y.toNat < mode.yResolution.toNat

namespace ModeInfoBlock.Is32Bit

variable
  {mode : ModeInfoBlock}
  {pixel other : Pixel}

/-- The rows up to one of the screen lie in the framebuffer. -/
theorem row_fits
    {y : Nat}
    (onScreen : y < mode.yResolution.toNat) :
    mode.physicalBasePointer.toNat +
        (y * mode.bytesPerScanline.toNat + mode.bytesPerScanline.toNat) ≤
      mode.physicalBasePointer.toNat +
        mode.yResolution.toNat * mode.bytesPerScanline.toNat := by
  have rows :=
    Nat.mul_le_mul_right mode.bytesPerScanline.toNat
      (Nat.succ_le_of_lt onScreen)
  rw [Nat.succ_mul] at rows
  omega

/-- `y*BytesPerScanline/4` words are the bytes of the rows above `y`. -/
theorem toNat_rowOffset
    (is32Bit : mode.Is32Bit)
    {y : BitVec 32}
    (onScreen : y.toNat < mode.yResolution.toNat) :
    (4 * (y * mode.bytesPerScanline.setWidth 32 / 4)).toNat =
      y.toNat * mode.bytesPerScanline.toNat := by
  have bounded := mode.bytesPerScanline.isLt
  have rows := mode.yResolution.isLt
  have small : y.toNat * mode.bytesPerScanline.toNat ≤ 65535 * 65535 :=
    Nat.mul_le_mul (by omega) (by omega)
  have whole : (y * mode.bytesPerScanline.setWidth 32).toNat =
      y.toNat * mode.bytesPerScanline.toNat := by
    rw [BitVec.toNat_mul, BitVec.toNat_setWidth,
      Nat.mod_eq_of_lt (show mode.bytesPerScanline.toNat < 2 ^ 32 by omega)]
    exact Nat.mod_eq_of_lt (by omega)
  have divides : y.toNat * mode.bytesPerScanline.toNat % 4 = 0 := by
    rw [Nat.mul_mod, is32Bit.aligned, Nat.mul_zero, Nat.zero_mod]
  rw [BitVec.toNat_mul, BitVec.toNat_udiv, whole]
  have four : (4 : BitVec 32).toNat = 4 := rfl
  rw [four, Nat.mul_div_cancel' (Nat.dvd_of_mod_eq_zero divides)]
  exact Nat.mod_eq_of_lt (by omega)

/-- The size of a pixel as a number of 32 bits. -/
theorem setWidth_bitsPerPixel (is32Bit : mode.Is32Bit) :
    mode.bitsPerPixel.setWidth 32 = (32 : BitVec 32) := by
  rw [is32Bit.bits]
  rfl

/-- Where the word of a pixel lies. -/
theorem toNat_pixelPointer
    (is32Bit : mode.Is32Bit)
    (onScreen : mode.OnScreen pixel) :
    (mode.pixelPointer pixel).toNat =
      mode.physicalBasePointer.toNat +
        (pixel.y.toNat * mode.bytesPerScanline.toNat +
          4 * pixel.x.toNat) := by
  have fits := is32Bit.fits
  have wide := is32Bit.wide
  have row := row_fits onScreen.2
  have column := onScreen.1
  have resolution := mode.xResolution.isLt
  have four : (4 : BitVec 32).toNat = 4 := rfl
  have bits : (32 : BitVec 32).toNat = 32 := rfl
  have columns : (4 * (pixel.x * 32 / 32)).toNat = 4 * pixel.x.toNat := by
    rw [BitVec.toNat_mul, BitVec.toNat_udiv, BitVec.toNat_mul, four, bits]
    omega
  rw [ModeInfoBlock.pixelPointer, is32Bit.setWidth_bitsPerPixel,
    BitVec.toNat_add, BitVec.toNat_add, columns,
    is32Bit.toNat_rowOffset onScreen.2]
  omega

/-- The word of a pixel lies in the framebuffer. -/
theorem pixelPointer_fits
    (is32Bit : mode.Is32Bit)
    (onScreen : mode.OnScreen pixel) :
    (mode.pixelPointer pixel).toNat + 4 ≤
      mode.physicalBasePointer.toNat +
        mode.yResolution.toNat * mode.bytesPerScanline.toNat := by
  have wide := is32Bit.wide
  have row := row_fits onScreen.2
  have column := onScreen.1
  rw [is32Bit.toNat_pixelPointer onScreen]
  omega

/-- The word of a pixel lies in the address space. -/
theorem pixelPointer_room
    (is32Bit : mode.Is32Bit)
    (onScreen : mode.OnScreen pixel) :
    (mode.pixelPointer pixel).toNat + 4 ≤ 2 ^ 32 :=
  Nat.le_trans (is32Bit.pixelPointer_fits onScreen) is32Bit.fits

/-- The words of two pixels lie apart. -/
theorem pixelPointer_apart
    (is32Bit : mode.Is32Bit)
    (onScreen : mode.OnScreen pixel)
    (otherOnScreen : mode.OnScreen other)
    (different : other ≠ pixel) :
    WordsApart (mode.pixelPointer other) (mode.pixelPointer pixel) := by
  have wide := is32Bit.wide
  have column := onScreen.1
  have otherColumn := otherOnScreen.1
  rw [WordsApart, is32Bit.toNat_pixelPointer onScreen,
    is32Bit.toNat_pixelPointer otherOnScreen]
  rcases Nat.lt_trichotomy other.y.toNat pixel.y.toNat with
    above | same | below
  · have rows :=
      Nat.mul_le_mul_right mode.bytesPerScanline.toNat
        (Nat.succ_le_of_lt above)
    rw [Nat.succ_mul] at rows
    omega
  · have columns : other.x.toNat ≠ pixel.x.toNat := by
      intro sameColumn
      refine different ?_
      cases other
      cases pixel
      rw [Pixel.mk.injEq]
      exact ⟨BitVec.eq_of_toNat_eq sameColumn, BitVec.eq_of_toNat_eq same⟩
    rw [same]
    omega
  · have rows :=
      Nat.mul_le_mul_right mode.bytesPerScanline.toNat
        (Nat.succ_le_of_lt below)
    rw [Nat.succ_mul] at rows
    omega

end ModeInfoBlock.Is32Bit

end HobbyOS
