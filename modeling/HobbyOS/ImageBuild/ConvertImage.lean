import HobbyOS.ImageBuild.AddFile
import HobbyOS.Library.BitStream

namespace HobbyOS

open Library

/-!
# Mask images

`convert_image.py` behind the resize: the width and the height of an image in
four bytes each, and then a bit for each pixel, row by row, which is set for an
opaque pixel.  Bits behind the last complete byte are lost.
-/

/-- An image, with the alpha of the pixel in column `x` and row `y`. -/
structure Image where
  width : Nat
  height : Nat
  alpha : Nat → Nat → Byte

/-- The pixels of the two loops of `main`, in order. -/
def Image.pixels (image : Image) : List (Nat × Nat) :=
  (List.range image.height).flatMap fun y =>
    (List.range image.width).map fun x => (x, y)

/-- The variables of the loops of `main`. -/
structure Conversion where
  binary : List Byte
  i : Nat
  b : Nat

/-- The body of the loops of `main`, for the alpha `pix[3]`. -/
def convertPixel
    (conversion : Conversion)
    (alpha : Byte) :
    Except Exit Conversion :=
  let b :=
    if alpha = 255 then conversion.b ||| 1 <<< conversion.i
    else conversion.b
  let i := conversion.i + 1
  if i = 8 then
    -- `binary.append` raises if its argument is no byte
    if b < 256 then
      .ok { binary := conversion.binary ++ [BitVec.ofNat 8 b], i := 0, b := 0 }
    else
      .error .valueError
  else
    .ok { conversion with i, b }

/-- `main`, from the resized image to the bytes that are written. -/
def convertImage (image : Image) : Except Exit (List Byte) := do
  let width ← toBytes image.width 4
  let height ← toBytes image.height 4
  let start : Conversion := { binary := width ++ height, i := 0, b := 0 }
  let final ←
    image.pixels.foldlM
      (fun conversion pixel =>
        convertPixel conversion (image.alpha pixel.1 pixel.2))
      start
  return final.binary

/-! ## The bits of an image -/

/-- The bit of a pixel. -/
def Image.bit (image : Image) (pixel : Nat × Nat) : Bool :=
  image.alpha pixel.1 pixel.2 = 255

/-- The bits behind a header, complete bytes and the ones in `b`. -/
def Converted
    (header : List Byte)
    (bits : List Bool)
    (conversion : Conversion) :
    Prop :=
  ∃ bytes,
    conversion.binary = header ++ bytes ∧
      Packed bits bytes conversion.i conversion.b

/-- A pixel adds its bit. -/
theorem converted_convertPixel
    {header : List Byte}
    {bits : List Bool}
    {conversion : Conversion}
    (converted : Converted header bits conversion)
    (alpha : Byte) :
    ∃ next,
      convertPixel conversion alpha = .ok next ∧
        Converted header (bits ++ [decide (alpha = 255)]) next := by
  obtain ⟨bytes, binary, packed⟩ := converted
  have pending :
      (if alpha = 255 then conversion.b ||| 1 <<< conversion.i
        else conversion.b) =
      withBit conversion.b conversion.i (decide (alpha = 255)) := by
    rw [withBit]
    simp only [decide_eq_true_eq]
  rw [convertPixel, pending]
  by_cases complete : conversion.i + 1 = 8
  · have byte := packed.withBit_lt (decide (alpha = 255))
    rw [if_pos complete, if_pos (show _ < 256 from byte)]
    refine ⟨_, rfl, _, ?_, packed.push_last _ complete⟩
    rw [binary, List.append_assoc]
  · rw [if_neg complete]
    exact ⟨_, rfl, bytes, binary, packed.push _ complete⟩

/-- The loops add the bits of their pixels. -/
theorem converted_foldlM
    {header : List Byte}
    {bits : List Bool}
    {conversion : Conversion}
    (image : Image)
    (pixels : List (Nat × Nat))
    (converted : Converted header bits conversion) :
    ∃ final,
      pixels.foldlM
          (fun conversion pixel =>
            convertPixel conversion (image.alpha pixel.1 pixel.2))
          conversion =
        .ok final ∧
        Converted header (bits ++ pixels.map image.bit) final := by
  induction pixels generalizing bits conversion with
  | nil =>
      refine ⟨conversion, rfl, ?_⟩
      rwa [List.map_nil, List.append_nil]
  | cons pixel pixels inductionHypothesis =>
      obtain ⟨next, stepped, after⟩ :=
        converted_convertPixel converted (image.alpha pixel.1 pixel.2)
      obtain ⟨final, ended, behind⟩ := inductionHypothesis after
      refine ⟨final, ?_, ?_⟩
      · rw [List.foldlM_cons, stepped]
        exact ended
      · rwa [List.append_assoc, List.singleton_append] at behind

/-- The number of pixels. -/
theorem Image.length_pixels (image : Image) :
    image.pixels.length = image.width * image.height := by
  simp only [Image.pixels, List.length_flatMap, List.length_map,
    List.length_range, List.map_const', List.sum_replicate_nat]
  exact Nat.mul_comm _ _

/-- The pixels are those in the width and the height. -/
theorem Image.mem_pixels_iff
    {image : Image}
    {pixel : Nat × Nat} :
    pixel ∈ image.pixels ↔
      pixel.1 < image.width ∧ pixel.2 < image.height := by
  simp only [Image.pixels, List.mem_flatMap, List.mem_map, List.mem_range]
  constructor
  · rintro ⟨y, row, x, column, rfl⟩
    exact ⟨column, row⟩
  · rintro ⟨column, row⟩
    exact ⟨pixel.2, row, pixel.1, column, rfl⟩

/-- The bytes of a number that fits. -/
theorem toBytes_four
    {value : Nat}
    {bytes : List Byte}
    (stored : toBytes value 4 = .ok bytes) :
    bytes.length = 4 ∧
      ∀ offset < 4,
        bytes.getD offset 0 = BitVec.ofNat 8 (value / 256 ^ offset) := by
  unfold toBytes at stored
  split at stored
  · rw [Except.ok.injEq] at stored
    subst stored
    refine ⟨by rw [List.length_map, List.length_range], ?_⟩
    intro offset inside
    rw [List.getD_eq_getElem _ _
      (by rwa [List.length_map, List.length_range]), List.getElem_map,
      List.getElem_range]
  · cases stored

/-! ## The file of an image -/

section Files

variable
  {image : Image}
  {width height : List Byte}

/-- The bits of an image are stored behind its size. -/
theorem convertImage_converted
    (widthBytes : toBytes image.width 4 = .ok width)
    (heightBytes : toBytes image.height 4 = .ok height) :
    ∃ final,
      convertImage image = .ok final.binary ∧
        Converted (width ++ height) (image.pixels.map image.bit) final := by
  have start :
      Converted (width ++ height) []
        { binary := width ++ height, i := 0, b := 0 } :=
    ⟨[], (List.append_nil _).symm, Packed.empty⟩
  obtain ⟨final, ended, converted⟩ :=
    converted_foldlM image image.pixels start
  refine ⟨final, ?_, converted⟩
  rw [convertImage, widthBytes, heightBytes]
  simp only [bind, Except.bind] at ended ⊢
  rw [ended]
  rfl

/-- An image whose width and height fit in four bytes is converted. -/
theorem convertImage_ok
    (widthFits : image.width < 2 ^ 32)
    (heightFits : image.height < 2 ^ 32) :
    ∃ file, convertImage image = .ok file := by
  obtain ⟨final, converted, _⟩ :=
    convertImage_converted (if_pos widthFits) (if_pos heightFits)
  exact ⟨_, converted⟩

/-- What the file of an image holds. -/
structure MaskFile (image : Image) (file : List Byte) : Prop where
  width :
    ∀ offset < 4,
      file.getD offset 0 = BitVec.ofNat 8 (image.width / 256 ^ offset)
  height :
    ∀ offset < 4,
      file.getD (4 + offset) 0 = BitVec.ofNat 8 (image.height / 256 ^ offset)
  total : file.length = 8 + image.width * image.height / 8
  bits :
    ∀ index < 8 * (image.width * image.height / 8),
      bitOf (file.drop 8) index =
        (image.pixels.map image.bit).getD index false

/-- A converted image is stored as its size and its bits. -/
theorem maskFile_of_convertImage
    {file : List Byte}
    (written : convertImage image = .ok file) :
    MaskFile image file := by
  cases widthBytes : toBytes image.width 4 with
  | error raised =>
      rw [convertImage, widthBytes] at written
      cases written
  | ok width =>
      cases heightBytes : toBytes image.height 4 with
      | error raised =>
          rw [convertImage, widthBytes, heightBytes] at written
          cases written
      | ok height =>
          obtain ⟨final, same, bytes, binary, packed⟩ :=
            convertImage_converted widthBytes heightBytes
          rw [same, Except.ok.injEq, binary] at written
          subst written
          obtain ⟨widthLength, widthAt⟩ := toBytes_four widthBytes
          obtain ⟨heightLength, heightAt⟩ := toBytes_four heightBytes
          have total := packed.total
          have small := packed.small
          rw [List.length_map, Image.length_pixels] at total
          have header : (width ++ height).length = 8 := by
            rw [List.length_append, widthLength, heightLength]
          refine ⟨?_, ?_, ?_, ?_⟩
          · intro offset inside
            rw [List.append_assoc, List.getD_append _ _ _ _ (by omega)]
            exact widthAt offset inside
          · intro offset inside
            rw [List.getD_append _ _ _ _ (by omega),
              List.getD_append_right _ _ _ _ (by omega), widthLength,
              Nat.add_sub_cancel_left]
            exact heightAt offset inside
          · rw [List.length_append, header]
            omega
          · intro index inside
            rw [List.drop_left' header]
            exact packed.stored index (by omega)

end Files

end HobbyOS
