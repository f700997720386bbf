import HobbyOS.Video.Shapes

namespace HobbyOS

open Library

/-!
# Blending

Colors are `0xAARRGGBB`, but `Pixel_t` names the bytes of a word from the least
significant one on.  `sc_setpixel` tests the alpha of the color for opacity and
then takes its blue channel for the weight: red and green move by it, blue
stays, and the byte above red is blended with the alpha itself.  A fill with a
color that is not opaque therefore blends only the contents for which the two
weights come to the same.
-/

/-- The channels of a color `0xAARRGGBB`. -/
structure Argb where
  alpha : Byte
  red : Byte
  green : Byte
  blue : Byte

/-- The channels of the color in a word. -/
def Argb.ofWord (word : BitVec 32) : Argb where
  alpha := word.extractLsb' 24 8
  red := word.extractLsb' 16 8
  green := word.extractLsb' 8 8
  blue := word.extractLsb' 0 8

/-- 255 times the mean of two channels, for a weight of the second. -/
def weightedSum (weight old color : Byte) : Nat :=
  old.toNat * (255 - weight.toNat) + color.toNat * weight.toNat

/--
A channel lies between its old value and that of the color, and is the mean
weighted by the alpha, rounded down or up.
-/
structure ChannelBlended (alpha old color new : Byte) : Prop where
  lower : min old.toNat color.toNat ≤ new.toNat
  upper : new.toNat ≤ max old.toNat color.toNat
  above : weightedSum alpha old color < 255 * new.toNat + 255
  below : 255 * new.toNat < weightedSum alpha old color + 255

/-- A pixel that a color was drawn to. -/
structure PixelBlended (color old new : BitVec 32) : Prop where
  full : (Argb.ofWord color).alpha = 0xFF → new = color
  none : (Argb.ofWord color).alpha = 0 → new = old
  partly :
    (Argb.ofWord color).alpha ≠ 0xFF →
    (Argb.ofWord color).alpha ≠ 0 →
    ChannelBlended (Argb.ofWord color).alpha (Argb.ofWord old).red
        (Argb.ofWord color).red (Argb.ofWord new).red ∧
      ChannelBlended (Argb.ofWord color).alpha (Argb.ofWord old).green
        (Argb.ofWord color).green (Argb.ofWord new).green ∧
      ChannelBlended (Argb.ofWord color).alpha (Argb.ofWord old).blue
        (Argb.ofWord color).blue (Argb.ofWord new).blue

/-- A fill blends the pixels of its rectangle and leaves the others. -/
def FillBlends
    (mode : ModeInfoBlock)
    (memory : Memory)
    (x1 y1 x2 y2 color : BitVec 32) :
    Prop :=
  ∃ fuel after,
    scFill fuel mode memory x1 y1 x2 y2 color = some after ∧
      ∀ pixel,
        mode.OnScreen pixel →
        if InRectangle x1 y1 x2 y2 pixel then
          PixelBlended color (readWord memory (mode.pixelPointer pixel))
            (readWord after (mode.pixelPointer pixel))
        else
          readWord after (mode.pixelPointer pixel) =
            readWord memory (mode.pixelPointer pixel)

/--
The two sums of a channel, one weighted by the alpha and to be divided by 255,
one weighted by blue and to be divided by 256, have the same mean up to
rounding.
-/
def SumsAgree (alpha blue old color : Byte) : Prop :=
  256 * (weightedSum alpha old color / 255) ≤ weightedSum blue old color ∧
    weightedSum blue old color <
      256 * ((weightedSum alpha old color + 254) / 255 + 1)

instance (alpha blue old color : Byte) :
    Decidable (SumsAgree alpha blue old color) :=
  inferInstanceAs (Decidable (_ ∧ _))

/--
Blending by blue is blending by alpha: red and green have the same means, the
blue channel is so near to that of the color that it may stay, and a color
that must leave the pixel finds nothing above its red channel.
-/
structure WeightsAgree (color old : Argb) : Prop where
  red : SumsAgree color.alpha color.blue old.red color.red
  green : SumsAgree color.alpha color.blue old.green color.green
  less : color.alpha.toNat * (old.blue.toNat - color.blue.toNat) < 255
  more : color.alpha.toNat * (color.blue.toNat - old.blue.toNat) < 255
  top : color.alpha = 0 → old.alpha = 0

/-! ## Single channels -/

section Channels

variable {weight alpha blue old color new : Byte}

/-- The sum for equal values is 255 times the value. -/
theorem weightedSum_self (weight value : Byte) :
    weightedSum weight value value = 255 * value.toNat := by
  have bounded := weight.isLt
  rw [weightedSum, ← Nat.mul_add, Nat.sub_add_cancel (by omega), Nat.mul_comm]

/-- The mean is not below both values. -/
theorem min_le_weightedSum :
    255 * min old.toNat color.toNat ≤ weightedSum weight old color := by
  have bounded := weight.isLt
  have first :=
    Nat.mul_le_mul_right (255 - weight.toNat)
      (Nat.min_le_left old.toNat color.toNat)
  have second :=
    Nat.mul_le_mul_right weight.toNat
      (Nat.min_le_right old.toNat color.toNat)
  have whole :
      255 * min old.toNat color.toNat =
        min old.toNat color.toNat * (255 - weight.toNat) +
          min old.toNat color.toNat * weight.toNat := by
    rw [← Nat.mul_add, Nat.sub_add_cancel (by omega), Nat.mul_comm]
  rw [weightedSum]
  omega

/-- The mean is not above both values. -/
theorem weightedSum_le_max :
    weightedSum weight old color ≤ 255 * max old.toNat color.toNat := by
  have bounded := weight.isLt
  have first :=
    Nat.mul_le_mul_right (255 - weight.toNat)
      (Nat.le_max_left old.toNat color.toNat)
  have second :=
    Nat.mul_le_mul_right weight.toNat
      (Nat.le_max_right old.toNat color.toNat)
  have whole :
      255 * max old.toNat color.toNat =
        max old.toNat color.toNat * (255 - weight.toNat) +
          max old.toNat color.toNat * weight.toNat := by
    rw [← Nat.mul_add, Nat.sub_add_cancel (by omega), Nat.mul_comm]
  rw [weightedSum]
  omega

/-- A rounded mean lies between the values. -/
theorem channelBlended_iff :
    ChannelBlended alpha old color new ↔
      weightedSum alpha old color < 255 * new.toNat + 255 ∧
        255 * new.toNat < weightedSum alpha old color + 255 := by
  constructor
  · intro blended
    exact ⟨blended.above, blended.below⟩
  · rintro ⟨above, below⟩
    have low := @min_le_weightedSum alpha old color
    have high := @weightedSum_le_max alpha old color
    exact ⟨by omega, by omega, above, below⟩

/-- What `sc_setpixel` leaves in a channel. -/
theorem toNat_blendChannel :
    (blendChannel old color weight).toNat =
      weightedSum weight old color / 256 := by
  have high := @weightedSum_le_max weight old color
  have oldBounded := old.isLt
  have colorBounded := color.isLt
  rw [blendChannel, BitVec.toNat_ofNat]
  exact Nat.mod_eq_of_lt (by rw [weightedSum] at high; omega)

/-- Blending by blue blends by alpha if the sums agree. -/
theorem channelBlended_blendChannel_iff :
    ChannelBlended alpha old color (blendChannel old color blue) ↔
      SumsAgree alpha blue old color := by
  rw [channelBlended_iff, toNat_blendChannel, SumsAgree]
  omega

/-- Under a color that must not show, only a kept channel is blended. -/
theorem channelBlended_zero_iff :
    ChannelBlended 0 old color new ↔ new = old := by
  have zero : weightedSum 0 old color = 255 * old.toNat := by
    change old.toNat * 255 + color.toNat * 0 = _
    omega
  rw [channelBlended_iff, zero, ← BitVec.toNat_inj]
  omega

/-- A channel that stays is blended if the color is near enough. -/
theorem channelBlended_self_iff :
    ChannelBlended alpha old color old ↔
      alpha.toNat * (old.toNat - color.toNat) < 255 ∧
        alpha.toNat * (color.toNat - old.toNat) < 255 := by
  have bounded := alpha.isLt
  have whole :
      255 * old.toNat =
        old.toNat * (255 - alpha.toNat) + old.toNat * alpha.toNat := by
    rw [← Nat.mul_add, Nat.sub_add_cancel (by omega), Nat.mul_comm]
  have less :
      alpha.toNat * (old.toNat - color.toNat) =
        old.toNat * alpha.toNat - color.toNat * alpha.toNat := by
    rw [Nat.mul_comm, Nat.sub_mul]
  have more :
      alpha.toNat * (color.toNat - old.toNat) =
        color.toNat * alpha.toNat - old.toNat * alpha.toNat := by
    rw [Nat.mul_comm, Nat.sub_mul]
  rw [channelBlended_iff, weightedSum, whole, less, more]
  omega

/-- Blending nothing into a channel keeps it only if it is empty. -/
theorem blendChannel_zero_iff :
    blendChannel old 0 weight = old ↔ old = 0 := by
  have less :=
    Nat.mul_le_mul_left old.toNat (Nat.sub_le 255 weight.toNat)
  have sum :
      weightedSum weight old 0 = old.toNat * (255 - weight.toNat) := by
    change _ + 0 * _ = _
    rw [Nat.zero_mul, Nat.add_zero]
  have zero : (0 : Byte).toNat = 0 := rfl
  rw [← BitVec.toNat_inj, ← BitVec.toNat_inj, toNat_blendChannel, sum, zero]
  omega

end Channels

/-! ## Single pixels -/

/-- The channels of a color are the fields of its `Pixel_t` by other names. -/
theorem Argb.ofWord_eq (word : BitVec 32) :
    Argb.ofWord word =
      { alpha := (PixelT.ofWord word).blue
        red := (PixelT.ofWord word).green
        green := (PixelT.ofWord word).red
        blue := (PixelT.ofWord word).alpha } :=
  rfl

/-- A word is determined by its channels. -/
theorem Argb.ofWord_injective : Function.Injective Argb.ofWord := by
  intro first second same
  rw [Argb.ofWord, Argb.ofWord, Argb.mk.injEq] at same
  obtain ⟨alpha, red, green, blue⟩ := same
  refine BitVec.eq_of_getLsbD_eq fun i inside => ?_
  have channel {start : Nat}
      (equal : first.extractLsb' start 8 = second.extractLsb' start 8)
      (above : start ≤ i)
      (below : i < start + 8) :
      first.getLsbD i = second.getLsbD i := by
    have bit := congrArg (fun byte => byte.getLsbD (i - start)) equal
    rwa [BitVec.getLsbD_extractLsb', BitVec.getLsbD_extractLsb',
      decide_eq_true (show i - start < 8 by omega), Bool.true_and,
      Bool.true_and, Nat.add_sub_cancel' above] at bit
  rcases Nat.lt_or_ge i 8 with low | high
  · exact channel blue (by omega) (by omega)
  · rcases Nat.lt_or_ge i 16 with low | high
    · exact channel green (by omega) (by omega)
    · rcases Nat.lt_or_ge i 24 with low | high
      · exact channel red (by omega) (by omega)
      · exact channel alpha (by omega) (by omega)

/-- The test of `sc_setpixel` for opacity. -/
theorem opaque_iff (color : BitVec 32) :
    color &&& 0xFF000000 = 0xFF000000 ↔ (Argb.ofWord color).alpha = 0xFF := by
  have set : ∀ i < 8, (0xFF000000 : BitVec 32).getLsbD (24 + i) = true := by
    decide
  have clear : ∀ i < 24, (0xFF000000 : BitVec 32).getLsbD i = false := by
    decide
  have full : ∀ i < 8, (0xFF : BitVec 8).getLsbD i = true := by
    decide
  constructor
  · intro masked
    refine BitVec.eq_of_getLsbD_eq fun i inside => ?_
    have bit := congrArg (fun word => word.getLsbD (24 + i)) masked
    rw [BitVec.getLsbD_and, set i inside, Bool.and_true] at bit
    rw [Argb.ofWord, BitVec.getLsbD_extractLsb', decide_eq_true inside, bit,
      full i inside, Bool.and_true]
  · intro alpha
    refine BitVec.eq_of_getLsbD_eq fun i inside => ?_
    rw [BitVec.getLsbD_and]
    rcases Nat.lt_or_ge i 24 with low | high
    · rw [clear i low, Bool.and_false]
    · have bit := congrArg (fun byte => byte.getLsbD (i - 24)) alpha
      dsimp only [Argb.ofWord] at bit
      rw [BitVec.getLsbD_extractLsb', decide_eq_true (by omega),
        Bool.true_and, Nat.add_sub_cancel' high, full _ (by omega)] at bit
      rw [bit, Bool.true_and]

/-- The channels that a color that is not opaque leaves. -/
theorem ofWord_pixelAfter
    {color : BitVec 32}
    (notOpaque : (Argb.ofWord color).alpha ≠ 0xFF)
    (prev : BitVec 32) :
    Argb.ofWord (pixelAfter color prev) =
      { alpha :=
          blendChannel (Argb.ofWord prev).alpha (Argb.ofWord color).alpha
            (Argb.ofWord color).blue
        red :=
          blendChannel (Argb.ofWord prev).red (Argb.ofWord color).red
            (Argb.ofWord color).blue
        green :=
          blendChannel (Argb.ofWord prev).green (Argb.ofWord color).green
            (Argb.ofWord color).blue
        blue := (Argb.ofWord prev).blue } := by
  rw [pixelAfter, if_neg ((opaque_iff color).not.mpr notOpaque)]
  dsimp only
  rw [Argb.ofWord_eq, PixelT.ofWord_toWord]
  rfl

section Pixels

variable {color old new : BitVec 32}

/-- A color that is not opaque was blended into a pixel. -/
theorem pixelBlended_iff (notOpaque : (Argb.ofWord color).alpha ≠ 0xFF) :
    PixelBlended color old new ↔
      ChannelBlended (Argb.ofWord color).alpha (Argb.ofWord old).red
          (Argb.ofWord color).red (Argb.ofWord new).red ∧
        ChannelBlended (Argb.ofWord color).alpha (Argb.ofWord old).green
          (Argb.ofWord color).green (Argb.ofWord new).green ∧
        ChannelBlended (Argb.ofWord color).alpha (Argb.ofWord old).blue
          (Argb.ofWord color).blue (Argb.ofWord new).blue ∧
        ((Argb.ofWord color).alpha = 0 →
          (Argb.ofWord new).alpha = (Argb.ofWord old).alpha) := by
  constructor
  · intro blended
    by_cases nothing : (Argb.ofWord color).alpha = 0
    · rw [blended.none nothing, nothing]
      exact
        ⟨channelBlended_zero_iff.mpr rfl, channelBlended_zero_iff.mpr rfl,
          channelBlended_zero_iff.mpr rfl, fun _ => rfl⟩
    · obtain ⟨red, green, blue⟩ := blended.partly notOpaque nothing
      exact ⟨red, green, blue, fun zero => absurd zero nothing⟩
  · rintro ⟨red, green, blue, top⟩
    refine ⟨fun full => absurd full notOpaque, fun nothing => ?_,
      fun _ _ => ⟨red, green, blue⟩⟩
    rw [nothing, channelBlended_zero_iff] at red green blue
    refine Argb.ofWord_injective ?_
    cases channels : Argb.ofWord new
    cases oldChannels : Argb.ofWord old
    rw [channels, oldChannels] at red green blue top
    rw [Argb.mk.injEq]
    exact ⟨top nothing, red, green, blue⟩

/-- `sc_setpixel` blends a pixel if the color is opaque or the weights agree. -/
theorem pixelBlended_pixelAfter_iff :
    PixelBlended color old (pixelAfter color old) ↔
      (Argb.ofWord color).alpha = 0xFF ∨
        WeightsAgree (Argb.ofWord color) (Argb.ofWord old) := by
  by_cases full : (Argb.ofWord color).alpha = 0xFF
  · have drawn : pixelAfter color old = color :=
      if_pos ((opaque_iff color).mpr full)
    have some : (Argb.ofWord color).alpha ≠ 0 := by
      rw [full]
      decide
    have blended : PixelBlended color old color :=
      ⟨fun _ => rfl, fun nothing => absurd nothing some,
        fun notFull => absurd full notFull⟩
    rw [drawn]
    exact iff_of_true blended (.inl full)
  · rw [pixelBlended_iff full, ofWord_pixelAfter full, or_iff_right full]
    dsimp only
    rw [channelBlended_blendChannel_iff, channelBlended_blendChannel_iff,
      channelBlended_self_iff]
    have top :
        ((Argb.ofWord color).alpha = 0 →
          blendChannel (Argb.ofWord old).alpha (Argb.ofWord color).alpha
              (Argb.ofWord color).blue =
            (Argb.ofWord old).alpha) ↔
        ((Argb.ofWord color).alpha = 0 → (Argb.ofWord old).alpha = 0) := by
      refine imp_congr_right fun nothing => ?_
      rw [nothing, blendChannel_zero_iff]
    rw [top]
    constructor
    · rintro ⟨red, green, ⟨less, more⟩, empty⟩
      exact ⟨red, green, less, more, empty⟩
    · rintro ⟨red, green, less, more, empty⟩
      exact ⟨red, green, ⟨less, more⟩, empty⟩

end Pixels

/-! ## Fills -/

section Fills

variable
  {mode : ModeInfoBlock}
  {x1 y1 x2 y2 color : BitVec 32}

/-- A fill sets each pixel of its rectangle once. -/
theorem readWord_scFill
    (is32Bit : mode.Is32Bit)
    (onScreenX : x2.toNat < mode.xResolution.toNat)
    (onScreenY : y2.toNat < mode.yResolution.toNat)
    {fuel : Nat}
    {memory after : Memory}
    (ended : scFill fuel mode memory x1 y1 x2 y2 color = some after)
    {pixel : Pixel}
    (onScreen : mode.OnScreen pixel) :
    readWord after (mode.pixelPointer pixel) =
      if InRectangle x1 y1 x2 y2 pixel then
        pixelAfter color (readWord memory (mode.pixelPointer pixel))
      else
        readWord memory (mode.pixelPointer pixel) := by
  rw [scFill, Option.map_eq_some_iff] at ended
  obtain ⟨pixels, ended, rfl⟩ := ended
  have allOnScreen : ∀ other ∈ pixels, mode.OnScreen other :=
    fun other member =>
      onScreen_of_inRectangle onScreenX onScreenY
        ((mem_of_scFillPixels ended).mp member)
  rw [is32Bit.readWord_paint memory color onScreen allOnScreen]
  split
  next inside =>
    rw [List.count_eq_one_of_mem (nodup_of_scFillPixels ended)
      ((mem_of_scFillPixels ended).mpr inside)]
    rfl
  next outside =>
    rw [List.count_eq_zero.mpr fun member =>
      outside ((mem_of_scFillPixels ended).mp member)]
    rfl

/-- A fill blends exactly if setting each of its pixels does. -/
theorem fillBlends_iff
    (is32Bit : mode.Is32Bit)
    (onScreenX : x2.toNat < mode.xResolution.toNat)
    (onScreenY : y2.toNat < mode.yResolution.toNat)
    {memory : Memory} :
    FillBlends mode memory x1 y1 x2 y2 color ↔
      ∀ pixel,
        InRectangle x1 y1 x2 y2 pixel →
        (Argb.ofWord color).alpha = 0xFF ∨
          WeightsAgree (Argb.ofWord color)
            (Argb.ofWord (readWord memory (mode.pixelPointer pixel))) := by
  have columns := mode.xResolution.isLt
  have rows := mode.yResolution.isLt
  constructor
  · rintro ⟨fuel, after, ended, blends⟩ pixel inside
    have onScreen := onScreen_of_inRectangle onScreenX onScreenY inside
    have blended := blends pixel onScreen
    rw [if_pos inside,
      readWord_scFill is32Bit onScreenX onScreenY ended onScreen,
      if_pos inside] at blended
    exact pixelBlended_pixelAfter_iff.mp blended
  · intro agree
    obtain ⟨enough, pixels, ends⟩ :=
      @scFillPixels_ends x1 y1 x2 y2 (by omega) (by omega)
    have ended :
        scFill enough mode memory x1 y1 x2 y2 color =
          some (paint mode memory color pixels) := by
      rw [scFill, ends enough (Nat.le_refl _), Option.map_some]
    refine ⟨enough, paint mode memory color pixels, ended,
      fun pixel onScreen => ?_⟩
    rw [readWord_scFill is32Bit onScreenX onScreenY ended onScreen]
    split
    next inside =>
      exact pixelBlended_pixelAfter_iff.mpr (agree pixel inside)
    next =>
      rfl

/-- No color but an opaque one has weights that always agree. -/
theorem full_of_weightsAgree
    {color : Argb}
    (agree :
      ∀ red green blue,
        WeightsAgree color { alpha := 0, red, green, blue }) :
    color.alpha = 0xFF := by
  have alphaBounded := color.alpha.isLt
  have blueBounded := color.blue.isLt
  have most : (255 : Byte).toNat = 255 := rfl
  have least : (0 : Byte).toNat = 0 := rfl
  -- A channel that has its color already is kept only if it is empty.
  have kept := (agree color.red 0 0).red.1
  dsimp only at kept
  rw [weightedSum_self, weightedSum_self] at kept
  -- The full channel fixes the difference of the weights.
  obtain ⟨low, high⟩ := (agree 255 0 0).red
  dsimp only at low high
  have none : color.red.toNat = 0 := by
    omega
  rw [weightedSum, weightedSum, none, most, Nat.zero_mul, Nat.zero_mul]
    at low high
  -- The two ends of the blue channel bound the alpha.
  have less := (agree 0 0 255).less
  have more := (agree 0 0 0).more
  dsimp only at less more
  rw [most] at less
  rw [least, Nat.sub_zero] at more
  have whole :
      color.alpha.toNat * (255 - color.blue.toNat) +
          color.alpha.toNat * color.blue.toNat =
        color.alpha.toNat * 255 := by
    rw [← Nat.mul_add, Nat.sub_add_cancel (by omega)]
  refine BitVec.eq_of_toNat_eq ?_
  by_contra notFull
  rw [show (0xFF : Byte).toNat = 255 from rfl] at notFull
  obtain none | one : color.alpha.toNat = 0 ∨ color.alpha.toNat = 1 := by
    omega
  · omega
  · rw [one] at less
    omega

/-- A fill of some pixels blends all contents only if the color is opaque. -/
theorem fillBlends_all_iff
    (is32Bit : mode.Is32Bit)
    (orderedX : x1 ≤ x2)
    (onScreenX : x2.toNat < mode.xResolution.toNat)
    (orderedY : y1 ≤ y2)
    (onScreenY : y2.toNat < mode.yResolution.toNat) :
    (∀ memory, FillBlends mode memory x1 y1 x2 y2 color) ↔
      (Argb.ofWord color).alpha = 0xFF := by
  simp only [fillBlends_iff is32Bit onScreenX onScreenY]
  constructor
  · intro agree
    by_contra notFull
    refine notFull (full_of_weightsAgree fun red green blue => ?_)
    let corner : Pixel := { x := x1, y := y1 }
    let fields : PixelT :=
      { alpha := blue, red := green, green := red, blue := 0 }
    have inside : InRectangle x1 y1 x2 y2 corner :=
      ⟨⟨BitVec.le_refl _, orderedX⟩, BitVec.le_refl _, orderedY⟩
    have agrees :=
      agree
        (writeWord (fun _ => 0) (mode.pixelPointer corner) fields.toWord)
        corner inside
    rwa [or_iff_right notFull, readWord_writeWord_self,
      Argb.ofWord_eq fields.toWord, PixelT.ofWord_toWord] at agrees
  · exact fun full memory pixel inside => .inl full

/--
A fill of a rectangle on the screen blends exactly if the color is opaque or
the weights agree at every pixel of the rectangle, and if there are pixels then
it blends all contents exactly if the color is opaque.
-/
theorem scFill_blends_iff
    (is32Bit : mode.Is32Bit)
    (onScreenX : x2.toNat < mode.xResolution.toNat)
    (onScreenY : y2.toNat < mode.yResolution.toNat) :
    (∀ memory,
        FillBlends mode memory x1 y1 x2 y2 color ↔
          ∀ pixel,
            InRectangle x1 y1 x2 y2 pixel →
            (Argb.ofWord color).alpha = 0xFF ∨
              WeightsAgree (Argb.ofWord color)
                (Argb.ofWord (readWord memory (mode.pixelPointer pixel)))) ∧
      (x1 ≤ x2 →
        y1 ≤ y2 →
        ((∀ memory, FillBlends mode memory x1 y1 x2 y2 color) ↔
          (Argb.ofWord color).alpha = 0xFF)) :=
  ⟨fun _ => fillBlends_iff is32Bit onScreenX onScreenY,
    fun orderedX orderedY =>
      fillBlends_all_iff is32Bit orderedX onScreenX orderedY onScreenY⟩

end Fills

/-- The words of a memory of zeros. -/
theorem readWord_zero (address : PtrT) :
    readWord (fun _ => 0) address = 0 := by
  rw [readWord]
  rfl

/-- The weights of a faint color agree over black. -/
theorem weightsAgree_faint :
    WeightsAgree (Argb.ofWord 0x0F80800F) (Argb.ofWord 0) :=
  ⟨by decide, by decide, by decide, by decide, by decide⟩

/-- A faint color over black. -/
theorem scFill_blends_iff_faint :
    mode640x480.Is32Bit ∧
      FillBlends mode640x480 (fun _ => 0) 5 5 20 20 0x0F80800F :=
  ⟨mode640x480_is32Bit,
    ((scFill_blends_iff mode640x480_is32Bit (by decide) (by decide)).1 _).mpr
      fun pixel _ => .inr <| by
        rw [readWord_zero]
        exact weightsAgree_faint⟩

/-- Half transparent red over black leaves black. -/
theorem scFill_blends_fails :
    mode640x480.Is32Bit ∧
      ¬FillBlends mode640x480 (fun _ => 0) 0 0 0 0 0x80FF0000 := by
  refine ⟨mode640x480_is32Bit, fun blends => ?_⟩
  rw [fillBlends_iff mode640x480_is32Bit (by decide) (by decide)] at blends
  rcases blends { x := 0, y := 0 } (by decide) with full | agree
  · exact absurd full (by decide)
  · rw [readWord_zero] at agree
    exact absurd agree.red (by decide)

end HobbyOS
