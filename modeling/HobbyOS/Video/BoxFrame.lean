import HobbyOS.Video.Shapes

namespace HobbyOS

open Library

/-!
# The frame of a box

`sc_box` fills a strip of its thickness along each edge of the rectangle.  The
inner edges of the strips are 32-bit sums and differences that are not cut at
the other side of the rectangle, so the strips are the frame exactly if the
rectangle is at least as wide and as high as the thickness.
-/

/-- A pixel of the rectangle that is near one of its edges. -/
def InFrame
    (x1 y1 x2 y2 thickness : BitVec 32)
    (pixel : Pixel) :
    Prop :=
  InRectangle x1 y1 x2 y2 pixel ∧
    (pixel.x.toNat - x1.toNat < thickness.toNat ∨
      x2.toNat - pixel.x.toNat < thickness.toNat ∨
      pixel.y.toNat - y1.toNat < thickness.toNat ∨
      y2.toNat - pixel.y.toNat < thickness.toNat)

instance (x1 y1 x2 y2 thickness : BitVec 32) (pixel : Pixel) :
    Decidable (InFrame x1 y1 x2 y2 thickness pixel) :=
  inferInstanceAs (Decidable (_ ∧ _))

/--
`sc_box` sets the pixels of the frame and no others, and so leaves the color
in each of them and every other byte as it was.
-/
structure PaintsFrame
    (mode : ModeInfoBlock)
    (x1 y1 x2 y2 thickness color : BitVec 32) :
    Prop where
  exactly :
    ∃ fuel pixels,
      scBoxPixels fuel x1 y1 x2 y2 thickness = some pixels ∧
        ∀ pixel, pixel ∈ pixels ↔ InFrame x1 y1 x2 y2 thickness pixel
  colored :
    ∀ memory,
      ∃ fuel after,
        scBox fuel mode memory x1 y1 x2 y2 thickness color = some after ∧
          (∀ pixel,
            mode.OnScreen pixel →
            readWord after (mode.pixelPointer pixel) =
              if InFrame x1 y1 x2 y2 thickness pixel then
                color
              else
                readWord memory (mode.pixelPointer pixel)) ∧
          ∀ target,
            (∀ pixel,
              InFrame x1 y1 x2 y2 thickness pixel →
              target.toNat < (mode.pixelPointer pixel).toNat ∨
                (mode.pixelPointer pixel).toNat + 4 ≤ target.toNat) →
            after target = memory target

/-- A pixel of one of the strips that `sc_box` fills. -/
def InStrips
    (x1 y1 x2 y2 thickness : BitVec 32)
    (pixel : Pixel) :
    Prop :=
  InRectangle x1 y1 x2 (y1 + (thickness - 1)) pixel ∨
    InRectangle x1 y1 (x1 + (thickness - 1)) y2 pixel ∨
    InRectangle (x2 - (thickness - 1)) y1 x2 y2 pixel ∨
    InRectangle x1 (y2 - (thickness - 1)) x2 y2 pixel

section Boxes

variable
  {fuel : Nat}
  {x1 y1 x2 y2 thickness : BitVec 32}
  {pixels : List Pixel}

/-- A box that ends sets the pixels of its four strips. -/
theorem mem_of_scBoxPixels
    (positive : thickness ≠ 0)
    (ended : scBoxPixels fuel x1 y1 x2 y2 thickness = some pixels)
    (pixel : Pixel) :
    pixel ∈ pixels ↔ InStrips x1 y1 x2 y2 thickness pixel := by
  rw [scBoxPixels, if_neg positive] at ended
  simp only [Option.bind_eq_bind, Option.bind_eq_some_iff, Option.pure_def,
    Option.some.injEq] at ended
  obtain ⟨top, topEnded, left, leftEnded, right, rightEnded, bottom,
    bottomEnded, rfl⟩ := ended
  rw [List.mem_append, List.mem_append, List.mem_append,
    mem_of_scFillPixels topEnded, mem_of_scFillPixels leftEnded,
    mem_of_scFillPixels rightEnded, mem_of_scFillPixels bottomEnded,
    or_assoc, or_assoc, InStrips]

/-- A box ends if its strips do. -/
theorem scBoxPixels_ends
    (positive : thickness ≠ 0)
    (roomX : x2.toNat + 1 < 2 ^ 32)
    (roomY : y2.toNat + 1 < 2 ^ 32)
    (roomTop : (y1 + (thickness - 1)).toNat + 1 < 2 ^ 32)
    (roomLeft : (x1 + (thickness - 1)).toNat + 1 < 2 ^ 32) :
    ∃ fuel pixels,
      scBoxPixels fuel x1 y1 x2 y2 thickness = some pixels := by
  obtain ⟨enoughTop, top, topEnds⟩ :=
    @scFillPixels_ends x1 y1 x2 _ roomX roomTop
  obtain ⟨enoughLeft, left, leftEnds⟩ :=
    @scFillPixels_ends x1 y1 _ y2 roomLeft roomY
  obtain ⟨enoughRight, right, rightEnds⟩ :=
    @scFillPixels_ends (x2 - (thickness - 1)) y1 x2 y2 roomX roomY
  obtain ⟨enoughBottom, bottom, bottomEnds⟩ :=
    @scFillPixels_ends x1 (y2 - (thickness - 1)) x2 y2 roomX roomY
  let fuel := max (max enoughTop enoughLeft) (max enoughRight enoughBottom)
  refine ⟨fuel, top ++ left ++ right ++ bottom, ?_⟩
  rw [scBoxPixels, if_neg positive]
  dsimp only
  rw [topEnds fuel (by omega), leftEnds fuel (by omega),
    rightEnds fuel (by omega), bottomEnds fuel (by omega)]
  rfl

/-- The strips are the frame, if they end inside the rectangle. -/
theorem strips_iff_inFrame
    (orderedX : x1.toNat ≤ x2.toNat)
    (orderedY : y1.toNat ≤ y2.toNat)
    (positive : 1 ≤ thickness.toNat)
    (narrow : thickness.toNat ≤ x2.toNat - x1.toNat + 1)
    (low : thickness.toNat ≤ y2.toNat - y1.toNat + 1)
    (pixel : Pixel) :
    InStrips x1 y1 x2 y2 thickness pixel ↔
      InFrame x1 y1 x2 y2 thickness pixel := by
  have less : (thickness - 1).toNat = thickness.toNat - 1 := by
    bv_omega
  have top :
      (y1 + (thickness - 1)).toNat = y1.toNat + (thickness.toNat - 1) := by
    rw [BitVec.toNat_add, less]
    omega
  have left :
      (x1 + (thickness - 1)).toNat = x1.toNat + (thickness.toNat - 1) := by
    rw [BitVec.toNat_add, less]
    omega
  have right :
      (x2 - (thickness - 1)).toNat = x2.toNat - (thickness.toNat - 1) := by
    rw [BitVec.toNat_sub, less]
    omega
  have bottom :
      (y2 - (thickness - 1)).toNat = y2.toNat - (thickness.toNat - 1) := by
    rw [BitVec.toNat_sub, less]
    omega
  simp only [InStrips, InFrame, InRectangle, BitVec.le_def, top, left, right,
    bottom]
  omega

/-- The strips are the frame only if they end inside the rectangle. -/
theorem fits_of_strips
    (smallX : x2.toNat < 2 ^ 16)
    (smallY : y2.toNat < 2 ^ 16)
    (orderedX : x1.toNat ≤ x2.toNat)
    (orderedY : y1.toNat ≤ y2.toNat)
    (positive : 1 ≤ thickness.toNat)
    (strips :
      ∀ pixel,
        InStrips x1 y1 x2 y2 thickness pixel ↔
          InFrame x1 y1 x2 y2 thickness pixel) :
    thickness.toNat ≤ x2.toNat - x1.toNat + 1 ∧
      thickness.toNat ≤ y2.toNat - y1.toNat + 1 := by
  have bounded := thickness.isLt
  have less : (thickness - 1).toNat = thickness.toNat - 1 := by
    bv_omega
  have sum (coordinate : BitVec 32) :
      (coordinate + (thickness - 1)).toNat =
        (coordinate.toNat + (thickness.toNat - 1)) % 2 ^ 32 := by
    rw [BitVec.toNat_add, less]
  have difference (coordinate : BitVec 32) :
      (coordinate - (thickness - 1)).toNat =
        (2 ^ 32 - (thickness.toNat - 1) + coordinate.toNat) % 2 ^ 32 := by
    rw [BitVec.toNat_sub, less]
  -- The last row of the top strip and the last column of the left one.
  have row (fits : y1.toNat + (thickness.toNat - 1) < 2 ^ 32) :
      y1.toNat + (thickness.toNat - 1) ≤ y2.toNat := by
    have inside := (strips { x := x1, y := y1 + (thickness - 1) }).mp
      (.inl ⟨⟨BitVec.le_refl _, orderedX⟩, by
        rw [BitVec.le_def, sum, Nat.mod_eq_of_lt fits]
        exact Nat.le_add_right _ _, BitVec.le_refl _⟩)
    have low := BitVec.le_def.mp inside.1.2.2
    rwa [sum, Nat.mod_eq_of_lt fits] at low
  have column (fits : x1.toNat + (thickness.toNat - 1) < 2 ^ 32) :
      x1.toNat + (thickness.toNat - 1) ≤ x2.toNat := by
    have inside := (strips { x := x1 + (thickness - 1), y := y1 }).mp
      (.inr (.inl ⟨⟨by
        rw [BitVec.le_def, sum, Nat.mod_eq_of_lt fits]
        exact Nat.le_add_right _ _, BitVec.le_refl _⟩,
        BitVec.le_refl _, orderedY⟩))
    have narrow := BitVec.le_def.mp inside.1.1.2
    rwa [sum, Nat.mod_eq_of_lt fits] at narrow
  -- If both of them wrap around then no strip has the corner.
  have corner :
      y1.toNat + (thickness.toNat - 1) < 2 ^ 32 ∨
        x1.toNat + (thickness.toNat - 1) < 2 ^ 32 := by
    by_contra wrapped
    have set := (strips { x := x1, y := y1 }).mpr
      ⟨⟨⟨BitVec.le_refl _, orderedX⟩, BitVec.le_refl _, orderedY⟩,
        .inl (by dsimp only; omega)⟩
    simp only [InStrips, InRectangle, BitVec.le_def, sum, difference] at set
    rcases set with ⟨_, _, top⟩ | ⟨⟨_, left⟩, _⟩ | ⟨⟨right, _⟩, _⟩ |
      ⟨_, bottom, _⟩
    · omega
    · omega
    · omega
    · omega
  omega

/-- A word that an opaque color was stored to at least once is the color. -/
theorem iterate_pixelAfter_opaque
    {color : BitVec 32}
    (opaqueColor : color &&& 0xFF000000 = 0xFF000000)
    {count : Nat}
    (stored : 0 < count)
    (prev : BitVec 32) :
    (pixelAfter color)^[count] prev = color := by
  obtain ⟨count, rfl⟩ :=
    Nat.exists_eq_succ_of_ne_zero (Nat.ne_zero_of_lt stored)
  rw [Function.iterate_succ_apply', pixelAfter, if_pos opaqueColor]

/-- A box whose strips end inside the rectangle paints the frame. -/
theorem paintsFrame_of_fits
    {mode : ModeInfoBlock}
    (is32Bit : mode.Is32Bit)
    (orderedX : x1 ≤ x2)
    (onScreenX : x2.toNat < mode.xResolution.toNat)
    (orderedY : y1 ≤ y2)
    (onScreenY : y2.toNat < mode.yResolution.toNat)
    (positive : 1 ≤ thickness.toNat)
    {color : BitVec 32}
    (opaqueColor : color &&& 0xFF000000 = 0xFF000000)
    (narrow : thickness.toNat ≤ x2.toNat - x1.toNat + 1)
    (low : thickness.toNat ≤ y2.toNat - y1.toNat + 1) :
    PaintsFrame mode x1 y1 x2 y2 thickness color := by
  have columns := mode.xResolution.isLt
  have rows := mode.yResolution.isLt
  have nonzero : thickness ≠ 0 := by
    rintro rfl
    exact absurd positive (by decide)
  have less : (thickness - 1).toNat = thickness.toNat - 1 := by
    bv_omega
  rw [BitVec.le_def] at orderedX orderedY
  obtain ⟨fuel, pixels, ended⟩ :=
    @scBoxPixels_ends x1 y1 x2 y2 thickness nonzero
      (show x2.toNat + 1 < 2 ^ 32 by omega)
      (show y2.toNat + 1 < 2 ^ 32 by omega)
      (by rw [BitVec.toNat_add, less]; omega)
      (by rw [BitVec.toNat_add, less]; omega)
  have member (pixel : Pixel) :
      pixel ∈ pixels ↔ InFrame x1 y1 x2 y2 thickness pixel :=
    (mem_of_scBoxPixels nonzero ended pixel).trans
      (strips_iff_inFrame orderedX orderedY positive narrow low pixel)
  have allOnScreen : ∀ pixel ∈ pixels, mode.OnScreen pixel :=
    fun pixel inBox =>
      onScreen_of_inRectangle onScreenX onScreenY ((member pixel).mp inBox).1
  refine ⟨⟨fuel, pixels, ended, member⟩, fun memory => ?_⟩
  refine ⟨fuel, paint mode memory color pixels, ?_, ?_, ?_⟩
  · rw [scBox_eq, ended, Option.map_some]
  · intro pixel onScreen
    rw [is32Bit.readWord_paint memory color onScreen allOnScreen]
    split
    next inFrame =>
      exact iterate_pixelAfter_opaque opaqueColor
        (List.count_pos_iff.mpr ((member pixel).mpr inFrame)) _
    next outside =>
      rw [List.count_eq_zero.mpr fun inBox => outside ((member pixel).mp inBox)]
      rfl
  · intro target outside
    exact is32Bit.paint_outside memory color allOnScreen
      fun pixel inBox => outside pixel ((member pixel).mp inBox)

/--
`sc_box` paints the frame of a rectangle on the screen exactly if the
rectangle is at least as wide and as high as the thickness.
-/
theorem scBox_paintsFrame_iff
    {mode : ModeInfoBlock}
    (is32Bit : mode.Is32Bit)
    (orderedX : x1 ≤ x2)
    (onScreenX : x2.toNat < mode.xResolution.toNat)
    (orderedY : y1 ≤ y2)
    (onScreenY : y2.toNat < mode.yResolution.toNat)
    (positive : 1 ≤ thickness.toNat)
    {color : BitVec 32}
    (opaqueColor : color &&& 0xFF000000 = 0xFF000000) :
    PaintsFrame mode x1 y1 x2 y2 thickness color ↔
      thickness.toNat ≤ x2.toNat - x1.toNat + 1 ∧
        thickness.toNat ≤ y2.toNat - y1.toNat + 1 := by
  have columns := mode.xResolution.isLt
  have rows := mode.yResolution.isLt
  constructor
  · intro paints
    obtain ⟨fuel, pixels, ended, member⟩ := paints.exactly
    have nonzero : thickness ≠ 0 := by
      rintro rfl
      exact absurd positive (by decide)
    exact fits_of_strips (by omega) (by omega) orderedX orderedY positive
      fun pixel =>
        (mem_of_scBoxPixels nonzero ended pixel).symm.trans (member pixel)
  · rintro ⟨narrow, low⟩
    exact paintsFrame_of_fits is32Bit orderedX onScreenX orderedY onScreenY
      positive opaqueColor narrow low

end Boxes

/-- A wide box with lines of three pixels. -/
theorem scBox_paintsFrame_iff_thin :
    mode640x480.Is32Bit ∧ PaintsFrame mode640x480 10 10 50 40 3 0xFF00FF00 :=
  ⟨mode640x480_is32Bit,
    (scBox_paintsFrame_iff mode640x480_is32Bit (by decide) (by decide)
      (by decide) (by decide) (by decide) (by decide)).mpr
      ⟨by decide, by decide⟩⟩

/-- A box of one row with lines of two pixels is painted on two rows. -/
theorem scBox_paintsFrame_fails :
    mode640x480.Is32Bit ∧ ¬PaintsFrame mode640x480 0 0 9 0 2 0xFFFFFFFF := by
  refine ⟨mode640x480_is32Bit, fun paints => ?_⟩
  obtain ⟨fuel, pixels, ended, member⟩ := paints.exactly
  have inBox : ({ x := 0, y := 1 } : Pixel) ∈ pixels :=
    (mem_of_scBoxPixels (by decide) ended _).mpr (.inl (by decide))
  exact absurd ((member _).mp inBox) (by decide)

end HobbyOS
