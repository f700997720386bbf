import HobbyOS.Video.Text

namespace HobbyOS

open Library

/-!
# Where text is drawn

`sc_print` ends the text when the top of the next character is below the
screen, and `sc_putch` returns at `SCREEN_BUFFER_SIZE`, which is not the end of
the framebuffer but `8*XResolution` words behind it.  A character whose last
rows are below the screen is therefore drawn past the framebuffer.  The index
into the font is signed, so that of a character from `0x80` on is negative.
-/

/-- A word of the framebuffer. -/
def ModeInfoBlock.InFramebuffer
    (mode : ModeInfoBlock)
    (address : PtrT) :
    Prop :=
  mode.physicalBasePointer.toNat ≤ address.toNat ∧
    address.toNat + 4 ≤
      mode.physicalBasePointer.toNat +
        mode.yResolution.toNat * mode.bytesPerScanline.toNat

/-- All pixels that are set are words of the framebuffer. -/
def PixelsInside
    (mode : ModeInfoBlock)
    (writes : List (PtrT × BitVec 32)) :
    Prop :=
  ∀ write ∈ writes, mode.InFramebuffer write.1

/--
`sc_print` reads only the 128 characters of the font and sets only pixels of
the framebuffer.
-/
structure PrintsInside
    (mode : ModeInfoBlock)
    (style : TextStyle)
    (cell : Pixel)
    (string : List Byte) :
    Prop where
  reads :
    ∀ glyph ∈ scPrintGlyphs mode cell string,
      0 ≤ glyph.fontIndex ∧ glyph.fontIndex < 128
  writes :
    ∀ glyph ∈ scPrintGlyphs mode cell string,
      PixelsInside mode (scPutchWrites mode style glyph)

/-- The number of words in a row of the framebuffer. -/
def ModeInfoBlock.pitch (mode : ModeInfoBlock) : Nat :=
  mode.bytesPerScanline.toNat / 4

/--
The lower right pixel of a character is in the framebuffer, or the address of
`SCREEN_BUFFER_SIZE` wraps around, so that only the first pixel is set.
-/
def GlyphFits (mode : ModeInfoBlock) (cursor : Cursor) : Prop :=
  cursor.x + 7 + (cursor.y + 15) * mode.pitch <
      mode.yResolution.toNat * mode.pitch ∨
    2 ^ 32 ≤
        mode.physicalBasePointer.toNat +
          mode.yResolution.toNat * mode.bytesPerScanline.toNat +
          32 * mode.xResolution.toNat ∧
      mode.physicalBasePointer.toNat +
          cursor.y * mode.bytesPerScanline.toNat + 4 * cursor.x + 4 <
        2 ^ 32

instance (mode : ModeInfoBlock) (cursor : Cursor) :
    Decidable (GlyphFits mode cursor) :=
  inferInstanceAs (Decidable (_ ∨ _ ∧ _))

section Writes

variable
  {mode : ModeInfoBlock}
  {first second : List (PtrT × BitVec 32)}

/-- Writes lie inside if both parts of them do. -/
theorem pixelsInside_append :
    PixelsInside mode (first ++ second) ↔
      PixelsInside mode first ∧ PixelsInside mode second :=
  List.forall_mem_append

/-- Writes lie inside if the first and the others do. -/
theorem pixelsInside_cons {write : PtrT × BitVec 32} :
    PixelsInside mode (write :: second) ↔
      mode.InFramebuffer write.1 ∧ PixelsInside mode second :=
  List.forall_mem_cons

end Writes

/-! ## One row of a character -/

section Rows

variable
  {mode : ModeInfoBlock}
  {limit : PtrT}
  {style : TextStyle}
  {line : Byte}
  {masks : List Byte}
  {cbuff : PtrT}

/-- Whether a row is cut off depends on the limit only. -/
theorem putchRow_cons (r : Byte) :
    ∃ color,
      putchRow limit style line (r :: masks) cbuff =
        if limit ≤ cbuff + 4 then
          ([(cbuff, color)], none)
        else
          ((cbuff, color) ::
              (putchRow limit style line masks (cbuff + 4)).1,
            (putchRow limit style line masks (cbuff + 4)).2) :=
  ⟨_, rfl⟩

/-- A row that is not cut off leads behind its pixels. -/
theorem putchRow_end
    {next : PtrT}
    (ended : (putchRow limit style line masks cbuff).2 = some next) :
    next = cbuff + BitVec.ofNat 32 (4 * masks.length) := by
  induction masks generalizing cbuff with
  | nil =>
      rw [putchRow, Option.some.injEq] at ended
      rw [← ended]
      exact (BitVec.add_zero cbuff).symm
  | cons r masks inductionHypothesis =>
      obtain ⟨color, row⟩ :=
        @putchRow_cons limit style line masks cbuff r
      rw [row] at ended
      split at ended
      · cases ended
      · rw [inductionHypothesis ended, List.length_cons, Nat.mul_add,
          Nat.add_comm, BitVec.ofNat_add, BitVec.add_assoc]
        rfl

/-- A row inside the framebuffer sets pixels inside. -/
theorem pixelsInside_putchRow
    (is32Bit : mode.Is32Bit)
    (low : mode.physicalBasePointer.toNat ≤ cbuff.toNat)
    (high :
      cbuff.toNat + 4 * masks.length ≤
        mode.physicalBasePointer.toNat +
          mode.yResolution.toNat * mode.bytesPerScanline.toNat) :
    PixelsInside mode (putchRow limit style line masks cbuff).1 := by
  induction masks generalizing cbuff with
  | nil =>
      intro write member
      cases member
  | cons r masks inductionHypothesis =>
      have fits := is32Bit.fits
      obtain ⟨color, row⟩ :=
        @putchRow_cons limit style line masks cbuff r
      rw [List.length_cons] at high
      have inside : mode.InFramebuffer cbuff := by
        rw [ModeInfoBlock.InFramebuffer]
        omega
      rw [row]
      split
      · rintro write member
        rw [List.mem_singleton.mp member]
        exact inside
      · cases masks with
        | nil =>
            rintro write member
            rw [List.mem_singleton.mp member]
            exact inside
        | cons next masks =>
            rw [List.length_cons] at high
            have moved : (cbuff + 4).toNat = cbuff.toNat + 4 := by
              have four : (4 : BitVec 32).toNat = 4 := rfl
              rw [BitVec.toNat_add, four]
              omega
            refine pixelsInside_cons.mpr ⟨inside, inductionHypothesis ?_ ?_⟩
            · omega
            · rw [List.length_cons]
              omega

/-- A row that sets pixels inside only, and is not stopped, ends inside. -/
theorem putchRow_passes
    (beyond :
      mode.physicalBasePointer.toNat +
          mode.yResolution.toNat * mode.bytesPerScanline.toNat <
        limit.toNat)
    (start :
      cbuff.toNat ≤
        mode.physicalBasePointer.toNat +
          mode.yResolution.toNat * mode.bytesPerScanline.toNat)
    (inside :
      PixelsInside mode (putchRow limit style line masks cbuff).1) :
    (putchRow limit style line masks cbuff).2 =
        some (cbuff + BitVec.ofNat 32 (4 * masks.length)) ∧
      cbuff.toNat + 4 * masks.length ≤
        mode.physicalBasePointer.toNat +
          mode.yResolution.toNat * mode.bytesPerScanline.toNat := by
  induction masks generalizing cbuff with
  | nil =>
      exact ⟨congrArg some (BitVec.add_zero cbuff).symm, start⟩
  | cons r masks inductionHypothesis =>
      have bounded := limit.isLt
      have four : (4 : BitVec 32).toNat = 4 := rfl
      obtain ⟨color, row⟩ :=
        @putchRow_cons limit style line masks cbuff r
      have here : mode.InFramebuffer cbuff := by
        refine inside (cbuff, color) ?_
        rw [row]
        split
        · exact List.mem_singleton_self _
        · exact List.mem_cons_self
      have moved : (cbuff + 4).toNat = cbuff.toNat + 4 := by
        rw [BitVec.toNat_add, four]
        have := here.2
        omega
      have goesOn : ¬limit ≤ cbuff + 4 := by
        rw [BitVec.le_def, moved]
        have := here.2
        omega
      rw [row, if_neg goesOn] at inside ⊢
      have behind :=
        inductionHypothesis (by rw [moved]; exact here.2)
          (pixelsInside_cons.mp inside).2
      rw [moved] at behind
      refine ⟨behind.1.trans ?_, ?_⟩
      · rw [List.length_cons, Nat.mul_add, Nat.add_comm (4 * masks.length),
          BitVec.ofNat_add, BitVec.add_assoc]
        rfl
      · rw [List.length_cons]
        have := behind.2
        omega

end Rows

/-! ## The limit and the pointers -/

/-- A multiple of four is four times its signed quarter. -/
theorem four_mul_sdiv
    {value : BitVec 32}
    (aligned : value.toNat % 4 = 0) :
    4 * value.sdiv 4 = value := by
  have divides : (4 : Int) ∣ value.toInt := by
    rw [BitVec.toInt_eq_toNat_cond]
    split
    · omega
    · omega
  have four : (4 : BitVec 32).toInt = 4 := rfl
  have quotient : (value.sdiv 4).toInt = value.toInt.tdiv 4 :=
    BitVec.toInt_sdiv_of_ne_or_ne value 4 (.inr (by decide))
  refine BitVec.eq_of_toInt_eq ?_
  rw [BitVec.toInt_mul, four, quotient, Int.mul_tdiv_cancel' divides,
    BitVec.toInt_bmod_cancel]

namespace ModeInfoBlock.Is32Bit

variable
  {mode : ModeInfoBlock}
  (is32Bit : mode.Is32Bit)

include is32Bit

/-- A row of the framebuffer has whole words. -/
theorem four_mul_pitch : 4 * mode.pitch = mode.bytesPerScanline.toNat :=
  Nat.mul_div_cancel' (Nat.dvd_of_mod_eq_zero is32Bit.aligned)

/-- The size of the framebuffer, in words. -/
theorem size_eq :
    mode.yResolution.toNat * mode.bytesPerScanline.toNat =
      4 * (mode.yResolution.toNat * mode.pitch) := by
  rw [← is32Bit.four_mul_pitch, Nat.mul_left_comm]

/-- `SCREEN_BUFFER_SIZE` leads past the framebuffer, and may wrap around. -/
theorem toNat_screenLimit :
    mode.screenLimit.toNat =
      (mode.physicalBasePointer.toNat +
          mode.yResolution.toNat * mode.bytesPerScanline.toNat +
          32 * mode.xResolution.toNat) %
        2 ^ 32 := by
  have columns := mode.xResolution.isLt
  have rows := mode.yResolution.isLt
  have pitch := mode.bytesPerScanline.isLt
  have small :
      mode.yResolution.toNat * mode.bytesPerScanline.toNat ≤ 65535 * 65535 :=
    Nat.mul_le_mul (by omega) (by omega)
  have width :
      (mode.xResolution.setWidth 32 * mode.bitsPerPixel.setWidth 32 :
          BitVec 32).toNat =
        32 * mode.xResolution.toNat := by
    have bits : (32 : BitVec 32).toNat = 32 := rfl
    rw [is32Bit.setWidth_bitsPerPixel, BitVec.toNat_mul,
      BitVec.toNat_setWidth, bits]
    omega
  have size :
      (mode.yResolution.setWidth 32 * mode.bytesPerScanline.setWidth 32 :
          BitVec 32).toNat =
        mode.yResolution.toNat * mode.bytesPerScanline.toNat := by
    rw [BitVec.toNat_mul, BitVec.toNat_setWidth, BitVec.toNat_setWidth,
      Nat.mod_eq_of_lt (show mode.yResolution.toNat < 2 ^ 32 by omega),
      Nat.mod_eq_of_lt (show mode.bytesPerScanline.toNat < 2 ^ 32 by omega)]
    exact Nat.mod_eq_of_lt (by omega)
  have whole := is32Bit.size_eq
  rw [ModeInfoBlock.screenLimit, ModeInfoBlock.screenBufferSize,
    BitVec.mul_add, four_mul_sdiv (by rw [width]; omega),
    four_mul_sdiv (by rw [size]; omega), BitVec.toNat_add, BitVec.toNat_add,
    width, size]
  omega

/-- Where the first pixel of a character lies. -/
theorem toNat_cellPointer
    {cell : Pixel}
    (onScreen : mode.OnScreen cell) :
    (mode.cellPointer cell).toNat =
      mode.physicalBasePointer.toNat +
        4 * (cell.x.toNat + cell.y.toNat * mode.pitch) := by
  have fits := is32Bit.fits
  have wide := is32Bit.wide
  have row := row_fits onScreen.2
  have column := onScreen.1
  have resolution := mode.xResolution.isLt
  have four : (4 : BitVec 32).toNat = 4 := rfl
  have whole :
      cell.y.toNat * mode.bytesPerScanline.toNat =
        4 * (cell.y.toNat * mode.pitch) := by
    rw [← is32Bit.four_mul_pitch, Nat.mul_left_comm]
  rw [ModeInfoBlock.cellPointer, BitVec.mul_comm (BitVec.setWidth _ _),
    BitVec.toNat_add, BitVec.toNat_add, is32Bit.toNat_rowOffset onScreen.2,
    BitVec.toNat_mul, four]
  omega

end ModeInfoBlock.Is32Bit

/-! ## All rows of a character -/

section Characters

variable
  {mode : ModeInfoBlock}
  {style : TextStyle}
  {cbuff : PtrT}
  {x row : Nat}

/-- The pointer behind a row of a character leads to the next one. -/
theorem toNat_nextRow (cbuff : PtrT) :
    (cbuff + BitVec.ofNat 32 (4 * putchMasks.length) +
          4 * (mode.bytesPerScanline.setWidth 32 / 4 - 8)).toNat =
      (cbuff.toNat + 4 * mode.pitch) % 2 ^ 32 := by
  have pitch :
      (mode.bytesPerScanline.setWidth 32 / 4 : BitVec 32).toNat =
        mode.pitch := by
    have bounded := mode.bytesPerScanline.isLt
    have four : (4 : BitVec 32).toNat = 4 := rfl
    rw [BitVec.toNat_udiv, BitVec.toNat_setWidth, four,
      Nat.mod_eq_of_lt (by omega), ModeInfoBlock.pitch]
  have eight : BitVec.ofNat 32 (4 * putchMasks.length) = 32 := rfl
  rw [eight, ← pitch]
  bv_omega

/-- How the rows of a character follow each other. -/
theorem putchRows_cons
    (line : Byte)
    (lines : List Byte) :
    putchRows mode style (line :: lines) cbuff =
      (putchRow mode.screenLimit style line putchMasks cbuff).1 ++
        match (putchRow mode.screenLimit style line putchMasks cbuff).2 with
        | none => []
        | some next =>
            if mode.screenLimit ≤
                next + 4 * (mode.bytesPerScanline.setWidth 32 / 4 - 8) then
              []
            else
              putchRows mode style lines
                (next +
                  4 * (mode.bytesPerScanline.setWidth 32 / 4 - 8)) := by
  rw [putchRows]
  rcases putchRow mode.screenLimit style line putchMasks cbuff with
    ⟨writes, _ | next⟩
  · exact (List.append_nil writes).symm
  · dsimp only
    split
    · exact (List.append_nil writes).symm
    · rfl

/-- A character whose rows fit sets pixels of the framebuffer. -/
theorem pixelsInside_putchRows
    (is32Bit : mode.Is32Bit)
    {lines : List Byte}
    (placed :
      cbuff.toNat =
        mode.physicalBasePointer.toNat + 4 * (x + row * mode.pitch))
    (fit :
      ∀ step < lines.length,
        x + 7 + (row + step) * mode.pitch <
          mode.yResolution.toNat * mode.pitch) :
    PixelsInside mode (putchRows mode style lines cbuff) := by
  have fits := is32Bit.fits
  have size := is32Bit.size_eq
  have eight : putchMasks.length = 8 := rfl
  induction lines generalizing cbuff row with
  | nil =>
      intro write member
      cases member
  | cons line lines inductionHypothesis =>
      have here :
          x + 7 + row * mode.pitch < mode.yResolution.toNat * mode.pitch :=
        fit 0 (Nat.zero_lt_succ _)
      rw [putchRows_cons, pixelsInside_append]
      refine ⟨pixelsInside_putchRow is32Bit (by omega) (by omega), ?_⟩
      split
      · intro write member
        cases member
      next next ended =>
        split
        · intro write member
          cases member
        · cases lines with
          | nil =>
              intro write member
              cases member
          | cons second lines =>
              have below := fit 1 (Nat.succ_lt_succ (Nat.zero_lt_succ _))
              rw [Nat.add_mul, Nat.one_mul] at below
              refine @inductionHypothesis _ (row + 1) ?_ fun step inside => ?_
              · rw [putchRow_end ended, toNat_nextRow, placed, Nat.add_mul,
                  Nat.one_mul]
                omega
              · have shift : row + 1 + step = row + (step + 1) := by
                  omega
                rw [shift]
                exact fit (step + 1) (Nat.succ_lt_succ inside)

/-- A character that sets pixels of the framebuffer only has rows that fit. -/
theorem fit_of_pixelsInside_putchRows
    (is32Bit : mode.Is32Bit)
    (noWrap :
      mode.physicalBasePointer.toNat +
          mode.yResolution.toNat * mode.bytesPerScanline.toNat +
          32 * mode.xResolution.toNat <
        2 ^ 32)
    (inside : x < mode.xResolution.toNat)
    {lines : List Byte}
    (placed :
      cbuff.toNat =
        mode.physicalBasePointer.toNat + 4 * (x + row * mode.pitch))
    (writes : PixelsInside mode (putchRows mode style lines cbuff)) :
    ∀ step < lines.length,
      x + 7 + (row + step) * mode.pitch <
        mode.yResolution.toNat * mode.pitch := by
  have size := is32Bit.size_eq
  have limit := is32Bit.toNat_screenLimit
  rw [Nat.mod_eq_of_lt noWrap] at limit
  have eight : putchMasks.length = 8 := rfl
  induction lines generalizing cbuff row with
  | nil =>
      intro step none
      cases none
  | cons line lines inductionHypothesis =>
      rw [putchRows_cons, pixelsInside_append] at writes
      obtain ⟨rowInside, behind⟩ := writes
      have start : mode.InFramebuffer cbuff := by
        obtain ⟨color, shape⟩ :=
          @putchRow_cons mode.screenLimit style line putchMasks.tail cbuff 0x80
        refine rowInside (cbuff, color) ?_
        change _ ∈ (putchRow _ _ _ (0x80 :: putchMasks.tail) _).1
        rw [shape]
        split
        · exact List.mem_singleton_self _
        · exact List.mem_cons_self
      obtain ⟨ended, fitsHere⟩ :=
        putchRow_passes (by omega)
          (Nat.le_trans (Nat.le_add_right _ 4) start.2) rowInside
      -- The row is on the screen, so the next one starts before the limit.
      have onScreen : row < mode.yResolution.toNat := by
        by_contra below
        have := Nat.mul_le_mul_right mode.pitch (Nat.not_lt.mp below)
        omega
      have next := Nat.mul_le_mul_right mode.pitch (Nat.succ_le_of_lt onScreen)
      have moved := @toNat_nextRow mode cbuff
      rw [Nat.succ_mul] at next
      rw [placed, Nat.mod_eq_of_lt (by omega)] at moved
      have goesOn :
          ¬mode.screenLimit ≤
            cbuff + BitVec.ofNat 32 (4 * putchMasks.length) +
              4 * (mode.bytesPerScanline.setWidth 32 / 4 - 8) := by
        rw [BitVec.le_def, moved, limit]
        omega
      rw [ended] at behind
      dsimp only at behind
      rw [if_neg goesOn] at behind
      have rest :=
        @inductionHypothesis _ (row + 1)
          (by rw [moved, Nat.add_mul, Nat.one_mul]; omega) behind
      intro step before
      cases step with
      | zero =>
          change x + 7 + row * mode.pitch < _
          omega
      | succ step =>
          have shift : row + (step + 1) = row + 1 + step := by
            omega
          rw [shift]
          exact rest step (Nat.lt_of_succ_lt_succ before)

/-- A character whose first pixel reaches the limit is that pixel. -/
theorem putchRows_of_limit_le
    (stops : mode.screenLimit ≤ cbuff + 4)
    (line : Byte)
    (lines : List Byte) :
    ∃ color, putchRows mode style (line :: lines) cbuff = [(cbuff, color)] := by
  obtain ⟨color, row⟩ :=
    @putchRow_cons mode.screenLimit style line putchMasks.tail cbuff 0x80
  rw [if_pos stops] at row
  refine ⟨color, ?_⟩
  change putchRow _ _ _ putchMasks _ = _ at row
  rw [putchRows_cons, row]
  rfl

/-- A character whose first pixel does not reach the limit goes on. -/
theorem exists_second_of_not_limit_le
    (goesOn : ¬mode.screenLimit ≤ cbuff + 4)
    (line : Byte)
    (lines : List Byte) :
    ∃ write ∈ putchRows mode style (line :: lines) cbuff,
      write.1 = cbuff + 4 := by
  obtain ⟨color, row⟩ :=
    @putchRow_cons mode.screenLimit style line putchMasks.tail cbuff 0x80
  obtain ⟨second, behind⟩ :=
    @putchRow_cons mode.screenLimit style line putchMasks.tail.tail (cbuff + 4)
      0x40
  have member :
      (cbuff + 4, second) ∈
        (putchRow mode.screenLimit style line putchMasks.tail
          (cbuff + 4)).1 := by
    change _ ∈ (putchRow _ _ _ (0x40 :: putchMasks.tail.tail) _).1
    rw [behind]
    split
    · exact List.mem_singleton_self _
    · exact List.mem_cons_self
  rw [if_neg goesOn] at row
  change putchRow _ _ _ putchMasks _ = _ at row
  refine ⟨(cbuff + 4, second), ?_, rfl⟩
  rw [putchRows_cons, row]
  exact List.mem_append_left _ (List.mem_cons_of_mem _ member)

/-! ### A character of sixteen rows -/

section Sixteen

variable
  (is32Bit : mode.Is32Bit)
  {cell : Pixel}
  (onScreen : mode.OnScreen cell)
  {lines : List Byte}
  (sixteen : lines.length = 16)

include is32Bit onScreen

/-- Where a pixel of the screen lies, in bytes and in words. -/
theorem cell_row_eq :
    cell.y.toNat * mode.bytesPerScanline.toNat =
        4 * (cell.y.toNat * mode.pitch) ∧
      cell.x.toNat + cell.y.toNat * mode.pitch <
        mode.yResolution.toNat * mode.pitch := by
  obtain ⟨inside, visible⟩ := onScreen
  have wide := is32Bit.wide
  have pitch := is32Bit.four_mul_pitch
  have above :
      (cell.y.toNat + 1) * mode.pitch ≤ mode.yResolution.toNat * mode.pitch :=
    Nat.mul_le_mul_right mode.pitch visible
  rw [Nat.add_mul, Nat.one_mul] at above
  refine ⟨?_, ?_⟩
  · rw [← pitch, Nat.mul_left_comm]
  · omega

include sixteen

/-- A character whose lower right pixel is in the framebuffer lies inside. -/
theorem pixelsInside_of_bottom
    (bottom :
      cell.x.toNat + 7 + (cell.y.toNat + 15) * mode.pitch <
        mode.yResolution.toNat * mode.pitch) :
    PixelsInside mode (putchRows mode style lines (mode.cellPointer cell)) := by
  have placed := is32Bit.toNat_cellPointer onScreen
  refine pixelsInside_putchRows is32Bit placed fun step before => ?_
  have higher :=
    Nat.mul_le_mul_right mode.pitch
      (show cell.y.toNat + step ≤ cell.y.toNat + 15 by omega)
  omega

/--
A character that stays inside does not start at the last word of the memory,
where it would go on at address zero.
-/
theorem room_of_pixelsInside
    (writes :
      PixelsInside mode
        (putchRows mode style lines (mode.cellPointer cell))) :
    mode.physicalBasePointer.toNat +
        cell.y.toNat * mode.bytesPerScanline.toNat + 4 * cell.x.toNat + 4 <
      2 ^ 32 := by
  have fits := is32Bit.fits
  have size := is32Bit.size_eq
  have limit := is32Bit.toNat_screenLimit
  have placed := is32Bit.toNat_cellPointer onScreen
  have columns := mode.xResolution.isLt
  have inside := onScreen.1
  obtain ⟨whole, before⟩ := cell_row_eq is32Bit onScreen
  have four : (4 : BitVec 32).toNat = 4 := rfl
  obtain ⟨line, lines, rfl⟩ := List.exists_cons_of_length_eq_add_one sixteen
  have sizeSmall :
      mode.yResolution.toNat * mode.bytesPerScanline.toNat ≤ 65535 * 65535 :=
    Nat.mul_le_mul (Nat.le_of_lt_succ mode.yResolution.isLt)
      (Nat.le_of_lt_succ mode.bytesPerScanline.isLt)
  by_contra last
  have wrapped : (mode.cellPointer cell + 4).toNat = 0 := by
    rw [BitVec.toNat_add, four]
    omega
  have full :
      mode.physicalBasePointer.toNat +
          mode.yResolution.toNat * mode.bytesPerScanline.toNat =
        2 ^ 32 := by
    omega
  have goesOn : ¬mode.screenLimit ≤ mode.cellPointer cell + 4 := by
    rw [BitVec.le_def, limit, wrapped, full, Nat.add_mod_left]
    omega
  obtain ⟨write, member, second⟩ :=
    @exists_second_of_not_limit_le mode style _ goesOn line lines
  have low := (writes write member).1
  rw [second, wrapped] at low
  omega

/--
When the limit wraps around, a character that does not start at the last word
of the memory is its first pixel, or lies many rows above the end of the
framebuffer.
-/
theorem pixelsInside_of_room
    (wraps :
      2 ^ 32 ≤
        mode.physicalBasePointer.toNat +
          mode.yResolution.toNat * mode.bytesPerScanline.toNat +
          32 * mode.xResolution.toNat)
    (room :
      mode.physicalBasePointer.toNat +
          cell.y.toNat * mode.bytesPerScanline.toNat + 4 * cell.x.toNat + 4 <
        2 ^ 32) :
    PixelsInside mode (putchRows mode style lines (mode.cellPointer cell)) := by
  have fits := is32Bit.fits
  have size := is32Bit.size_eq
  have limit := is32Bit.toNat_screenLimit
  have placed := is32Bit.toNat_cellPointer onScreen
  have columns := mode.xResolution.isLt
  have four : (4 : BitVec 32).toNat = 4 := rfl
  have pitchSmall : mode.pitch < 2 ^ 14 := by
    have bounded := mode.bytesPerScanline.isLt
    rw [ModeInfoBlock.pitch]
    omega
  obtain ⟨whole, before⟩ := cell_row_eq is32Bit onScreen
  by_cases stops : mode.screenLimit ≤ mode.cellPointer cell + 4
  · obtain ⟨line, lines, rfl⟩ := List.exists_cons_of_length_eq_add_one sixteen
    obtain ⟨color, only⟩ := @putchRows_of_limit_le mode style _ stops line lines
    rw [only]
    intro write member
    rw [List.mem_singleton.mp member, ModeInfoBlock.InFramebuffer]
    dsimp only
    omega
  · have next :
        (mode.cellPointer cell + 4).toNat =
          (mode.cellPointer cell).toNat + 4 := by
      rw [BitVec.toNat_add, four]
      omega
    refine pixelsInside_of_bottom is32Bit onScreen sixteen ?_
    rw [BitVec.le_def, next] at stops
    rw [Nat.add_mul]
    omega

end Sixteen

/-- `sc_putch` on the screen stays in the framebuffer exactly if it fits. -/
theorem pixelsInside_scPutchWrites_iff
    (is32Bit : mode.Is32Bit)
    {glyph : Glyph}
    (onScreen : mode.OnScreen glyph.cell) :
    PixelsInside mode (scPutchWrites mode style glyph) ↔
      GlyphFits mode
        { x := glyph.cell.x.toNat, y := glyph.cell.y.toNat } := by
  have placed := is32Bit.toNat_cellPointer onScreen
  have sixteen :
      (style.font glyph.fontIndex).lines.toList.length = 16 :=
    Vector.length_toList
  constructor
  · intro writes
    by_cases noWrap :
        mode.physicalBasePointer.toNat +
            mode.yResolution.toNat * mode.bytesPerScanline.toNat +
            32 * mode.xResolution.toNat <
          2 ^ 32
    · exact
        .inl
          (fit_of_pixelsInside_putchRows is32Bit noWrap onScreen.1 placed writes
            15 (by omega))
    · exact
        .inr
          ⟨Nat.not_lt.mp noWrap,
            room_of_pixelsInside is32Bit onScreen sixteen writes⟩
  · rintro (bottom | ⟨wraps, room⟩)
    · exact pixelsInside_of_bottom is32Bit onScreen sixteen bottom
    · exact pixelsInside_of_room is32Bit onScreen sixteen wraps room

end Characters

/-! ## Strings -/

section Strings

variable
  {mode : ModeInfoBlock}
  {style : TextStyle}

/-- The font has the characters below `0x80`. -/
theorem fontIndex_iff
    {glyph : Glyph}
    (nonzero : glyph.chr ≠ 0) :
    (0 ≤ glyph.fontIndex ∧ glyph.fontIndex < 128) ↔ glyph.chr < 0x80 := by
  have bounded := glyph.chr.isLt
  have some : glyph.chr.toNat ≠ 0 := fun none =>
    nonzero (BitVec.eq_of_toNat_eq none)
  have first : (0x80 : Byte).toNat = 128 := rfl
  rw [Glyph.fontIndex, BitVec.toInt_eq_toNat_cond, BitVec.lt_def, first]
  split
  · omega
  · omega

/-- A character that is drawn at a cursor on the page stays inside. -/
theorem placedGlyph_inside_iff
    (is32Bit : mode.Is32Bit)
    {place : Cursor}
    {c : Byte}
    (nonzero : c ≠ 0)
    (inside : place.x < mode.xResolution.toNat)
    (visible : place.y < mode.yResolution.toNat) :
    ((0 ≤ (placedGlyph (place, c)).fontIndex ∧
          (placedGlyph (place, c)).fontIndex < 128) ∧
        PixelsInside mode
          (scPutchWrites mode style (placedGlyph (place, c)))) ↔
      c < 0x80 ∧ GlyphFits mode place := by
  have columns := mode.xResolution.isLt
  have rows := mode.yResolution.isLt
  have x : (cursorPixel place).x.toNat = place.x :=
    (BitVec.toNat_ofNat _ _).trans (Nat.mod_eq_of_lt (by omega))
  have y : (cursorPixel place).y.toNat = place.y :=
    (BitVec.toNat_ofNat _ _).trans (Nat.mod_eq_of_lt (by omega))
  have onScreen : mode.OnScreen (placedGlyph (place, c)).cell := by
    change (cursorPixel place).x.toNat < _ ∧ (cursorPixel place).y.toNat < _
    rw [x, y]
    exact ⟨inside, visible⟩
  rw [fontIndex_iff nonzero, pixelsInside_scPutchWrites_iff is32Bit onScreen]
  change _ ∧ GlyphFits mode
    { x := (cursorPixel place).x.toNat, y := (cursorPixel place).y.toNat } ↔ _
  rw [x, y]
  rfl

/--
`sc_print` stays inside the font and the framebuffer exactly if every character
to which the text in front of it leads on the screen is below `0x80` and fits.
-/
theorem scPrint_printsInside_iff
    (is32Bit : mode.Is32Bit)
    {cell : Pixel}
    (onScreen : mode.OnScreen cell)
    {string : List Byte}
    (nonzero : 0 ∉ string) :
    PrintsInside mode style cell string ↔
      ∀ front c behind place,
        string = front ++ c :: behind →
        isDrawn c = true →
        place =
          mode.textGrid.afterAll cursorMove
            { x := cell.x.toNat, y := cell.y.toNat } front →
        place.y < mode.yResolution.toNat →
        c < 0x80 ∧ GlyphFits mode place := by
  have glyphs :
      scPrintGlyphs mode cell string =
        (mode.textGrid.layout cursorMove isDrawn
            { x := cell.x.toNat, y := cell.y.toNat } string).map
          placedGlyph := by
    rw [← scPrintGlyphs_eq_layout onScreen.1 onScreen.2, cursorPixel_toNat]
  have parts :
      PrintsInside mode style cell string ↔
        ∀ glyph ∈ scPrintGlyphs mode cell string,
          (0 ≤ glyph.fontIndex ∧ glyph.fontIndex < 128) ∧
            PixelsInside mode (scPutchWrites mode style glyph) :=
    ⟨fun inside glyph member =>
        ⟨inside.reads glyph member, inside.writes glyph member⟩,
      fun inside =>
        ⟨fun glyph member => (inside glyph member).1,
          fun glyph member => (inside glyph member).2⟩⟩
  have plain {c : Byte} (member : c ∈ string) : c ≠ 0 := by
    rintro rfl
    exact nonzero member
  rw [parts, glyphs, List.forall_mem_map]
  constructor
  · rintro inside front c behind place rfl draws rfl visible
    have member :=
      (TextGrid.mem_layout onScreen.2).mpr
        ⟨front, behind, rfl, draws, rfl, visible⟩
    exact
      (placedGlyph_inside_iff is32Bit
        (plain (List.mem_append_right _ List.mem_cons_self))
        (TextGrid.afterAll_x_lt onScreen.1 front) visible).mp
        (inside _ member)
  · rintro inside ⟨place, c⟩ member
    obtain ⟨front, behind, rfl, draws, rfl, visible⟩ :=
      (TextGrid.mem_layout onScreen.2).mp member
    exact
      (placedGlyph_inside_iff is32Bit
        (plain (List.mem_append_right _ List.mem_cons_self))
        (TextGrid.afterAll_x_lt onScreen.1 front) visible).mpr
        (inside front c behind _ rfl draws rfl visible)

/-- Setting a pixel of the framebuffer changes the framebuffer only. -/
theorem scSetpixel_agreeOutside
    (is32Bit : mode.Is32Bit)
    {offset : PtrT}
    (inside : mode.InFramebuffer offset)
    (memory : Memory)
    (value : BitVec 32) :
    AgreeOutside mode.physicalBasePointer.toNat
      (mode.physicalBasePointer.toNat +
        mode.yResolution.toNat * mode.bytesPerScanline.toNat)
      memory (scSetpixel memory offset value) := by
  rw [scSetpixel_eq]
  exact
    (writeWord_agreeOutside memory _
      (Nat.le_trans inside.2 is32Bit.fits)).mono inside.1 inside.2

/-- Text that stays inside changes the framebuffer only. -/
theorem PrintsInside.scPrint_agreeOutside
    {cell : Pixel}
    {string : List Byte}
    (prints : PrintsInside mode style cell string)
    (is32Bit : mode.Is32Bit)
    (memory : Memory) :
    AgreeOutside mode.physicalBasePointer.toNat
      (mode.physicalBasePointer.toNat +
        mode.yResolution.toNat * mode.bytesPerScanline.toNat)
      memory (scPrint mode style memory cell string) :=
  AgreeOutside.foldl
    (fun glyph member memory =>
      AgreeOutside.foldl
        (fun write written memory =>
          scSetpixel_agreeOutside is32Bit
            (prints.writes glyph member write written) memory write.2)
        memory)
    memory

end Strings

/-- A font of full cells, white on black. -/
def fullCells : TextStyle where
  font := fun _ => { lines := Vector.replicate 16 0xFF }
  foregroundColor := 0xFFFFFFFF
  backgroundColor := 0xFF000000

/-- Two characters, a line feed and a digit near the top of a screen. -/
theorem scPrint_printsInside_iff_short :
    mode640x480.Is32Bit ∧
      PrintsInside mode640x480 fullCells { x := 62, y := 22 }
        [0x4F, 0x53, 0x0A, 0x32] := by
  have onScreen : mode640x480.OnScreen { x := 62, y := 22 } :=
    ⟨by decide, by decide⟩
  refine ⟨mode640x480_is32Bit,
    (scPrint_printsInside_iff mode640x480_is32Bit onScreen (by decide)).mpr ?_⟩
  intro front c behind place shape draws led visible
  have inside :
      ∀ placed ∈
        mode640x480.textGrid.layout cursorMove isDrawn { x := 62, y := 22 }
          [0x4F, 0x53, 0x0A, 0x32],
        placed.2 < 0x80 ∧ GlyphFits mode640x480 placed.1 := by
    decide
  exact
    inside (place, c)
      ((TextGrid.mem_layout onScreen.2).mpr
        ⟨front, behind, shape, draws, led, led ▸ visible⟩)

/-- A character on the last row of a screen is drawn past the framebuffer. -/
theorem scPrint_printsInside_fails :
    mode640x480.Is32Bit ∧
      ¬PrintsInside mode640x480 fullCells { x := 0, y := 479 } [0x41] := by
  refine ⟨mode640x480_is32Bit, fun prints => ?_⟩
  have writes :=
    prints.writes { cell := { x := 0, y := 479 }, chr := 0x41 } (by decide)
  rw [pixelsInside_scPutchWrites_iff mode640x480_is32Bit
    ⟨by decide, by decide⟩] at writes
  exact absurd writes (by decide)

end HobbyOS
