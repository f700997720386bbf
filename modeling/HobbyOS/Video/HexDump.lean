import HobbyOS.Video.Text

namespace HobbyOS

open Library

/-!
# Hex dumps

`sc_print_byte` wraps its own copy of the cursor between the two digits of a
byte.  `sc_print_hex` moves its cursor by two cells at once, which passes only
one cell if the first digit is in the last column: it then puts the space over
the second digit and stays one cell behind `sc_print`.
-/

/-- An uppercase hex digit. -/
def upperHexDigit (digit : Nat) : Byte :=
  if digit < 10 then
    BitVec.ofNat 8 (0x30 + digit)
  else
    BitVec.ofNat 8 (0x41 + (digit - 10))

/-- The two hex digits and a space for each byte. -/
def hexString (bytes : List Byte) : List Byte :=
  bytes.flatMap fun b =>
    [upperHexDigit (b.toNat / 16), upperHexDigit (b.toNat % 16), 0x20]

/--
The dump puts the same characters at the same places in the same order as
printing its string, and none on top of an earlier one.
-/
structure DumpsHex
    (mode : ModeInfoBlock)
    (cell : Pixel)
    (bytes : List Byte) :
    Prop where
  same :
    scPrintHexGlyphs mode cell bytes = scPrintGlyphs mode cell (hexString bytes)
  apart : ((scPrintHexGlyphs mode cell bytes).map Glyph.cell).Nodup

/-- Such a dump leaves the screen that printing its string leaves. -/
theorem DumpsHex.scPrintHex_eq
    {mode : ModeInfoBlock}
    {cell : Pixel}
    {bytes : List Byte}
    (dumps : DumpsHex mode cell bytes)
    (style : TextStyle)
    (memory : Memory) :
    scPrintHex mode style memory cell bytes =
      scPrint mode style memory cell (hexString bytes) := by
  rw [scPrintHex, dumps.same, scPrint]

/-- `hextoasc` holds the uppercase hex digits. -/
theorem hextoasc_eq :
    ∀ b : Byte,
      hextoasc.getD ((b >>> 4) &&& 0xF).toNat 0 =
          upperHexDigit (b.toNat / 16) ∧
        hextoasc.getD (b &&& 0xF).toNat 0 = upperHexDigit (b.toNat % 16) := by
  decide

/-- Hex digits and spaces move the cursor by one cell. -/
theorem cursorMove_upperHexDigit :
    ∀ digit < 16, cursorMove (upperHexDigit digit) = .advance := by
  decide

/-! ## Numbered places -/

/-- The number of cells in a row. -/
def ModeInfoBlock.textColumns (mode : ModeInfoBlock) : Nat :=
  mode.xResolution.toNat / 8

/-- The place of a cell, by its number from the row at `top` on. -/
def textPlace (mode : ModeInfoBlock) (top index : Nat) : Cursor :=
  mode.textGrid.cell mode.textColumns top index

/-- The row of a cell is on the screen. -/
def RowOnScreen (mode : ModeInfoBlock) (top index : Nat) : Prop :=
  (textPlace mode top index).y < mode.yResolution.toNat

instance (mode : ModeInfoBlock) (top index : Nat) :
    Decidable (RowOnScreen mode top index) :=
  inferInstanceAs (Decidable (_ < _))

/-- What `sc_print` draws from a cell on, if there is one. -/
def printFrom
    (mode : ModeInfoBlock)
    (top index : Nat)
    (string : List Byte) :
    List Glyph :=
  if RowOnScreen mode top index then
    scPrintGlyphs mode (cursorPixel (textPlace mode top index)) string
  else
    []

/-- What `sc_print_hex` draws from a cell on, if there is one. -/
def printHexFrom
    (mode : ModeInfoBlock)
    (top index : Nat)
    (bytes : List Byte) :
    List Glyph :=
  if RowOnScreen mode top index then
    scPrintHexGlyphs mode (cursorPixel (textPlace mode top index)) bytes
  else
    []

/-- A character in a cell. -/
def cellGlyph (mode : ModeInfoBlock) (top index : Nat) (chr : Byte) : Glyph :=
  placedGlyph (textPlace mode top index, chr)

/-- The first digit of a byte is in the last column, above another row. -/
def DigitsApart (mode : ModeInfoBlock) (top index : Nat) : Prop :=
  index % mode.textColumns = mode.textColumns - 1 ∧
    top + 16 * (index / mode.textColumns + 1) < mode.yResolution.toNat

instance (mode : ModeInfoBlock) (top index : Nat) :
    Decidable (DigitsApart mode top index) :=
  inferInstanceAs (Decidable (_ ∧ _))

section Places

variable
  {mode : ModeInfoBlock}
  {top index : Nat}
  (whole : mode.xResolution.toNat % 8 = 0)
  (some : 0 < mode.xResolution.toNat)

include whole

/-- The rows are filled by their cells. -/
theorem textGrid_width :
    mode.textGrid.width = mode.textGrid.cellWidth * mode.textColumns := by
  change mode.xResolution.toNat = 8 * (mode.xResolution.toNat / 8)
  omega

include some

/-- A row has cells. -/
theorem textColumns_pos : 0 < mode.textColumns := by
  rw [ModeInfoBlock.textColumns]
  omega

/-- A place is not behind the right edge. -/
theorem textPlace_x_lt :
    (textPlace mode top index).x < mode.textGrid.width := by
  have column := Nat.mod_lt index (textColumns_pos whole some)
  rw [textGrid_width whole]
  exact (Nat.mul_lt_mul_left (show 0 < 8 by decide)).mpr column

/-- The code moves its cursor by some cells, but not past the next row. -/
theorem wrapLine_textPlace
    {cells : Nat}
    (few : cells ≤ 2) :
    wrapLine mode
        { cursorPixel (textPlace mode top index) with
          x :=
            (cursorPixel (textPlace mode top index)).x +
              BitVec.ofNat 32 (cells * 8) } =
      cursorPixel
        (textPlace mode top
          (index +
            min cells (mode.textColumns - index % mode.textColumns))) := by
  rw [wrapLine_cursorPixel (textPlace_x_lt whole some) few, textPlace,
    textPlace,
    TextGrid.advance_cell (textGrid_width whole) (show 0 < 8 by decide)
      (textColumns_pos whole some)]

/-- The next cell is at most one row below. -/
theorem textPlace_y_le :
    (textPlace mode top (index + 1)).y ≤ (textPlace mode top index).y + 16 := by
  have columns := textColumns_pos whole some
  have next :
      (index + 1) / mode.textColumns ≤ index / mode.textColumns + 1 := by
    rw [← Nat.add_div_right index columns]
    exact Nat.div_le_div_right (by omega)
  change top + 16 * _ ≤ top + 16 * _ + 16
  omega

omit whole some in
/-- The test of the code for the end of the screen. -/
theorem unlessBelow_eq
    {rest : List Glyph}
    (small : (textPlace mode top index).y < 2 ^ 32) :
    (if mode.screenPixelHeight ≤
          (cursorPixel (textPlace mode top index)).y then
        []
      else
        rest) =
      if RowOnScreen mode top index then rest else [] := by
  have test := @screenPixelHeight_le_iff mode (textPlace mode top index) small
  by_cases onScreen : RowOnScreen mode top index
  · rw [if_pos onScreen, if_neg (test.not.mpr (not_not.mpr onScreen))]
  · rw [if_neg onScreen, if_pos (test.mpr onScreen)]

omit whole some in
/-- Rows below the end of the screen stay there. -/
theorem rowOnScreen_of_le
    {later : Nat}
    (ordered : index ≤ later)
    (onScreen : RowOnScreen mode top later) :
    RowOnScreen mode top index :=
  Nat.lt_of_le_of_lt (TextGrid.cell_y_le ordered) onScreen

omit whole some in
/-- Characters that move the cursor to the right are drawn. -/
theorem isDrawn_of_advance
    {c : Byte}
    (advances : cursorMove c = .advance) :
    isDrawn c = true := by
  rw [isDrawn, Bool.and_eq_true, bne_iff_ne, bne_iff_ne]
  constructor
  · rintro rfl
    cases advances
  · rintro rfl
    cases advances

/-- `sc_print` draws one character and goes on in the next cell. -/
theorem printFrom_cons
    {c : Byte}
    (advances : cursorMove c = .advance)
    (string : List Byte) :
    printFrom mode top index (c :: string) =
      if RowOnScreen mode top index then
        cellGlyph mode top index c :: printFrom mode top (index + 1) string
      else
        [] := by
  rw [printFrom]
  refine ite_congr rfl (fun onScreen => ?_) fun _ => rfl
  have next :
      mode.textGrid.after (textPlace mode top index) (cursorMove c) =
        textPlace mode top (index + 1) := by
    rw [advances]
    exact
      TextGrid.advance_one_cell (textGrid_width whole)
        (show 0 < 8 by decide) (textColumns_pos whole some) index
  rw [scPrintGlyphs_eq_layout (textPlace_x_lt whole some) onScreen,
    TextGrid.layout, isDrawn_of_advance advances, next, if_pos rfl,
    List.map_append, apply_ite (List.map placedGlyph) (_ < _), List.map_nil,
    printFrom]
  refine congrArg (List.cons _) ?_
  refine ite_congr rfl (fun below => ?_) fun _ => rfl
  rw [scPrintGlyphs_eq_layout (textPlace_x_lt whole some) below]

/--
`sc_print_hex` draws the first digit and, if there is another row, the second
one in the next cell.  It goes on two cells later, or behind the end of the row.
-/
theorem printHexFrom_cons
    (b : Byte)
    (bytes : List Byte) :
    printHexFrom mode top index (b :: bytes) =
      if RowOnScreen mode top index then
        cellGlyph mode top index (upperHexDigit (b.toNat / 16)) ::
          ((if RowOnScreen mode top (index + 1) then
              [cellGlyph mode top (index + 1) (upperHexDigit (b.toNat % 16))]
            else
              []) ++
            let space :=
              index + min 2 (mode.textColumns - index % mode.textColumns)
            if RowOnScreen mode top space then
              cellGlyph mode top space 0x20 ::
                printHexFrom mode top (space + 1) bytes
            else
              [])
      else
        [] := by
  have rows := mode.yResolution.isLt
  have columns := textColumns_pos whole some
  have next (index : Nat) :
      wrapLine mode
          { cursorPixel (textPlace mode top index) with
            x := (cursorPixel (textPlace mode top index)).x + 8 } =
        cursorPixel (textPlace mode top (index + 1)) := by
    have column := Nat.mod_lt index columns
    have moved :=
      @wrapLine_textPlace mode top index whole some 1 (by decide)
    rwa [Nat.min_eq_left (by omega)] at moved
  have space :
      wrapLine mode
          { cursorPixel (textPlace mode top index) with
            x := (cursorPixel (textPlace mode top index)).x + 16 } =
        cursorPixel
          (textPlace mode top
            (index +
              min 2 (mode.textColumns - index % mode.textColumns))) :=
    @wrapLine_textPlace mode top index whole some 2 (by decide)
  rw [printHexFrom]
  refine ite_congr rfl (fun onScreen => ?_) fun _ => rfl
  have low := @textPlace_y_le mode top index whole some
  have lower := @textPlace_y_le mode top (index + 1) whole some
  have spaceLow :
      (textPlace mode top
            (index + min 2 (mode.textColumns - index % mode.textColumns))).y ≤
        (textPlace mode top (index + 1 + 1)).y :=
    TextGrid.cell_y_le (by omega)
  have visible : (textPlace mode top index).y < mode.yResolution.toNat :=
    onScreen
  rw [scPrintHexGlyphs, scPrintByteGlyphs, (hextoasc_eq b).1,
    (hextoasc_eq b).2, next, space]
  dsimp only
  rw [unlessBelow_eq (by omega), unlessBelow_eq (by omega)]
  refine congrArg (List.cons _) (congrArg (List.append _) ?_)
  refine ite_congr rfl (fun below => ?_) fun _ => rfl
  have last :=
    @textPlace_y_le mode top
      (index + min 2 (mode.textColumns - index % mode.textColumns)) whole some
  have spaceVisible :
      (textPlace mode top
            (index + min 2 (mode.textColumns - index % mode.textColumns))).y <
        mode.yResolution.toNat :=
    below
  rw [next, unlessBelow_eq (by omega)]
  rfl

/-- The digits of a byte come apart at the end of a row. -/
theorem digitsApart_iff :
    DigitsApart mode top index ↔
      index % mode.textColumns = mode.textColumns - 1 ∧
        RowOnScreen mode top (index + 1) := by
  have columns := textColumns_pos whole some
  refine and_congr_right fun last => ?_
  have next :
      (index + 1) / mode.textColumns = index / mode.textColumns + 1 := by
    have parts := Nat.div_add_mod index mode.textColumns
    refine Nat.div_eq_of_lt_le ?_ ?_
    · rw [Nat.mul_comm, Nat.mul_add]
      omega
    · rw [Nat.mul_comm, Nat.mul_add, Nat.mul_add]
      omega
  change _ ↔ top + 16 * ((index + 1) / mode.textColumns) < _
  rw [next]

/-- Glyphs in different cells of the screen are different. -/
theorem eq_of_cellGlyph_cell_eq
    {other : Nat}
    (onScreen : RowOnScreen mode top index)
    (otherOnScreen : RowOnScreen mode top other)
    (same :
      cursorPixel (textPlace mode top index) =
        cursorPixel (textPlace mode top other)) :
    index = other := by
  have columns := mode.xResolution.isLt
  have rows := mode.yResolution.isLt
  have visible : (textPlace mode top index).y < mode.yResolution.toNat :=
    onScreen
  have otherVisible : (textPlace mode top other).y < mode.yResolution.toNat :=
    otherOnScreen
  have inside : (textPlace mode top index).x < mode.xResolution.toNat :=
    textPlace_x_lt whole some
  have otherInside : (textPlace mode top other).x < mode.xResolution.toNat :=
    textPlace_x_lt whole some
  rw [cursorPixel, cursorPixel, Pixel.mk.injEq, ← BitVec.toNat_inj,
    ← BitVec.toNat_inj, BitVec.toNat_ofNat, BitVec.toNat_ofNat,
    BitVec.toNat_ofNat, BitVec.toNat_ofNat] at same
  have places : textPlace mode top index = textPlace mode top other := by
    cases place : textPlace mode top index
    cases otherPlace : textPlace mode top other
    rw [place] at visible inside same
    rw [otherPlace] at otherVisible otherInside same
    dsimp only at visible inside otherVisible otherInside same
    rw [Cursor.mk.injEq]
    omega
  exact
    TextGrid.cell_injective (show 0 < 8 by decide) (show 0 < 16 by decide)
      places

omit whole some in
/-- The digits of the first byte, and those of the bytes behind it. -/
theorem forall_digits_cons
    (b : Byte)
    (bytes : List Byte) :
    (∀ number < (b :: bytes).length,
        ¬DigitsApart mode top (index + 3 * number)) ↔
      ¬DigitsApart mode top index ∧
        ∀ number < bytes.length,
          ¬DigitsApart mode top (index + 2 + 1 + 3 * number) := by
  have shift (number : Nat) :
      index + 3 * (number + 1) = index + 2 + 1 + 3 * number := by
    omega
  constructor
  · intro none
    refine ⟨none 0 (Nat.zero_lt_succ _), fun number inside => ?_⟩
    rw [← shift]
    exact none (number + 1) (Nat.succ_lt_succ inside)
  · rintro ⟨here, behind⟩ number inside
    cases number with
    | zero =>
        exact here
    | succ number =>
        rw [shift]
        exact behind number (Nat.lt_of_succ_lt_succ inside)

/-- No digits come apart below the screen. -/
theorem not_digitsApart_of_below
    {later : Nat}
    (ordered : index ≤ later + 1)
    (below : ¬RowOnScreen mode top index) :
    ¬DigitsApart mode top later := fun apart =>
  below (rowOnScreen_of_le ordered ((digitsApart_iff whole some).mp apart).2)

/--
A dump draws what printing its string draws exactly if the digits of none of
its bytes come apart.
-/
theorem printHexFrom_eq_iff (bytes : List Byte) :
    printHexFrom mode top index bytes =
        printFrom mode top index (hexString bytes) ↔
      ∀ number < bytes.length,
        ¬DigitsApart mode top (index + 3 * number) := by
  have columns := textColumns_pos whole some
  induction bytes generalizing index with
  | nil =>
      refine iff_of_true rfl fun number inside => ?_
      cases inside
  | cons b bytes inductionHypothesis =>
      have column := Nat.mod_lt index columns
      have high :=
        cursorMove_upperHexDigit (b.toNat / 16) (by have := b.isLt; omega)
      have low := cursorMove_upperHexDigit (b.toNat % 16) (by omega)
      have blank : cursorMove 0x20 = .advance := by
        decide
      have digits :
          hexString (b :: bytes) =
            upperHexDigit (b.toNat / 16) :: upperHexDigit (b.toNat % 16) ::
              0x20 :: hexString bytes :=
        rfl
      rw [digits, printHexFrom_cons whole some, printFrom_cons whole some high,
        printFrom_cons whole some low, printFrom_cons whole some blank,
        forall_digits_cons]
      by_cases onScreen : RowOnScreen mode top index
      · rw [if_pos onScreen, if_pos onScreen, List.cons.injEq,
          eq_self_iff_true, true_and]
        by_cases last :
            index % mode.textColumns = mode.textColumns - 1
        · -- The space goes into the cell of the second digit.
          have space :
              index + min 2 (mode.textColumns - index % mode.textColumns) =
                index + 1 := by
            omega
          rw [space]
          by_cases next : RowOnScreen mode top (index + 1)
          · have apart : DigitsApart mode top index :=
              (digitsApart_iff whole some).mpr ⟨last, next⟩
            refine iff_of_false ?_ fun none => none.1 apart
            dsimp only
            rw [if_pos next, if_pos next, if_pos next, List.singleton_append,
              List.cons.injEq]
            rintro ⟨-, same⟩
            split at same
            next below =>
              rw [List.cons.injEq] at same
              have equal :=
                eq_of_cellGlyph_cell_eq whole some next below
                  (congrArg Glyph.cell same.1)
              omega
            next =>
              cases same
          · dsimp only
            rw [if_neg next, if_neg next, if_neg next]
            exact
              iff_of_true rfl
                ⟨not_digitsApart_of_below whole some (Nat.le_refl _) next,
                  fun number _ =>
                    not_digitsApart_of_below whole some (by omega) next⟩
        · have space :
              index + min 2 (mode.textColumns - index % mode.textColumns) =
                index + 1 + 1 := by
            omega
          have together : ¬DigitsApart mode top index := fun apart =>
            last apart.1
          rw [space]
          dsimp only
          by_cases below : RowOnScreen mode top (index + 1 + 1)
          · have next := rowOnScreen_of_le (Nat.le_succ _) below
            rw [if_pos next, if_pos next, if_pos below, if_pos below,
              List.singleton_append, List.cons.injEq, List.cons.injEq,
              and_iff_right rfl, and_iff_right rfl, and_iff_right together]
            exact inductionHypothesis
          · rw [if_neg below, if_neg below]
            refine
              iff_of_true ?_
                ⟨together, fun number _ =>
                  not_digitsApart_of_below whole some (by omega) below⟩
            split
            · rfl
            · rfl
      · rw [if_neg onScreen, if_neg onScreen]
        exact
          iff_of_true rfl
            ⟨not_digitsApart_of_below whole some (by omega) onScreen,
              fun number _ =>
                not_digitsApart_of_below whole some (by omega) onScreen⟩

omit whole some in
/-- The characters of a hex string move the cursor by one cell. -/
theorem cursorMove_of_mem_hexString
    {bytes : List Byte}
    {c : Byte}
    (member : c ∈ hexString bytes) :
    cursorMove c = .advance := by
  obtain ⟨b, -, isDigit⟩ := List.mem_flatMap.mp member
  have bounded := b.isLt
  simp only [List.mem_cons, List.not_mem_nil, or_false] at isDigit
  rcases isDigit with rfl | rfl | rfl
  · exact cursorMove_upperHexDigit _ (by omega)
  · exact cursorMove_upperHexDigit _ (by omega)
  · decide

/-- Printing a hex string draws into no cell twice. -/
theorem nodup_printFrom_hexString
    (onScreen : RowOnScreen mode top index)
    (bytes : List Byte) :
    ((scPrintGlyphs mode (cursorPixel (textPlace mode top index))
      (hexString bytes)).map Glyph.cell).Nodup := by
  have advances :
      ∀ c ∈ hexString bytes, cursorMove c = .advance :=
    fun c member => cursorMove_of_mem_hexString member
  have onPage : (textPlace mode top index).y < mode.textGrid.height :=
    onScreen
  have places :
      ((mode.textGrid.layout cursorMove isDrawn (textPlace mode top index)
        (hexString bytes)).map Prod.fst).Nodup :=
    TextGrid.nodup_layout (textGrid_width whole) (show 0 < 8 by decide)
      (show 0 < 16 by decide) (textColumns_pos whole some) advances
  have numbered :
      ∀ place ∈
        (mode.textGrid.layout cursorMove isDrawn (textPlace mode top index)
          (hexString bytes)).map Prod.fst,
        ∃ number,
          place = textPlace mode top number ∧
            RowOnScreen mode top number := by
    intro place member
    obtain ⟨placed, drawn, rfl⟩ := List.mem_map.mp member
    obtain ⟨number, -, place⟩ :=
      TextGrid.exists_cell_of_mem_layout (textGrid_width whole)
        (show 0 < 8 by decide) (textColumns_pos whole some) advances drawn
    obtain ⟨_, _, _, _, _, visible⟩ :=
      (TextGrid.mem_layout onPage).mp drawn
    refine ⟨number, place, ?_⟩
    rw [RowOnScreen, textPlace, ← place]
    exact visible
  rw [scPrintGlyphs_eq_layout (textPlace_x_lt whole some) onScreen,
    List.map_map]
  change ((_ : List (Cursor × Byte)).map (cursorPixel ∘ Prod.fst)).Nodup
  rw [← List.map_map]
  refine List.Nodup.map_on ?_ places
  intro first firstMember second secondMember same
  obtain ⟨number, rfl, visible⟩ := numbered first firstMember
  obtain ⟨other, rfl, otherVisible⟩ := numbered second secondMember
  rw [eq_of_cellGlyph_cell_eq whole some visible otherVisible same]

end Places

/--
Dumping bytes in hex draws what printing their string draws, and no character
over another, exactly if no byte has its first digit in the last column with
another row of the screen below.
-/
theorem scPrintHexGlyphs_dumpsHex_iff
    {mode : ModeInfoBlock}
    (whole : mode.xResolution.toNat % 8 = 0)
    {cell : Pixel}
    (onScreen : mode.OnScreen cell)
    (aligned : cell.x.toNat % 8 = 0)
    (bytes : List Byte) :
    DumpsHex mode cell bytes ↔
      ∀ number < bytes.length,
        ¬DigitsApart mode cell.y.toNat (cell.x.toNat / 8 + 3 * number) := by
  obtain ⟨inside, visible⟩ := onScreen
  have some := Nat.zero_lt_of_lt inside
  have column : cell.x.toNat / 8 < mode.textColumns := by
    rw [ModeInfoBlock.textColumns]
    omega
  have place :
      textPlace mode cell.y.toNat (cell.x.toNat / 8) =
        { x := cell.x.toNat, y := cell.y.toNat } := by
    rw [textPlace, TextGrid.cell, Nat.mod_eq_of_lt column,
      Nat.div_eq_of_lt column, Nat.mul_zero, Nat.add_zero, Cursor.mk.injEq]
    exact ⟨Nat.mul_div_cancel' (Nat.dvd_of_mod_eq_zero aligned), rfl⟩
  have start :
      cursorPixel (textPlace mode cell.y.toNat (cell.x.toNat / 8)) = cell := by
    rw [place, cursorPixel_toNat]
  have row : RowOnScreen mode cell.y.toNat (cell.x.toNat / 8) := by
    rw [RowOnScreen, place]
    exact visible
  have draws :=
    @printHexFrom_eq_iff mode cell.y.toNat (cell.x.toNat / 8) whole some bytes
  rw [printHexFrom, printFrom, if_pos row, if_pos row, start] at draws
  rw [← draws]
  constructor
  · exact DumpsHex.same
  · intro same
    refine ⟨same, ?_⟩
    have apart := nodup_printFrom_hexString whole some row bytes
    rwa [start, ← same] at apart

/-- A dump of two bytes at the start of a row. -/
theorem scPrintHexGlyphs_dumpsHex_iff_short :
    DumpsHex mode640x480 { x := 0, y := 16 } [0x1F, 0xA0] :=
  (scPrintHexGlyphs_dumpsHex_iff (by decide) ⟨by decide, by decide⟩
    (by decide) _).mpr
    (by decide)

/-- A dump whose first byte starts in the last column of a row. -/
theorem scPrintHexGlyphs_dumpsHex_fails :
    ¬DumpsHex mode640x480 { x := 632, y := 0 } [0x1F] := by
  intro dumps
  exact absurd dumps.same (by decide)

end HobbyOS
