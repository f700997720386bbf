import HobbyOS.Library.CountedLoop
import HobbyOS.Video.Screen

namespace HobbyOS

open Library

/-!
# Filled shapes

`sc_fill` and `sc_box` of `vbe_driver.c`.  Which pixels they set, and in which
order, does not depend on the memory, so the loops yield the list of pixels,
and drawing sets one after the other.
-/

/-- `sc_setpixel` at each pixel of a list. -/
def paint
    (mode : ModeInfoBlock)
    (memory : Memory)
    (color : BitVec 32)
    (pixels : List Pixel) :
    Memory :=
  pixels.foldl
    (fun memory pixel => scSetpixel memory (mode.pixelPointer pixel) color)
    memory

/-- The pixels of the two loops of `sc_fill`, in order. -/
def scFillPixels
    (fuel : Nat)
    (x1 y1 x2 y2 : BitVec 32) :
    Option (List Pixel) := do
  let ys ← countUpTo fuel y1 y2
  let rows ← ys.mapM fun y => do
    let xs ← countUpTo fuel x1 x2
    return xs.map fun x => { x, y }
  return rows.flatten

/-- `sc_fill`. -/
def scFill
    (fuel : Nat)
    (mode : ModeInfoBlock)
    (memory : Memory)
    (x1 y1 x2 y2 color : BitVec 32) :
    Option Memory :=
  (scFillPixels fuel x1 y1 x2 y2).map (paint mode memory color)

/-- `sc_box`. -/
def scBox
    (fuel : Nat)
    (mode : ModeInfoBlock)
    (memory : Memory)
    (x1 y1 x2 y2 thickness color : BitVec 32) :
    Option Memory :=
  if thickness = 0 then
    some memory
  else do
    let thickness := thickness - 1
    let memory ← scFill fuel mode memory x1 y1 x2 (y1 + thickness) color
    let memory ← scFill fuel mode memory x1 y1 (x1 + thickness) y2 color
    let memory ← scFill fuel mode memory (x2 - thickness) y1 x2 y2 color
    scFill fuel mode memory x1 (y2 - thickness) x2 y2 color

/-- The pixels that the calls of `sc_box` set, in order. -/
def scBoxPixels
    (fuel : Nat)
    (x1 y1 x2 y2 thickness : BitVec 32) :
    Option (List Pixel) :=
  if thickness = 0 then
    some []
  else do
    let thickness := thickness - 1
    let top ← scFillPixels fuel x1 y1 x2 (y1 + thickness)
    let left ← scFillPixels fuel x1 y1 (x1 + thickness) y2
    let right ← scFillPixels fuel (x2 - thickness) y1 x2 y2
    let bottom ← scFillPixels fuel x1 (y2 - thickness) x2 y2
    return top ++ left ++ right ++ bottom

/-! ## The pixels of a rectangle -/

/-- A pixel of the rectangle with the given corners. -/
def InRectangle (x1 y1 x2 y2 : BitVec 32) (pixel : Pixel) : Prop :=
  (x1 ≤ pixel.x ∧ pixel.x ≤ x2) ∧ y1 ≤ pixel.y ∧ pixel.y ≤ y2

instance (x1 y1 x2 y2 : BitVec 32) (pixel : Pixel) :
    Decidable (InRectangle x1 y1 x2 y2 pixel) :=
  inferInstanceAs (Decidable ((_ ∧ _) ∧ _ ∧ _))

/-- The pixels of a rectangle on the screen are on the screen. -/
theorem onScreen_of_inRectangle
    {mode : ModeInfoBlock}
    {x1 y1 x2 y2 : BitVec 32}
    (onScreenX : x2.toNat < mode.xResolution.toNat)
    (onScreenY : y2.toNat < mode.yResolution.toNat)
    {pixel : Pixel}
    (inside : InRectangle x1 y1 x2 y2 pixel) :
    mode.OnScreen pixel :=
  ⟨Nat.lt_of_le_of_lt inside.1.2 onScreenX,
    Nat.lt_of_le_of_lt inside.2.2 onScreenY⟩

/-- The pixels of some columns in some rows. -/
theorem mapM_rows (xs ys : List (BitVec 32)) :
    (ys.mapM fun y =>
        some (xs.map fun x => ({ x, y } : Pixel))) =
      some (ys.map fun y => xs.map fun x => { x, y }) :=
  List.mapM_pure

section Rectangles

variable
  {fuel : Nat}
  {x1 y1 x2 y2 : BitVec 32}
  {pixels : List Pixel}

/-- A fill that ends goes through its rows, if there are any. -/
theorem rows_of_scFillPixels
    (ended : scFillPixels fuel x1 y1 x2 y2 = some pixels) :
    ∃ ys,
      countUpTo fuel y1 y2 = some ys ∧
        (ys = [] ∧ pixels = [] ∨
          ∃ xs,
            countUpTo fuel x1 x2 = some xs ∧
              pixels = ys.flatMap fun y => xs.map fun x => { x, y }) := by
  unfold scFillPixels at ended
  rw [Option.bind_eq_bind, Option.bind_eq_some_iff] at ended
  obtain ⟨ys, counted, ended⟩ := ended
  refine ⟨ys, counted, ?_⟩
  cases columns : countUpTo fuel x1 x2 with
  | none =>
      left
      rw [columns] at ended
      cases ys with
      | nil =>
          simpa [eq_comm] using ended
      | cons first rest =>
          simp at ended
  | some xs =>
      right
      refine ⟨xs, rfl, ?_⟩
      rw [columns] at ended
      simp only [Option.bind_eq_bind, Option.bind_some, Option.pure_def,
        mapM_rows, Option.some.injEq] at ended
      rw [← ended, List.flatMap_def]

/-- A fill that ends sets the pixels of its rectangle. -/
theorem mem_of_scFillPixels
    (ended : scFillPixels fuel x1 y1 x2 y2 = some pixels)
    {pixel : Pixel} :
    pixel ∈ pixels ↔ InRectangle x1 y1 x2 y2 pixel := by
  obtain ⟨ys, counted, ⟨rfl, rfl⟩ | ⟨xs, columns, rfl⟩⟩ :=
    rows_of_scFillPixels ended
  · have none := @mem_of_countUpTo _ _ _ _ _ counted pixel.y
    simp only [List.not_mem_nil, false_iff] at none ⊢
    exact fun inside => none inside.2
  · simp only [List.mem_flatMap, List.mem_map, mem_of_countUpTo counted,
      mem_of_countUpTo columns, InRectangle]
    constructor
    · rintro ⟨y, row, x, column, rfl⟩
      exact ⟨column, row⟩
    · rintro ⟨column, row⟩
      exact ⟨pixel.y, row, pixel.x, column, rfl⟩

/-- A fill sets no pixel twice. -/
theorem nodup_of_scFillPixels
    (ended : scFillPixels fuel x1 y1 x2 y2 = some pixels) :
    pixels.Nodup := by
  obtain ⟨ys, counted, ⟨_, rfl⟩ | ⟨xs, columns, rfl⟩⟩ :=
    rows_of_scFillPixels ended
  · exact List.nodup_nil
  · rw [List.nodup_flatMap]
    constructor
    · intro y _
      refine (nodup_of_countUpTo columns).map fun x other same => ?_
      rw [Pixel.mk.injEq] at same
      exact same.1
    · refine (nodup_of_countUpTo counted).imp fun {y other} apart => ?_
      intro pixel inRow inOther
      obtain ⟨_, _, rfl⟩ := List.mem_map.mp inRow
      obtain ⟨_, _, same⟩ := List.mem_map.mp inOther
      rw [Pixel.mk.injEq] at same
      exact apart same.2.symm

/-- A fill up to smaller corners than the largest values ends. -/
theorem scFillPixels_ends
    (roomX : x2.toNat + 1 < 2 ^ 32)
    (roomY : y2.toNat + 1 < 2 ^ 32) :
    ∃ enough pixels,
      ∀ fuel ≥ enough, scFillPixels fuel x1 y1 x2 y2 = some pixels := by
  obtain ⟨xs, columns⟩ := countUpTo_ends roomX x1
  obtain ⟨ys, rows⟩ := countUpTo_ends roomY y1
  refine ⟨max (x2.toNat + 1 - x1.toNat) (y2.toNat + 1 - y1.toNat) + 1,
    ys.flatMap fun y => xs.map fun x => { x, y }, fun fuel fueled => ?_⟩
  rw [scFillPixels, rows fuel (by omega), columns fuel (by omega)]
  simp only [Option.bind_eq_bind, Option.bind_some, Option.pure_def,
    mapM_rows, List.flatMap_def]

end Rectangles

/-! ## What painting does -/

/-- Painting updates the words of the pixels. -/
theorem paint_eq_modifyWords
    (mode : ModeInfoBlock)
    (memory : Memory)
    (color : BitVec 32)
    (pixels : List Pixel) :
    paint mode memory color pixels =
      modifyWords memory (pixelAfter color)
        (pixels.map mode.pixelPointer) := by
  rw [paint, modifyWords, List.foldl_map]
  simp only [scSetpixel_eq]

/-- Painting two lists of pixels is painting one behind the other. -/
theorem paint_append
    (mode : ModeInfoBlock)
    (memory : Memory)
    (color : BitVec 32)
    (front back : List Pixel) :
    paint mode memory color (front ++ back) =
      paint mode (paint mode memory color front) color back :=
  List.foldl_append

/-- `sc_box` paints its pixels. -/
theorem scBox_eq
    (fuel : Nat)
    (mode : ModeInfoBlock)
    (memory : Memory)
    (x1 y1 x2 y2 thickness color : BitVec 32) :
    scBox fuel mode memory x1 y1 x2 y2 thickness color =
      (scBoxPixels fuel x1 y1 x2 y2 thickness).map
        (paint mode memory color) := by
  rw [scBox, scBoxPixels]
  split
  · rfl
  · simp only [scFill, Option.bind_eq_bind, Option.pure_def]
    cases scFillPixels fuel x1 y1 x2 (y1 + (thickness - 1)) with
    | none =>
        rfl
    | some top =>
        cases scFillPixels fuel x1 y1 (x1 + (thickness - 1)) y2 with
        | none =>
            rfl
        | some left =>
            cases scFillPixels fuel (x2 - (thickness - 1)) y1 x2 y2 with
            | none =>
                rfl
            | some right =>
                cases scFillPixels fuel x1 (y2 - (thickness - 1)) x2 y2 with
                | none =>
                    rfl
                | some bottom =>
                    simp only [Option.map_some, Option.bind_some,
                      paint_append]

section Painting

variable
  {mode : ModeInfoBlock}
  {pixels : List Pixel}
  {pixel : Pixel}

/-- A pixel of the screen goes through the update as often as it is listed. -/
theorem ModeInfoBlock.Is32Bit.readWord_paint
    (is32Bit : mode.Is32Bit)
    (memory : Memory)
    (color : BitVec 32)
    (onScreen : mode.OnScreen pixel)
    (allOnScreen : ∀ other ∈ pixels, mode.OnScreen other) :
    readWord (paint mode memory color pixels) (mode.pixelPointer pixel) =
      (pixelAfter color)^[pixels.count pixel]
        (readWord memory (mode.pixelPointer pixel)) := by
  have counted :
      (pixels.map mode.pixelPointer).count (mode.pixelPointer pixel) =
        pixels.count pixel := by
    rw [List.count, List.countP_map, List.count]
    refine List.countP_congr fun other member => ?_
    rw [Function.comp_apply, beq_iff_eq, beq_iff_eq]
    constructor
    · intro samePointer
      by_contra different
      have apart :=
        is32Bit.pixelPointer_apart onScreen (allOnScreen other member)
          different
      rw [WordsApart, samePointer] at apart
      omega
    · exact congrArg mode.pixelPointer
  rw [paint_eq_modifyWords, ← counted]
  refine
    readWord_modifyWords memory (is32Bit.pixelPointer_room onScreen) ?_ ?_
  · intro address member
    obtain ⟨other, listed, rfl⟩ := List.mem_map.mp member
    exact is32Bit.pixelPointer_room (allOnScreen other listed)
  · intro address member different
    obtain ⟨other, listed, rfl⟩ := List.mem_map.mp member
    refine is32Bit.pixelPointer_apart onScreen (allOnScreen other listed) ?_
    rintro rfl
    exact different rfl

/-- Bytes outside of the painted words stay. -/
theorem ModeInfoBlock.Is32Bit.paint_outside
    (is32Bit : mode.Is32Bit)
    (memory : Memory)
    (color : BitVec 32)
    (allOnScreen : ∀ other ∈ pixels, mode.OnScreen other)
    {target : PtrT}
    (outside :
      ∀ other ∈ pixels,
        target.toNat < (mode.pixelPointer other).toNat ∨
          (mode.pixelPointer other).toNat + 4 ≤ target.toNat) :
    paint mode memory color pixels target = memory target := by
  rw [paint_eq_modifyWords]
  refine modifyWords_outside memory ?_ ?_
  · intro address member
    obtain ⟨other, listed, rfl⟩ := List.mem_map.mp member
    exact is32Bit.pixelPointer_room (allOnScreen other listed)
  · intro address member
    obtain ⟨other, listed, rfl⟩ := List.mem_map.mp member
    exact outside other listed

end Painting

end HobbyOS
