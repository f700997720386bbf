import Mathlib.Algebra.Group.Nat.Defs
import Mathlib.Data.List.Nodup

namespace HobbyOS.Library

/-!
# Text on a page

Characters are put into cells of one size, from left to right and from top to
bottom.  A cursor that would pass the right edge goes to the start of the next
row, and text ends with the page.  If the cells fill the rows then the cells of
consecutive characters are numbered, and no two of them are the same.
-/

/-- A place on a page. -/
structure Cursor where
  x : Nat
  y : Nat
  deriving DecidableEq

/-- The size of a page and of its cells. -/
structure TextGrid where
  width : Nat
  height : Nat
  cellWidth : Nat
  cellHeight : Nat

/-- How a character moves the cursor. -/
inductive CursorMove where
  | advance
  | lineFeed
  | carriageReturn
  | stay
  deriving DecidableEq

namespace TextGrid

/-- Move to the right by some cells, or to the start of the next row. -/
def advance (grid : TextGrid) (cells : Nat) (cursor : Cursor) : Cursor :=
  if grid.width ≤ cursor.x + cells * grid.cellWidth then
    { x := 0, y := cursor.y + grid.cellHeight }
  else
    { cursor with x := cursor.x + cells * grid.cellWidth }

/-- The cursor behind a character. -/
def after (grid : TextGrid) (cursor : Cursor) : CursorMove → Cursor
  | .advance => grid.advance 1 cursor
  | .lineFeed => { cursor with y := cursor.y + grid.cellHeight }
  | .carriageReturn => { cursor with x := 0 }
  | .stay => cursor

section Layouts

variable
  {α : Type*}
  (grid : TextGrid)
  (move : α → CursorMove)
  (drawn : α → Bool)

/-- The cursor behind some characters. -/
def afterAll (cursor : Cursor) (text : List α) : Cursor :=
  text.foldl (fun cursor character => grid.after cursor (move character)) cursor

/-- The characters that are drawn, with their places, until the page ends. -/
def layout (cursor : Cursor) : List α → List (Cursor × α)
  | [] => []
  | character :: rest =>
      let next := grid.after cursor (move character)
      (if drawn character then [(cursor, character)] else []) ++
        if next.y < grid.height then layout next rest else []

variable {grid move drawn}

/-- No move leads up. -/
theorem le_after (cursor : Cursor) (step : CursorMove) :
    cursor.y ≤ (grid.after cursor step).y := by
  cases step with
  | advance =>
      rw [after, advance]
      split
      · exact Nat.le_add_right _ _
      · exact Nat.le_refl _
  | lineFeed =>
      exact Nat.le_add_right _ _
  | carriageReturn =>
      exact Nat.le_refl _
  | stay =>
      exact Nat.le_refl _

/-- No text leads up. -/
theorem le_afterAll (cursor : Cursor) (text : List α) :
    cursor.y ≤ (grid.afterAll move cursor text).y := by
  induction text generalizing cursor with
  | nil =>
      exact Nat.le_refl _
  | cons character rest inductionHypothesis =>
      exact
        Nat.le_trans (le_after cursor (move character))
          (inductionHypothesis _)

/-- No move leaves the page on the right. -/
theorem after_x_lt
    {cursor : Cursor}
    (inside : cursor.x < grid.width)
    (step : CursorMove) :
    (grid.after cursor step).x < grid.width := by
  cases step with
  | advance =>
      rw [after, advance]
      split
      · exact Nat.zero_lt_of_lt inside
      next room =>
        exact Nat.lt_of_not_le room
  | lineFeed =>
      exact inside
  | carriageReturn =>
      exact Nat.zero_lt_of_lt inside
  | stay =>
      exact inside

/-- No text leaves the page on the right. -/
theorem afterAll_x_lt
    {cursor : Cursor}
    (inside : cursor.x < grid.width)
    (text : List α) :
    (grid.afterAll move cursor text).x < grid.width := by
  induction text generalizing cursor with
  | nil =>
      exact inside
  | cons character rest inductionHypothesis =>
      exact inductionHypothesis (after_x_lt inside (move character))

/--
The characters that are drawn are those to which the text in front leads on
the page.
-/
theorem mem_layout
    {cursor : Cursor}
    (onPage : cursor.y < grid.height)
    {text : List α}
    {place : Cursor}
    {character : α} :
    (place, character) ∈ grid.layout move drawn cursor text ↔
      ∃ front behind,
        text = front ++ character :: behind ∧
          drawn character = true ∧
          place = grid.afterAll move cursor front ∧
          place.y < grid.height := by
  induction text generalizing cursor with
  | nil =>
      simp [layout]
  | cons first rest inductionHypothesis =>
      have here :
          (place, character) ∈
              (if drawn first then [(cursor, first)] else []) ↔
            character = first ∧ drawn character = true ∧ place = cursor := by
        split
        next isDrawn =>
          rw [List.mem_singleton, Prod.mk.injEq]
          constructor
          · rintro ⟨rfl, rfl⟩
            exact ⟨rfl, isDrawn, rfl⟩
          · rintro ⟨rfl, -, rfl⟩
            exact ⟨rfl, rfl⟩
        next notDrawn =>
          constructor
          · intro member
            cases member
          · rintro ⟨rfl, isDrawn, -⟩
            exact absurd isDrawn notDrawn
      have split :
          (∃ front behind,
            first :: rest = front ++ character :: behind ∧
              drawn character = true ∧
              place = grid.afterAll move cursor front ∧
              place.y < grid.height) ↔
            (character = first ∧ drawn character = true ∧ place = cursor) ∨
              ∃ front behind,
                rest = front ++ character :: behind ∧
                  drawn character = true ∧
                  place =
                    grid.afterAll move (grid.after cursor (move first))
                      front ∧
                  place.y < grid.height := by
        constructor
        · rintro ⟨front, behind, shape, isDrawn, rfl, inside⟩
          cases front with
          | nil =>
              rw [List.nil_append, List.cons.injEq] at shape
              exact .inl ⟨shape.1.symm, isDrawn, rfl⟩
          | cons other front =>
              rw [List.cons_append, List.cons.injEq] at shape
              obtain ⟨rfl, shape⟩ := shape
              exact .inr ⟨front, behind, shape, isDrawn, rfl, inside⟩
        · rintro (⟨rfl, isDrawn, rfl⟩ |
            ⟨front, behind, rfl, isDrawn, rfl, inside⟩)
          · exact ⟨[], rest, rfl, isDrawn, rfl, onPage⟩
          · exact ⟨first :: front, behind, rfl, isDrawn, rfl, inside⟩
      rw [layout, split, List.mem_append, here]
      refine or_congr_right ?_
      by_cases next : (grid.after cursor (move first)).y < grid.height
      · rw [if_pos next, inductionHypothesis next]
      · rw [if_neg next]
        constructor
        · intro member
          cases member
        · rintro ⟨front, behind, -, -, rfl, inside⟩
          exact
            absurd (Nat.lt_of_le_of_lt (le_afterAll _ _) inside) next

end Layouts

/-! ## Numbered cells -/

/-- The cells from the row at `top` on, by their number. -/
def cell (grid : TextGrid) (columns top index : Nat) : Cursor where
  x := grid.cellWidth * (index % columns)
  y := top + grid.cellHeight * (index / columns)

section Cells

variable
  {grid : TextGrid}
  {columns : Nat}
  {top : Nat}

/-- Later cells are not above earlier ones. -/
theorem cell_y_le
    {first second : Nat}
    (ordered : first ≤ second) :
    (grid.cell columns top first).y ≤ (grid.cell columns top second).y :=
  Nat.add_le_add_left
    (Nat.mul_le_mul_left _ (Nat.div_le_div_right ordered)) _

/-- Cells with different numbers are different. -/
theorem cell_injective
    (narrow : 0 < grid.cellWidth)
    (low : 0 < grid.cellHeight) :
    Function.Injective (grid.cell columns top) := by
  intro first second same
  rw [cell, cell, Cursor.mk.injEq] at same
  have column := Nat.eq_of_mul_eq_mul_left narrow same.1
  have row := Nat.eq_of_mul_eq_mul_left low (Nat.add_left_cancel same.2)
  rw [← Nat.div_add_mod first columns, row, column, Nat.div_add_mod]

/-- Moving to the right passes some cells, or those up to the end of the row. -/
theorem advance_cell
    (wide : grid.width = grid.cellWidth * columns)
    (narrow : 0 < grid.cellWidth)
    (some : 0 < columns)
    (cells index : Nat) :
    grid.advance cells (grid.cell columns top index) =
      grid.cell columns top
        (index + min cells (columns - index % columns)) := by
  have column := Nat.mod_lt index some
  have whole := Nat.div_add_mod index columns
  have moved :
      (grid.cell columns top index).x + cells * grid.cellWidth =
        grid.cellWidth * (index % columns + cells) := by
    rw [cell, Nat.mul_add, Nat.mul_comm cells]
  have edge :
      grid.width ≤ (grid.cell columns top index).x + cells * grid.cellWidth ↔
        columns ≤ index % columns + cells := by
    rw [moved, wide, Nat.mul_le_mul_left_iff narrow]
  rw [advance]
  by_cases past : columns ≤ index % columns + cells
  · have next :
        (index + (columns - index % columns)) / columns =
            index / columns + 1 ∧
          (index + (columns - index % columns)) % columns = 0 := by
      rw [Nat.div_mod_unique some, Nat.mul_add]
      omega
    rw [if_pos (edge.mpr past), Nat.min_eq_right (by omega), cell, cell,
      next.1, next.2, Nat.mul_add, Nat.mul_one, Nat.mul_zero, Nat.add_assoc]
  · have next :
        (index + cells) / columns = index / columns ∧
          (index + cells) % columns = index % columns + cells := by
      rw [Nat.div_mod_unique some]
      omega
    rw [if_neg (edge.not.mpr past), moved, Nat.min_eq_left (by omega), cell,
      cell, next.1, next.2]

/-- Moving to the right by one passes one cell. -/
theorem advance_one_cell
    (wide : grid.width = grid.cellWidth * columns)
    (narrow : 0 < grid.cellWidth)
    (some : 0 < columns)
    (index : Nat) :
    grid.advance 1 (grid.cell columns top index) =
      grid.cell columns top (index + 1) := by
  have column := Nat.mod_lt index some
  rw [advance_cell wide narrow some, Nat.min_eq_left (by omega)]

section Text

variable
  {α : Type*}
  {move : α → CursorMove}
  {drawn : α → Bool}
  (wide : grid.width = grid.cellWidth * columns)
  (narrow : 0 < grid.cellWidth)
  (low : 0 < grid.cellHeight)
  (some : 0 < columns)

include wide narrow some in
/-- Text that only moves to the right is put into consecutive cells. -/
theorem exists_cell_of_mem_layout
    {index : Nat}
    {text : List α}
    (advances : ∀ character ∈ text, move character = .advance)
    {placed : Cursor × α}
    (member :
      placed ∈ grid.layout move drawn (grid.cell columns top index) text) :
    ∃ number ≥ index, placed.1 = grid.cell columns top number := by
  induction text generalizing index with
  | nil =>
      cases member
  | cons first rest inductionHypothesis =>
      rw [List.forall_mem_cons] at advances
      rw [layout, advances.1, after, advance_one_cell wide narrow some]
        at member
      rcases List.mem_append.mp member with here | behind
      · split at here
        · rw [List.mem_singleton.mp here]
          exact ⟨index, Nat.le_refl _, rfl⟩
        · cases here
      · split at behind
        · obtain ⟨number, later, place⟩ :=
            inductionHypothesis advances.2 behind
          exact ⟨number, Nat.le_of_succ_le later, place⟩
        · cases behind

include wide narrow low some in
/-- Text that only moves to the right is not drawn into one cell twice. -/
theorem nodup_layout
    {index : Nat}
    {text : List α}
    (advances : ∀ character ∈ text, move character = .advance) :
    ((grid.layout move drawn (grid.cell columns top index) text).map
      Prod.fst).Nodup := by
  induction text generalizing index with
  | nil =>
      exact List.nodup_nil
  | cons first rest inductionHypothesis =>
      rw [List.forall_mem_cons] at advances
      have later := @inductionHypothesis (index + 1) advances.2
      have apart :
          grid.cell columns top index ∉
            (grid.layout move drawn (grid.cell columns top (index + 1))
              rest).map Prod.fst := by
        intro member
        obtain ⟨placed, member, same⟩ := List.mem_map.mp member
        obtain ⟨number, behind, place⟩ :=
          exists_cell_of_mem_layout wide narrow some advances.2 member
        have equal := cell_injective narrow low (same.symm.trans place)
        omega
      rw [layout, advances.1, after, advance_one_cell wide narrow some]
      split
      · split
        · exact List.nodup_cons.mpr ⟨apart, later⟩
        · exact List.nodup_singleton _
      · split
        · exact later
        · exact List.nodup_nil

end Text

end Cells

end TextGrid

end HobbyOS.Library
