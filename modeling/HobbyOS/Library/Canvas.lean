import Mathlib.Data.List.Nodup

namespace HobbyOS.Library

/-!
# Pictures that are painted over

A picture gives each place a color.  A stroke lays a color on each place it
covers, which is blended with the color there, and leaves the others.  Behind a
list of strokes each place has gone through the blends of the strokes that
cover it, and no others, in their order.
-/

variable {Place Color : Type}

/-- The colors that are laid on the places that are covered. -/
abbrev Stroke (Place Color : Type) := Place → Option Color

/-- A stroke over a picture. -/
def paintOver
    (blend : Color → Color → Color)
    (picture : Place → Color)
    (stroke : Stroke Place Color)
    (place : Place) :
    Color :=
  match stroke place with
  | none => picture place
  | some color => blend color (picture place)

/-- Strokes over a picture, the first one first. -/
def paintAll
    (blend : Color → Color → Color)
    (picture : Place → Color)
    (strokes : List (Stroke Place Color)) :
    Place → Color :=
  strokes.foldl (paintOver blend) picture

/-- A stroke of one color. -/
def solidStroke
    (covers : Place → Prop)
    [DecidablePred covers]
    (color : Color) :
    Stroke Place Color :=
  fun place => if covers place then some color else none

section Painting

variable
  {blend : Color → Color → Color}
  {picture other : Place → Color}
  {stroke : Stroke Place Color}
  {place : Place}
  {color : Color}

/-- A covered place is blended. -/
theorem paintOver_of_some (covered : stroke place = some color) :
    paintOver blend picture stroke place = blend color (picture place) := by
  rw [paintOver, covered]

/-- A place that is not covered stays. -/
theorem paintOver_of_none (uncovered : stroke place = none) :
    paintOver blend picture stroke place = picture place := by
  rw [paintOver, uncovered]

/-- Some strokes behind others. -/
theorem paintAll_append (front back : List (Stroke Place Color)) :
    paintAll blend picture (front ++ back) =
      paintAll blend (paintAll blend picture front) back :=
  List.foldl_append

/-- Only the colors that are laid on a place count there. -/
theorem paintAll_eq_foldl (strokes : List (Stroke Place Color)) :
    paintAll blend picture strokes place =
      (strokes.filterMap (· place)).foldl (fun below color => blend color below)
        (picture place) := by
  induction strokes generalizing picture with
  | nil =>
      rfl
  | cons stroke strokes inductionHypothesis =>
      rw [paintAll, List.foldl_cons, ← paintAll, inductionHypothesis,
        List.filterMap_cons, paintOver]
      cases stroke place with
      | none =>
          rfl
      | some color =>
          rfl

/-- What is painted at a place depends on what is there only. -/
theorem paintAll_congr
    {strokes others : List (Stroke Place Color)}
    (samePicture : picture place = other place)
    (sameStrokes :
      strokes.filterMap (· place) = others.filterMap (· place)) :
    paintAll blend picture strokes place =
      paintAll blend other others place := by
  rw [paintAll_eq_foldl, paintAll_eq_foldl, samePicture, sameStrokes]

/-- A place that no stroke covers stays. -/
theorem paintAll_of_uncovered
    {strokes : List (Stroke Place Color)}
    (stays : ∀ stroke ∈ strokes, stroke place = none) :
    paintAll blend picture strokes place = picture place := by
  rw [paintAll_eq_foldl, List.filterMap_eq_nil_iff.mpr stays]
  rfl

/-- A place that one stroke covers is blended once. -/
theorem paintAll_of_once
    {before after : List (Stroke Place Color)}
    (early : ∀ other ∈ before, other place = none)
    (covered : stroke place = some color)
    (late : ∀ other ∈ after, other place = none) :
    paintAll blend picture (before ++ stroke :: after) place =
      blend color (picture place) := by
  rw [paintAll_append, paintAll, List.foldl_cons]
  refine (paintAll_of_uncovered late).trans ?_
  rw [paintOver_of_some covered, paintAll_of_uncovered early]

/-- A stroke whose colors hide what is below them. -/
def Hiding
    (blend : Color → Color → Color)
    (stroke : Stroke Place Color) :
    Prop :=
  ∀ place color, stroke place = some color → ∀ below, blend color below = color

/-- A stroke of one hiding color. -/
theorem hiding_solidStroke
    {covers : Place → Prop}
    [DecidablePred covers]
    (hides : ∀ below, blend color below = color) :
    Hiding blend (solidStroke covers color) := by
  intro place other covered
  rw [solidStroke] at covered
  split at covered
  · obtain rfl := Option.some.inj covered
    exact hides
  · cases covered

/-- Where all strokes hide what is below them the last one is seen. -/
theorem paintAll_of_hiding
    {strokes : List (Stroke Place Color)}
    (hides : ∀ stroke ∈ strokes, Hiding blend stroke) :
    paintAll blend picture strokes place =
      ((strokes.filterMap (· place)).getLast?).getD (picture place) := by
  have colorsHide :
      ∀ color ∈ strokes.filterMap (· place),
        ∀ below, blend color below = color := by
    intro color member
    obtain ⟨stroke, isStroke, covered⟩ := List.mem_filterMap.mp member
    exact hides stroke isStroke place color covered
  rw [paintAll_eq_foldl]
  generalize strokes.filterMap (· place) = colors at colorsHide
  generalize picture place = below
  induction colors generalizing below with
  | nil =>
      rfl
  | cons color colors inductionHypothesis =>
      rw [List.forall_mem_cons] at colorsHide
      rw [List.foldl_cons, inductionHypothesis colorsHide.2, colorsHide.1,
        List.getLast?_cons]
      rfl

/-- Where some strokes of one color lie, the last one has this color. -/
theorem getLast?_filterMap_of_color
    {strokes : List (Stroke Place Color)}
    {covers : Place → Prop}
    [DecidablePred covers]
    (colored :
      ∀ stroke ∈ strokes,
        ∀ other, stroke place = some other → other = color)
    (covered :
      (∃ stroke ∈ strokes, (stroke place).isSome = true) ↔ covers place) :
    (strokes.filterMap (· place)).getLast? =
      solidStroke covers color place := by
  rw [solidStroke]
  cases last : (strokes.filterMap (· place)).getLast? with
  | none =>
      have nothing := List.getLast?_eq_none_iff.mp last
      rw [List.filterMap_eq_nil_iff] at nothing
      refine (if_neg fun here => ?_).symm
      obtain ⟨stroke, isStroke, isCovered⟩ := covered.mpr here
      rw [nothing stroke isStroke] at isCovered
      cases isCovered
  | some other =>
      obtain ⟨stroke, isStroke, isOther⟩ :=
        List.mem_filterMap.mp (List.mem_of_getLast? last)
      rw [if_pos (covered.mp ⟨stroke, isStroke, by rw [isOther]; rfl⟩),
        colored stroke isStroke other isOther]

end Painting

/-! ## Strokes that are made of marks -/

section Marks

variable [DecidableEq Place]

/-- A mark covers one place. -/
def markStroke (mark : Place × Color) : Stroke Place Color :=
  solidStroke (· = mark.1) mark.2

/-- Some marks as one stroke. -/
def marksStroke (marks : List (Place × Color)) : Stroke Place Color :=
  fun place => (marks.find? fun mark => mark.1 = place).map (·.2)

variable
  {marks : List (Place × Color)}
  {place : Place}
  {color : Color}

/-- Marks cover their places only. -/
theorem marksStroke_of_unmarked (unmarked : ∀ mark ∈ marks, mark.1 ≠ place) :
    marksStroke marks place = none := by
  rw [marksStroke, Option.map_eq_none_iff, List.find?_eq_none]
  intro mark member
  rw [decide_eq_true_eq]
  exact unmarked mark member

/-- The color of a mark at its place. -/
theorem marksStroke_of_mem
    (once : (marks.map (·.1)).Nodup)
    (marked : (place, color) ∈ marks) :
    marksStroke marks place = some color := by
  induction marks with
  | nil =>
      cases marked
  | cons mark marks inductionHypothesis =>
      rw [List.map_cons, List.nodup_cons] at once
      rw [marksStroke, List.find?_cons]
      rcases List.mem_cons.mp marked with rfl | later
      · rw [decide_eq_true rfl]
        rfl
      · have different : mark.1 ≠ place := fun same =>
          once.1 (List.mem_map.mpr ⟨(place, color), later, same.symm⟩)
        rw [decide_eq_false different]
        exact inductionHypothesis once.2 later

/-- Marks on different places are one stroke. -/
theorem paintAll_marks
    {blend : Color → Color → Color}
    {picture : Place → Color}
    (once : (marks.map (·.1)).Nodup)
    (place : Place) :
    paintAll blend picture (marks.map markStroke) place =
      paintOver blend picture (marksStroke marks) place := by
  by_cases marked : ∃ mark ∈ marks, mark.1 = place
  · obtain ⟨mark, member, rfl⟩ := marked
    obtain ⟨front, back, rfl⟩ := List.append_of_mem member
    have covered := marksStroke_of_mem once member
    rw [List.map_append, List.map_cons] at once
    have apart := List.nodup_middle.mp once
    rw [List.nodup_cons, List.mem_append] at apart
    have beside (other : Place × Color)
        (listed : other ∈ front ∨ other ∈ back) :
        markStroke other mark.1 = none := by
      refine if_neg fun same => apart.1 ?_
      rw [same]
      exact listed.imp List.mem_map_of_mem List.mem_map_of_mem
    rw [List.map_append, List.map_cons, paintOver_of_some covered]
    refine paintAll_of_once ?_ (if_pos rfl) ?_
    · exact List.forall_mem_map.mpr fun other listed =>
        beside other (.inl listed)
    · exact List.forall_mem_map.mpr fun other listed =>
        beside other (.inr listed)
  · have unmarked : ∀ mark ∈ marks, mark.1 ≠ place := fun mark member same =>
      marked ⟨mark, member, same⟩
    rw [paintOver_of_none (marksStroke_of_unmarked unmarked)]
    refine paintAll_of_uncovered (List.forall_mem_map.mpr fun mark member => ?_)
    exact if_neg (Ne.symm (unmarked mark member))

/-- Marks of one color are a stroke of that color. -/
theorem marksStroke_map
    (places : List Place)
    (color : Color) :
    marksStroke (places.map fun place => (place, color)) =
      solidStroke (· ∈ places) color := by
  funext place
  rw [solidStroke]
  by_cases listed : place ∈ places
  · rw [if_pos listed, marksStroke, List.find?_map, Option.map_map]
    have found :
        (places.find? fun other => decide (other = place)).isSome = true :=
      List.find?_isSome.mpr ⟨place, listed, decide_eq_true rfl⟩
    obtain ⟨other, search⟩ := Option.isSome_iff_exists.mp found
    exact congrArg (Option.map _) search
  · rw [if_neg listed]
    refine marksStroke_of_unmarked fun mark member same => ?_
    obtain ⟨other, otherListed, rfl⟩ := List.mem_map.mp member
    obtain rfl : other = place := same
    exact listed otherListed

end Marks

end HobbyOS.Library
