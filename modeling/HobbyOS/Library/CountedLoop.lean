import Mathlib.Algebra.Group.Nat.Defs
import Mathlib.Data.List.Nodup
import HobbyOS.Library.ByteMemory

namespace HobbyOS.Library

/-!
# Loops that count a machine integer up

The values that a counter takes in a loop.  A loop whose bound is inclusive
visits the values between its bounds, in order, but if its bound is the
largest value of the type then its condition never fails.  A loop whose bound
is exclusive always ends.
-/

variable {width : Nat}

/-- The values of `for (i = first; i <= last; i++)`, if the loop ends. -/
def countUpTo :
    Nat → BitVec width → BitVec width → Option (List (BitVec width))
  | 0, _, _ => none
  | fuel + 1, first, last =>
      if first ≤ last then
        (countUpTo fuel (first + 1) last).map (first :: ·)
      else
        some []

/-- The next value of a counter that does not wrap. -/
theorem toNat_add_one_of_room
    {first : BitVec width}
    (room : first.toNat + 1 < 2 ^ width) :
    (first + 1).toNat = first.toNat + 1 := by
  have one : (1 : BitVec width).toNat = 1 :=
    (BitVec.toNat_ofNat 1 width).trans (Nat.mod_eq_of_lt (by omega))
  rw [BitVec.toNat_add, one, Nat.mod_eq_of_lt room]

/-- The next value of a counter below its bound. -/
theorem toNat_add_one
    {first last : BitVec width}
    (ordered : first ≤ last)
    (room : last.toNat + 1 < 2 ^ width) :
    (first + 1).toNat = first.toNat + 1 := by
  have bounded : first.toNat ≤ last.toNat := ordered
  exact toNat_add_one_of_room (by omega)

/-- No value ends a loop up to the largest one. -/
theorem countUpTo_largest
    {last : BitVec width}
    (largest : last.toNat + 1 = 2 ^ width)
    (fuel : Nat)
    (first : BitVec width) :
    countUpTo fuel first last = none := by
  induction fuel generalizing first with
  | zero =>
      rfl
  | succ fuel inductionHypothesis =>
      have below : first ≤ last := by
        have bounded := first.isLt
        exact BitVec.le_def.mpr (by omega)
      rw [countUpTo, if_pos below, inductionHypothesis]
      rfl

/-- The bound of a loop that ends is not the largest value. -/
theorem room_of_countUpTo
    {fuel : Nat}
    {first last : BitVec width}
    {values : List (BitVec width)}
    (ended : countUpTo fuel first last = some values) :
    last.toNat + 1 < 2 ^ width := by
  by_contra full
  have bounded := last.isLt
  rw [countUpTo_largest (by omega)] at ended
  cases ended

/-- A loop that ends goes through the values between its bounds. -/
theorem mem_of_countUpTo
    {fuel : Nat}
    {first last : BitVec width}
    {values : List (BitVec width)}
    (ended : countUpTo fuel first last = some values)
    {value : BitVec width} :
    value ∈ values ↔ first ≤ value ∧ value ≤ last := by
  have room := room_of_countUpTo ended
  rw [BitVec.le_def, BitVec.le_def]
  induction fuel generalizing first values with
  | zero =>
      cases ended
  | succ fuel inductionHypothesis =>
      rw [countUpTo] at ended
      by_cases ordered : first ≤ last
      · rw [if_pos ordered, Option.map_eq_some_iff] at ended
        obtain ⟨rest, restEnded, rfl⟩ := ended
        have next := toNat_add_one ordered room
        have behind := inductionHypothesis restEnded
        rw [BitVec.le_def] at ordered
        rw [next] at behind
        refine List.mem_cons.trans ((or_congr_right behind).trans ?_)
        rw [← BitVec.toNat_inj]
        omega
      · rw [if_neg ordered, Option.some.injEq] at ended
        subst ended
        rw [BitVec.le_def] at ordered
        simp only [List.not_mem_nil, false_iff]
        omega

/-- A loop visits no value twice. -/
theorem nodup_of_countUpTo
    {fuel : Nat}
    {first last : BitVec width}
    {values : List (BitVec width)}
    (ended : countUpTo fuel first last = some values) :
    values.Nodup := by
  have room := room_of_countUpTo ended
  induction fuel generalizing first values with
  | zero =>
      cases ended
  | succ fuel inductionHypothesis =>
      rw [countUpTo] at ended
      by_cases ordered : first ≤ last
      · rw [if_pos ordered, Option.map_eq_some_iff] at ended
        obtain ⟨rest, restEnded, rfl⟩ := ended
        refine List.nodup_cons.mpr ⟨?_, inductionHypothesis restEnded⟩
        rw [mem_of_countUpTo restEnded, BitVec.le_def,
          toNat_add_one ordered room]
        omega
      · rw [if_neg ordered, Option.some.injEq] at ended
        subst ended
        exact List.nodup_nil

/-- A loop up to a smaller value ends. -/
theorem countUpTo_ends
    {last : BitVec width}
    (room : last.toNat + 1 < 2 ^ width)
    (first : BitVec width) :
    ∃ values,
      ∀ fuel > last.toNat + 1 - first.toNat,
        countUpTo fuel first last = some values := by
  induction steps : last.toNat + 1 - first.toNat generalizing first with
  | zero =>
      refine ⟨[], fun fuel fueled => ?_⟩
      obtain ⟨fuel, rfl⟩ :=
        Nat.exists_eq_succ_of_ne_zero (Nat.ne_zero_of_lt fueled)
      have ordered : ¬first ≤ last := by
        rw [BitVec.le_def]
        omega
      rw [countUpTo, if_neg ordered]
  | succ steps inductionHypothesis =>
      have ordered : first ≤ last := by
        rw [BitVec.le_def]
        omega
      have next := toNat_add_one ordered room
      obtain ⟨values, ends⟩ := inductionHypothesis (first + 1) (by omega)
      refine ⟨first :: values, fun fuel fueled => ?_⟩
      obtain ⟨fuel, rfl⟩ :=
        Nat.exists_eq_succ_of_ne_zero (Nat.ne_zero_of_lt fueled)
      rw [countUpTo, if_pos ordered, ends fuel (by omega)]
      rfl

/-- A counter comes nearer to its bound. -/
theorem toNat_sub_add_one_lt
    {first last : BitVec width}
    (below : first < last) :
    last.toNat - (first + 1).toNat < last.toNat - first.toNat := by
  have bounded := last.isLt
  rw [BitVec.lt_def] at below
  rw [toNat_add_one_of_room (by omega)]
  omega

/-- The values of `for (i = first; i < last; i++)`. -/
def countBelow (first last : BitVec width) : List (BitVec width) :=
  if first < last then
    first :: countBelow (first + 1) last
  else
    []
termination_by last.toNat - first.toNat
decreasing_by exact toNat_sub_add_one_lt ‹_›

/-- A loop that runs its body a number of times. -/
theorem countBelow_add
    {first : BitVec width}
    {steps : Nat}
    (room : first.toNat + steps < 2 ^ width) :
    countBelow first (first + BitVec.ofNat width steps) =
      (List.range steps).map fun step => first + BitVec.ofNat width step := by
  have last :
      (first + BitVec.ofNat width steps).toNat = first.toNat + steps := by
    rw [BitVec.toNat_add, BitVec.toNat_ofNat, Nat.add_mod_mod,
      Nat.mod_eq_of_lt room]
  induction steps generalizing first with
  | zero =>
      rw [countBelow, if_neg]
      · rfl
      · rw [BitVec.lt_def, last]
        exact Nat.lt_irrefl _
  | succ steps inductionHypothesis =>
      have next := toNat_add_one_of_room (show first.toNat + 1 < _ by omega)
      have room' : (first + 1).toNat + steps < 2 ^ width := by omega
      have behind :=
        inductionHypothesis room' (by
          rw [add_one_add_ofNat, last, next]
          omega)
      rw [add_one_add_ofNat] at behind
      rw [countBelow, if_pos, behind, List.range_succ_eq_map, List.map_cons,
        List.map_map, BitVec.add_zero]
      · refine congrArg (first :: ·) (List.map_congr_left fun step _ => ?_)
        exact add_one_add_ofNat first step
      · rw [BitVec.lt_def, last]
        omega

end HobbyOS.Library
