import Mathlib.Algebra.Group.Nat.Defs
import Mathlib.Tactic.Ring

namespace HobbyOS.Library

/-!
# Digital lines

A line is drawn with one point for each step along its major axis.  A decision
value says whether the next point moves along the minor axis too.  It is the
distance of the next midpoint from the ideal line, scaled to an integer, so for
slopes from zero to one every point is the nearest one, and for falling slopes
the line never leaves its row.
-/

/-- The displacement along the minor axis, and the decision value. -/
structure LinePoint where
  shift : Int
  decision : Int

/-- One step along the major axis. -/
def LinePoint.next (major minor : Int) (point : LinePoint) : LinePoint :=
  if 0 < point.decision then
    { shift := point.shift + 1
      decision := point.decision - 2 * major + 2 * minor }
  else
    { point with decision := point.decision + 2 * minor }

/-- The point after some steps along the major axis. -/
def linePoint (major minor : Int) : Nat → LinePoint
  | 0 => { shift := 0, decision := 2 * minor - major }
  | steps + 1 => (linePoint major minor steps).next major minor

section Lines

variable {major minor : Int}

/-- The next displacement is the same or one more. -/
theorem shift_linePoint_succ (major minor : Int) (steps : Nat) :
    (linePoint major minor (steps + 1)).shift =
        (linePoint major minor steps).shift ∨
      (linePoint major minor (steps + 1)).shift =
        (linePoint major minor steps).shift + 1 := by
  rw [linePoint, LinePoint.next]
  split
  · exact .inr rfl
  · exact .inl rfl

/-- The decision value is the distance of the next midpoint. -/
theorem decision_linePoint (major minor : Int) (steps : Nat) :
    (linePoint major minor steps).decision =
      2 * (minor * (steps + 1)) - major -
        2 * (major * (linePoint major minor steps).shift) := by
  induction steps with
  | zero =>
      rw [linePoint]
      ring
  | succ steps inductionHypothesis =>
      rw [linePoint, LinePoint.next]
      split
      · dsimp only
        rw [inductionHypothesis]
        push_cast
        ring
      · dsimp only
        rw [inductionHypothesis]
        push_cast
        ring

/-- A line with a slope from zero to one is drawn to the nearest points. -/
theorem linePoint_error
    (rising : 0 ≤ minor)
    (shallow : minor ≤ major)
    (steps : Nat) :
    -major ≤ 2 * (minor * steps - major * (linePoint major minor steps).shift) ∧
      2 * (minor * steps - major * (linePoint major minor steps).shift) ≤
        major := by
  induction steps with
  | zero =>
      rw [linePoint]
      dsimp only
      rw [Int.mul_zero, Int.natCast_zero, Int.mul_zero]
      omega
  | succ steps inductionHypothesis =>
      have decision := decision_linePoint major minor steps
      have moved :
          major * ((linePoint major minor steps).shift + 1) =
            major * (linePoint major minor steps).shift + major := by
        ring
      have next : minor * ((steps : Int) + 1) = minor * steps + minor := by
        ring
      rw [next] at decision
      rw [linePoint, LinePoint.next, Int.natCast_succ, next]
      split
      · dsimp only
        rw [moved]
        omega
      · dsimp only
        omega

/-- The decision values of a rising line are small. -/
theorem decision_linePoint_bounds
    (rising : 0 ≤ minor)
    (shallow : minor ≤ major)
    (steps : Nat) :
    -(2 * major) ≤ (linePoint major minor steps).decision ∧
      (linePoint major minor steps).decision ≤ 2 * major := by
  have error := linePoint_error rising shallow steps
  have next : minor * ((steps : Int) + 1) = minor * steps + minor := by
    ring
  rw [decision_linePoint, next]
  omega

/-- The displacement grows by at most one each step. -/
theorem shift_linePoint_bounds (major minor : Int) (steps : Nat) :
    0 ≤ (linePoint major minor steps).shift ∧
      (linePoint major minor steps).shift ≤ steps := by
  induction steps with
  | zero =>
      exact ⟨Int.le_refl 0, Int.le_refl 0⟩
  | succ steps inductionHypothesis =>
      have moved := shift_linePoint_succ major minor steps
      omega

/-- A falling line never moves along its minor axis. -/
theorem shift_linePoint_of_falling
    (forward : 0 ≤ major)
    (falling : minor ≤ 0)
    (steps : Nat) :
    (linePoint major minor steps).shift = 0 := by
  induction steps with
  | zero =>
      rfl
  | succ steps inductionHypothesis =>
      have decision := decision_linePoint major minor steps
      rw [inductionHypothesis, Int.mul_zero, Int.mul_zero] at decision
      have down : minor * ((steps : Int) + 1) ≤ 0 :=
        Int.mul_nonpos_of_nonpos_of_nonneg falling (by omega)
      rw [linePoint, LinePoint.next, if_neg (by omega)]
      exact inductionHypothesis

/-- A point near a rising line is not beyond its end. -/
theorem le_of_near
    (rising : 0 ≤ minor)
    {along across : Int}
    (inside : along < major)
    (forward : 0 ≤ along)
    (near : 2 * (major * across - minor * along) ≤ major) :
    across ≤ minor := by
  by_contra beyond
  have past : major * (minor + 1) ≤ major * across :=
    Int.mul_le_mul_of_nonneg_left (by omega) (by omega)
  have before : minor * along ≤ minor * major :=
    Int.mul_le_mul_of_nonneg_left (by omega) rising
  rw [Int.mul_add, Int.mul_one, Int.mul_comm major minor] at past
  omega

end Lines

end HobbyOS.Library
