import HobbyOS.Library.DigitalLine
import HobbyOS.Video.Shapes

namespace HobbyOS

open Library

/-!
# Lines

`sc_line` of `vbe_driver.c`.  Its two loops are one loop with the axes
exchanged.  While the decision variable does not overflow the loop goes through
the points of the digital line.
-/

/-- The variables of a loop of `sc_line`, and its coordinates by axis. -/
structure LineVars where
  major : BitVec 32
  minor : BitVec 32
  decision : BitVec 32

/-- The body of a loop of `sc_line` behind `sc_setpixel`, and `major++`. -/
def LineVars.next
    (dMajor dMinor : BitVec 32)
    (vars : LineVars) :
    LineVars :=
  let vars :=
    if (0 : BitVec 32).slt vars.decision then
      { vars with
        minor := vars.minor + 1
        decision := vars.decision - 2 * dMajor }
    else
      vars
  { vars with
    major := vars.major + 1
    decision := vars.decision + 2 * dMinor }

/-- The coordinates that a loop of `sc_line` sets, by axis. -/
def linePoints
    (dMajor dMinor last : BitVec 32) :
    Nat → LineVars → Option (List (BitVec 32 × BitVec 32))
  | 0, _ => none
  | fuel + 1, vars =>
      if vars.major < last then
        (linePoints dMajor dMinor last fuel (vars.next dMajor dMinor)).map
          ((vars.major, vars.minor) :: ·)
      else
        some []

/-- The pixels that `sc_line` sets, in order. -/
def scLinePixels
    (fuel : Nat)
    (x0 y0 x1 y1 : BitVec 32) :
    Option (List Pixel) :=
  let dx := x1 - x0
  let dy := y1 - y0
  if dy.slt dx ∧ (-dy).slt dx then
    (linePoints dx dy x1 fuel
        { major := x0, minor := y0, decision := 2 * dy - dx }).map
      fun points => points.map fun (x, y) => { x, y }
  else
    (linePoints dy dx y1 fuel
        { major := y0, minor := x0, decision := 2 * dx - dy }).map
      fun points => points.map fun (y, x) => { x, y }

/-- `sc_line`. -/
def scLine
    (fuel : Nat)
    (mode : ModeInfoBlock)
    (memory : Memory)
    (x0 y0 x1 y1 color : BitVec 32) :
    Option Memory :=
  (scLinePixels fuel x0 y0 x1 y1).map (paint mode memory color)

section Loops

variable {dMajor dMinor last : BitVec 32}

/-- Each step moves along the major axis. -/
theorem major_iterate_next
    (dMajor dMinor : BitVec 32)
    (steps : Nat)
    (vars : LineVars) :
    ((LineVars.next dMajor dMinor)^[steps] vars).major =
      vars.major + BitVec.ofNat 32 steps := by
  induction steps with
  | zero =>
      exact (BitVec.add_zero _).symm
  | succ steps inductionHypothesis =>
      have moved (vars : LineVars) :
          (vars.next dMajor dMinor).major = vars.major + 1 := by
        rw [LineVars.next]
        dsimp only
        split
        · rfl
        · rfl
      rw [Function.iterate_succ_apply', moved, inductionHypothesis,
        BitVec.ofNat_add, BitVec.add_assoc]
      rfl

/-- A loop ends, and sets one point for each step up to its end. -/
theorem linePoints_eq
    (dMajor dMinor : BitVec 32)
    {fuel : Nat}
    (vars : LineVars)
    (enough : last.toNat - vars.major.toNat < fuel) :
    linePoints dMajor dMinor last fuel vars =
      some
        ((List.range (last.toNat - vars.major.toNat)).map fun step =>
          let vars := (LineVars.next dMajor dMinor)^[step] vars
          (vars.major, vars.minor)) := by
  induction fuel generalizing vars with
  | zero =>
      cases enough
  | succ fuel inductionHypothesis =>
      rw [linePoints]
      by_cases before : vars.major < last
      · have bounded := last.isLt
        have ahead := BitVec.lt_def.mp before
        have moved := major_iterate_next dMajor dMinor 1 vars
        have next :
            (vars.next dMajor dMinor).major.toNat = vars.major.toNat + 1 := by
          have one : (BitVec.ofNat 32 1).toNat = 1 := rfl
          rw [Function.iterate_one] at moved
          rw [moved, BitVec.toNat_add, one, Nat.mod_eq_of_lt (by omega)]
        have count :
            last.toNat - vars.major.toNat =
              last.toNat - (vars.next dMajor dMinor).major.toNat + 1 := by
          omega
        rw [if_pos before, inductionHypothesis _ (by omega), count,
          List.range_succ_eq_map, List.map_cons, List.map_map,
          Option.map_some]
        rfl
      · have behind : last.toNat - vars.major.toNat = 0 :=
          Nat.sub_eq_zero_of_le (Nat.le_of_not_lt before)
        rw [if_neg before, behind]
        rfl

end Loops

/-! ## The digital line -/

/-- The variables of a loop at a point of the digital line. -/
def LineVars.atPoint
    (first firstMinor : BitVec 32)
    (steps : Nat)
    (point : LinePoint) :
    LineVars where
  major := first + BitVec.ofNat 32 steps
  minor := firstMinor + BitVec.ofInt 32 point.shift
  decision := BitVec.ofInt 32 point.decision

/-- The decision variable does not overflow. -/
def DecisionFits (point : LinePoint) : Prop :=
  -2 ^ 31 ≤ point.decision ∧ point.decision < 2 ^ 31

/-- A difference of machine integers. -/
theorem ofInt_sub {width : Nat} (first second : Int) :
    BitVec.ofInt width (first - second) =
      BitVec.ofInt width first - BitVec.ofInt width second := by
  rw [Int.sub_eq_add_neg, BitVec.ofInt_add, BitVec.ofInt_neg,
    BitVec.sub_eq_add_neg]

/-- A machine integer is negative or positive as the integer in it. -/
theorem slt_ofInt_iff
    {first second : Int}
    (firstFits : -2 ^ 31 ≤ first ∧ first < 2 ^ 31)
    (secondFits : -2 ^ 31 ≤ second ∧ second < 2 ^ 31) :
    (BitVec.ofInt 32 first).slt (BitVec.ofInt 32 second) = true ↔
      first < second := by
  rw [BitVec.slt_iff_toInt_lt,
    BitVec.toInt_ofInt_eq_self (by decide) firstFits.1 firstFits.2,
    BitVec.toInt_ofInt_eq_self (by decide) secondFits.1 secondFits.2]

section Simulation

variable
  {dMajor dMinor : Int}
  {first firstMinor last : BitVec 32}

/-- One step of a loop is one step of the digital line. -/
theorem next_atPoint
    {steps : Nat}
    {point : LinePoint}
    (fits : DecisionFits point) :
    (LineVars.atPoint first firstMinor steps point).next
        (BitVec.ofInt 32 dMajor) (BitVec.ofInt 32 dMinor) =
      LineVars.atPoint first firstMinor (steps + 1)
        (point.next dMajor dMinor) := by
  have positive :
      (0 : BitVec 32).slt (BitVec.ofInt 32 point.decision) = true ↔
        0 < point.decision :=
    @slt_ofInt_iff 0 _ (by decide) fits
  have twice (value : Int) :
      BitVec.ofInt 32 (2 * value) = 2 * BitVec.ofInt 32 value :=
    BitVec.ofInt_mul 2 value
  have one : BitVec.ofInt 32 1 = 1 := rfl
  rw [LineVars.next, LineVars.atPoint, LinePoint.next]
  dsimp only
  by_cases above : 0 < point.decision
  · rw [if_pos (positive.mpr above), if_pos above, LineVars.atPoint,
      BitVec.ofNat_add, BitVec.ofInt_add, BitVec.ofInt_add, ofInt_sub,
      twice, twice, one, BitVec.add_assoc, BitVec.add_assoc]
    rfl
  · rw [if_neg (positive.not.mpr above), if_neg above, LineVars.atPoint,
      BitVec.ofNat_add, BitVec.ofInt_add, twice, BitVec.add_assoc]
    rfl

/-- A loop goes through the digital line until its decision overflows. -/
theorem iterate_next_atPoint
    {steps : Nat}
    (fits : ∀ step < steps, DecisionFits (linePoint dMajor dMinor step)) :
    (LineVars.next (BitVec.ofInt 32 dMajor) (BitVec.ofInt 32 dMinor))^[steps]
        (LineVars.atPoint first firstMinor 0 (linePoint dMajor dMinor 0)) =
      LineVars.atPoint first firstMinor steps
        (linePoint dMajor dMinor steps) := by
  induction steps with
  | zero =>
      rfl
  | succ steps inductionHypothesis =>
      rw [Function.iterate_succ_apply',
        inductionHypothesis fun step before => fits step (by omega),
        next_atPoint (fits steps (Nat.lt_succ_self steps))]
      rfl

/-- The start of a loop. -/
theorem atPoint_zero :
    LineVars.atPoint first firstMinor 0 (linePoint dMajor dMinor 0) =
      { major := first
        minor := firstMinor
        decision := 2 * BitVec.ofInt 32 dMinor - BitVec.ofInt 32 dMajor } := by
  have twice :
      BitVec.ofInt 32 (2 * dMinor) = 2 * BitVec.ofInt 32 dMinor :=
    BitVec.ofInt_mul 2 dMinor
  have nothing : firstMinor + BitVec.ofInt 32 0 = firstMinor :=
    BitVec.add_zero firstMinor
  have none : first + BitVec.ofNat 32 0 = first := BitVec.add_zero first
  rw [linePoint, LineVars.atPoint, ofInt_sub, twice, nothing, none]

/--
The points that a loop of `sc_line` sets, which are those of the digital line
up to the first overflow.
-/
structure PlotsPoints
    (dMajor dMinor : Int)
    (first firstMinor : BitVec 32)
    (count : Nat)
    (points : List (BitVec 32 × BitVec 32)) :
    Prop where
  length : points.length = count
  onLine :
    ∀ step (inside : step < points.length),
      (∀ earlier < step, DecisionFits (linePoint dMajor dMinor earlier)) →
      points[step] =
        (first + BitVec.ofNat 32 step,
          firstMinor + BitVec.ofInt 32 (linePoint dMajor dMinor step).shift)

/-- A loop of `sc_line` ends and plots the points of its line. -/
theorem linePoints_plots
    (dMajor dMinor : Int)
    (first firstMinor last : BitVec 32) :
    ∃ enough points,
      (∀ fuel ≥ enough,
        linePoints (BitVec.ofInt 32 dMajor) (BitVec.ofInt 32 dMinor) last fuel
            { major := first
              minor := firstMinor
              decision :=
                2 * BitVec.ofInt 32 dMinor - BitVec.ofInt 32 dMajor } =
          some points) ∧
      PlotsPoints dMajor dMinor first firstMinor
        (last.toNat - first.toNat) points := by
  rw [← atPoint_zero]
  have start :
      (LineVars.atPoint first firstMinor 0
          (linePoint dMajor dMinor 0)).major =
        first :=
    BitVec.add_zero first
  refine ⟨_, _, fun fuel enough => linePoints_eq _ _ _ enough, ?_, ?_⟩
  · rw [List.length_map, List.length_range, start]
  · intro step inside fits
    rw [List.getElem_map, List.getElem_range]
    dsimp only
    rw [iterate_next_atPoint fits]
    rfl

end Simulation

/-! ## The two branches -/

/-- The signed distance between two coordinates. -/
def displacement (first last : BitVec 32) : Int :=
  (last.toNat : Int) - first.toNat

/-- A difference of coordinates is their displacement. -/
theorem sub_eq_displacement (first last : BitVec 32) :
    last - first = BitVec.ofInt 32 (displacement first last) := by
  rw [displacement, ofInt_sub, BitVec.ofInt_natCast, BitVec.ofInt_natCast,
    BitVec.ofNat_toNat, BitVec.ofNat_toNat, BitVec.setWidth_eq,
    BitVec.setWidth_eq]

section Branches

variable
  {x0 y0 x1 y1 : BitVec 32}
  (smallX0 : x0.toNat < 2 ^ 16)
  (smallY0 : y0.toNat < 2 ^ 16)
  (smallX1 : x1.toNat < 2 ^ 16)
  (smallY1 : y1.toNat < 2 ^ 16)

include smallX0 smallY0 smallX1 smallY1

/-- The test for the loop along the x axis. -/
theorem shallow_iff :
    ((y1 - y0).slt (x1 - x0) = true ∧ (-(y1 - y0)).slt (x1 - x0) = true) ↔
      displacement y0 y1 < displacement x0 x1 ∧
        -displacement y0 y1 < displacement x0 x1 := by
  rw [sub_eq_displacement, sub_eq_displacement, ← BitVec.ofInt_neg,
    slt_ofInt_iff (by rw [displacement]; omega) (by rw [displacement]; omega),
    slt_ofInt_iff (by rw [displacement]; omega) (by rw [displacement]; omega)]

/-- A line that is wider than it is high is drawn along the x axis. -/
theorem scLinePixels_shallow
    (shallow :
      displacement y0 y1 < displacement x0 x1 ∧
        -displacement y0 y1 < displacement x0 x1) :
    ∃ enough points,
      (∀ fuel ≥ enough,
        scLinePixels fuel x0 y0 x1 y1 =
          some (points.map fun (x, y) => { x, y })) ∧
      PlotsPoints (displacement x0 x1) (displacement y0 y1) x0 y0
        (x1.toNat - x0.toNat) points := by
  obtain ⟨enough, points, ends, plots⟩ :=
    linePoints_plots (displacement x0 x1) (displacement y0 y1) x0 y0 x1
  refine ⟨enough, points, fun fuel fueled => ?_, plots⟩
  rw [scLinePixels]
  dsimp only
  rw [if_pos ((shallow_iff smallX0 smallY0 smallX1 smallY1).mpr shallow),
    sub_eq_displacement, sub_eq_displacement, ends fuel fueled]
  rfl

/-- Other lines are drawn along the y axis. -/
theorem scLinePixels_steep
    (steep :
      ¬(displacement y0 y1 < displacement x0 x1 ∧
        -displacement y0 y1 < displacement x0 x1)) :
    ∃ enough points,
      (∀ fuel ≥ enough,
        scLinePixels fuel x0 y0 x1 y1 =
          some (points.map fun (y, x) => { x, y })) ∧
      PlotsPoints (displacement y0 y1) (displacement x0 x1) y0 x0
        (y1.toNat - y0.toNat) points := by
  obtain ⟨enough, points, ends, plots⟩ :=
    linePoints_plots (displacement y0 y1) (displacement x0 x1) y0 x0 y1
  refine ⟨enough, points, fun fuel fueled => ?_, plots⟩
  rw [scLinePixels]
  dsimp only
  rw [if_neg ((shallow_iff smallX0 smallY0 smallX1 smallY1).not.mpr steep),
    sub_eq_displacement, sub_eq_displacement, ends fuel fueled]
  rfl

end Branches

end HobbyOS
