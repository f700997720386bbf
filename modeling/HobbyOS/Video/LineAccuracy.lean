import HobbyOS.Video.Line

namespace HobbyOS

open Library

/-!
# The accuracy of lines

Lines that run right and down stay within half a pixel of the ideal line.  The
loops never step back along their minor axis, so lines that run left or up
along it stay in their first row or column.
-/

/-- The displacement that is drawn along the major axis. -/
def extent (x0 y0 x1 y1 : BitVec 32) : Nat :=
  max (displacement x0 x1).natAbs (displacement y0 y1).natAbs

/-- How far a pixel lies off the ideal line, times the extent. -/
def lineError (x0 y0 x1 y1 : BitVec 32) (pixel : Pixel) : Int :=
  displacement y0 y1 * displacement x0 pixel.x -
    displacement x0 x1 * displacement y0 pixel.y

/--
The pixels of a line that runs right and down: one for each step of the major
axis, from the first end up to the second, with steps of at most one along the
minor axis, and within half a pixel of the ideal line.
-/
structure PlotsAccurately
    (x0 y0 x1 y1 : BitVec 32)
    (pixels : List Pixel) :
    Prop where
  count :
    (pixels.length : Int) = max (displacement x0 x1) (displacement y0 y1)
  starts : ∀ pixel, pixels.head? = some pixel → pixel = { x := x0, y := y0 }
  excludes : ({ x := x1, y := y1 } : Pixel) ∉ pixels
  along :
    ∀ step (inside : step < pixels.length),
      if displacement y0 y1 < displacement x0 x1 then
        displacement x0 pixels[step].x = step
      else
        displacement y0 pixels[step].y = step
  across :
    ∀ step (inside : step + 1 < pixels.length),
      if displacement y0 y1 < displacement x0 x1 then
        (displacement pixels[step].y pixels[step + 1].y).natAbs ≤ 1
      else
        (displacement pixels[step].x pixels[step + 1].x).natAbs ≤ 1
  near :
    ∀ pixel ∈ pixels,
      ((2 * lineError x0 y0 x1 y1 pixel).natAbs : Int) ≤
        max (displacement x0 x1) (displacement y0 y1)

/-! ## Lines that run right and down -/

section Rising

variable
  {dMajor dMinor : Int}
  {first firstMinor : BitVec 32}
  {count : Nat}
  {points : List (BitVec 32 × BitVec 32)}

/-- The points of a rising line, as displacements. -/
theorem PlotsPoints.displacements
    (plots : PlotsPoints dMajor dMinor first firstMinor count points)
    (small : first.toNat < 2 ^ 16)
    (smallMinor : firstMinor.toNat < 2 ^ 16)
    (smallCount : count < 2 ^ 16)
    {step : Nat}
    (inside : step < points.length)
    (fits :
      ∀ earlier < step, DecisionFits (linePoint dMajor dMinor earlier)) :
    displacement first points[step].1 = step ∧
      displacement firstMinor points[step].2 =
        (linePoint dMajor dMinor step).shift := by
  have length := plots.length
  have bounds := shift_linePoint_bounds dMajor dMinor step
  obtain ⟨shift, shifted⟩ := Int.eq_ofNat_of_zero_le bounds.1
  rw [plots.onLine step inside fits, shifted]
  dsimp only [displacement]
  rw [shifted] at bounds
  rw [BitVec.ofInt_natCast, BitVec.toNat_add, BitVec.toNat_add,
    BitVec.toNat_ofNat, BitVec.toNat_ofNat]
  omega

/-- A rising line does not overflow. -/
theorem decisionFits_of_rising
    (rising : 0 ≤ dMinor)
    (shallow : dMinor ≤ dMajor)
    (small : dMajor < 2 ^ 16)
    (step : Nat) :
    DecisionFits (linePoint dMajor dMinor step) := by
  have bounds := decision_linePoint_bounds rising shallow step
  rw [DecisionFits]
  omega

end Rising

/-- A coordinate without displacement. -/
theorem eq_of_displacement_eq_zero
    {first last : BitVec 32}
    (none : displacement first last = 0) :
    last = first := by
  rw [displacement] at none
  exact BitVec.eq_of_toNat_eq (by omega)

section Pixels

variable
  {x0 y0 x1 y1 : BitVec 32}
  {pixels : List Pixel}

/-- The pixels of a rising line, by their displacements. -/
def OnDigitalLine
    (x0 y0 x1 y1 : BitVec 32)
    (pixels : List Pixel) :
    Prop :=
  ∀ step (inside : step < pixels.length),
    if displacement y0 y1 < displacement x0 x1 then
      displacement x0 pixels[step].x = step ∧
        displacement y0 pixels[step].y =
          (linePoint (displacement x0 x1) (displacement y0 y1) step).shift
    else
      displacement y0 pixels[step].y = step ∧
        displacement x0 pixels[step].x =
          (linePoint (displacement y0 y1) (displacement x0 x1) step).shift

/-- The pixels of a digital line plot it accurately. -/
theorem plotsAccurately_of_onDigitalLine
    (rightward : 0 ≤ displacement x0 x1)
    (downward : 0 ≤ displacement y0 y1)
    (count :
      (pixels.length : Int) = max (displacement x0 x1) (displacement y0 y1))
    (onLine : OnDigitalLine x0 y0 x1 y1 pixels) :
    PlotsAccurately x0 y0 x1 y1 pixels where
  count := count
  starts := by
    intro pixel head
    obtain ⟨rest, rfl⟩ := List.head?_eq_some_iff.mp head
    have first := onLine 0 (Nat.zero_lt_succ _)
    rw [List.getElem_cons_zero] at first
    have origin :
        displacement x0 pixel.x = 0 ∧ displacement y0 pixel.y = 0 := by
      split at first
      · exact first
      · exact first.symm
    cases pixel
    rw [Pixel.mk.injEq]
    exact
      ⟨eq_of_displacement_eq_zero origin.1,
        eq_of_displacement_eq_zero origin.2⟩
  excludes := by
    intro member
    obtain ⟨step, inside, last⟩ := List.getElem_of_mem member
    have point := onLine step inside
    rw [last] at point
    split at point
    next shallow =>
      rw [Int.max_eq_left (Int.le_of_lt shallow)] at count
      dsimp only at point
      omega
    next steep =>
      rw [Int.max_eq_right (Int.not_lt.mp steep)] at count
      dsimp only at point
      omega
  along := by
    intro step inside
    have point := onLine step inside
    split at point
    next shallow =>
      rw [if_pos shallow]
      exact point.1
    next steep =>
      rw [if_neg steep]
      exact point.1
  across := by
    intro step inside
    have point := onLine step (by omega)
    have next := onLine (step + 1) inside
    split at point
    next shallow =>
      have moved :=
        shift_linePoint_succ (displacement x0 x1) (displacement y0 y1) step
      rw [if_pos shallow] at next
      rw [if_pos shallow]
      simp only [displacement] at point next moved ⊢
      omega
    next steep =>
      have moved :=
        shift_linePoint_succ (displacement y0 y1) (displacement x0 x1) step
      rw [if_neg steep] at next
      rw [if_neg steep]
      simp only [displacement] at point next moved ⊢
      omega
  near := by
    intro pixel member
    obtain ⟨step, inside, rfl⟩ := List.getElem_of_mem member
    have point := onLine step inside
    rw [lineError]
    split at point
    next shallow =>
      have error := linePoint_error downward (Int.le_of_lt shallow) step
      rw [point.1, point.2]
      omega
    next steep =>
      have error := linePoint_error rightward (Int.not_lt.mp steep) step
      rw [point.1, point.2]
      omega

namespace PlotsAccurately

variable (accurate : PlotsAccurately x0 y0 x1 y1 pixels)

include accurate

/-- No pixel of the line is plotted twice. -/
theorem nodup : pixels.Nodup := by
  refine List.pairwise_iff_getElem.mpr fun first second _ _ before same => ?_
  have one := accurate.along first (by omega)
  have other := accurate.along second (by omega)
  rw [same] at one
  split at one
  next shallow =>
    rw [if_pos shallow, one] at other
    omega
  next steep =>
    rw [if_neg steep, one] at other
    omega

/-- The line lies between its ends, and so on the screen. -/
theorem onScreen
    {mode : ModeInfoBlock}
    (rightward : 0 ≤ displacement x0 x1)
    (downward : 0 ≤ displacement y0 y1)
    (endOnScreen : mode.OnScreen { x := x1, y := y1 }) :
    ∀ pixel ∈ pixels, mode.OnScreen pixel := by
  intro pixel member
  have near := accurate.near pixel member
  have count := accurate.count
  obtain ⟨right, bottom⟩ := endOnScreen
  obtain ⟨step, inside, rfl⟩ := List.getElem_of_mem member
  have along := accurate.along step inside
  dsimp only at right bottom
  rw [lineError] at near
  have inRectangle :
      displacement x0 pixels[step].x ≤ displacement x0 x1 ∧
        displacement y0 pixels[step].y ≤ displacement y0 y1 := by
    split at along
    next shallow =>
      rw [Int.max_eq_left (Int.le_of_lt shallow)] at near count
      refine ⟨by omega, ?_⟩
      exact
        @le_of_near (displacement x0 x1) _ downward
          (displacement x0 pixels[step].x) _ (by omega) (by omega) (by omega)
    next steep =>
      rw [Int.max_eq_right (Int.not_lt.mp steep)] at near count
      refine ⟨?_, by omega⟩
      exact
        @le_of_near (displacement y0 y1) _ rightward
          (displacement y0 pixels[step].y) _ (by omega) (by omega) (by omega)
  simp only [displacement] at inRectangle
  exact ⟨by omega, by omega⟩

/-- `sc_line` sets each pixel of the line once and leaves the others. -/
theorem readWord_scLine
    {mode : ModeInfoBlock}
    (is32Bit : mode.Is32Bit)
    (rightward : 0 ≤ displacement x0 x1)
    (downward : 0 ≤ displacement y0 y1)
    (endOnScreen : mode.OnScreen { x := x1, y := y1 })
    {fuel : Nat}
    (ended : scLinePixels fuel x0 y0 x1 y1 = some pixels)
    (memory : Memory)
    (color : BitVec 32) :
    ∃ after,
      scLine fuel mode memory x0 y0 x1 y1 color = some after ∧
        ∀ pixel,
          mode.OnScreen pixel →
          readWord after (mode.pixelPointer pixel) =
            if pixel ∈ pixels then
              pixelAfter color (readWord memory (mode.pixelPointer pixel))
            else
              readWord memory (mode.pixelPointer pixel) := by
  refine ⟨paint mode memory color pixels, ?_, fun pixel onScreen => ?_⟩
  · rw [scLine, ended, Option.map_some]
  · rw [is32Bit.readWord_paint memory color onScreen
      (accurate.onScreen rightward downward endOnScreen)]
    split
    next member =>
      rw [List.count_eq_one_of_mem accurate.nodup member]
      rfl
    next outside =>
      rw [List.count_eq_zero.mpr outside]
      rfl

end PlotsAccurately

end Pixels

section Falling

variable
  {run fall : Nat}
  {first firstMinor : BitVec 32}
  {points : List (BitVec 32 × BitVec 32)}

/-- A falling line does not overflow before it is off by two pixels. -/
theorem decisionFits_of_falling
    (small : run < 2 ^ 16)
    {step : Nat}
    (near : fall * (step + 1) ≤ 2 * run) :
    DecisionFits (linePoint run (-fall) step) := by
  have decision := decision_linePoint run (-fall) step
  rw [shift_linePoint_of_falling (by omega) (by omega), Int.mul_zero,
    Int.mul_zero, Int.sub_zero, Int.neg_mul] at decision
  have near : (fall : Int) * (step + 1) ≤ 2 * run := by
    exact_mod_cast near
  have down : 0 ≤ (fall : Int) * (step + 1) :=
    Int.mul_nonneg (by omega) (by omega)
  rw [DecisionFits, decision]
  omega

/-- A falling line stays in its first row. -/
theorem PlotsPoints.falling
    (plots : PlotsPoints run (-fall) first firstMinor run points)
    (small : first.toNat < 2 ^ 16)
    (smallMinor : firstMinor.toNat < 2 ^ 16)
    (smallRun : run < 2 ^ 16)
    {step : Nat}
    (inside : step < points.length)
    (near : fall * step ≤ 2 * run) :
    displacement first points[step].1 = step ∧
      displacement firstMinor points[step].2 = 0 := by
  have point :=
    plots.displacements small smallMinor smallRun inside
      fun earlier before =>
        decisionFits_of_falling smallRun
          (Nat.le_trans (Nat.mul_le_mul_left fall before) near)
  rwa [shift_linePoint_of_falling (by omega) (by omega)] at point

/--
The points of a falling line are within one pixel of the ideal line exactly if
it falls by one pixel, or runs and falls by two.
-/
theorem PlotsPoints.falling_near_iff
    (plots : PlotsPoints run (-fall) first firstMinor run points)
    (small : first.toNat < 2 ^ 16)
    (smallMinor : firstMinor.toNat < 2 ^ 16)
    (smallRun : run < 2 ^ 16)
    (falls : 0 < fall)
    (shallow : fall ≤ run) :
    (∀ point ∈ points,
        (fall * displacement first point.1 +
            run * displacement firstMinor point.2).natAbs ≤
          run) ↔
      fall = 1 ∨ fall = 2 ∧ run = 2 := by
  have length := plots.length
  constructor
  · intro near
    by_contra steeper
    -- The first point that is more than one pixel off.
    have offLine := Nat.lt_mul_div_succ run falls
    have onLine := Nat.mul_div_le run fall
    have early : run / fall ≤ run / 2 :=
      Nat.div_le_div_left (by omega) (by omega)
    have inside : run / fall + 1 < points.length := by
      omega
    rw [Nat.mul_add] at offLine
    have point :=
      plots.falling small smallMinor smallRun inside
        (by rw [Nat.mul_add]; omega)
    have off := near _ (List.getElem_mem inside)
    rw [point.1, point.2, Int.mul_zero, Int.add_zero, ← Int.natCast_mul,
      Int.natAbs_natCast, Nat.mul_add] at off
    omega
  · intro flat point member
    obtain ⟨step, inside, rfl⟩ := List.getElem_of_mem member
    have near : fall * step ≤ run := by
      rcases flat with rfl | ⟨rfl, rfl⟩
      · omega
      · omega
    have point :=
      plots.falling small smallMinor smallRun inside (by omega)
    rw [point.1, point.2, Int.mul_zero, Int.add_zero, ← Int.natCast_mul,
      Int.natAbs_natCast]
    exact near

end Falling

section Pixels

variable {x0 y0 x1 y1 : BitVec 32}

/--
A line that enters one of the loops of `sc_line` and runs up or left along the
minor axis of the loop.
-/
def RunsBack (x0 y0 x1 y1 : BitVec 32) : Prop :=
  x0 < x1 ∧ y1 < y0 ∧ -displacement y0 y1 < displacement x0 x1 ∨
    y0 < y1 ∧ x1 < x0 ∧ -displacement x0 x1 ≤ displacement y0 y1

instance (x0 y0 x1 y1 : BitVec 32) : Decidable (RunsBack x0 y0 x1 y1) :=
  inferInstanceAs (Decidable (_ ∨ _))

/--
A line ends, and every pixel of it is within one pixel of the ideal line,
measured along the minor axis.
-/
def StaysNear (x0 y0 x1 y1 : BitVec 32) : Prop :=
  ∃ enough pixels,
    (∀ fuel ≥ enough, scLinePixels fuel x0 y0 x1 y1 = some pixels) ∧
      ∀ pixel ∈ pixels,
        (lineError x0 y0 x1 y1 pixel).natAbs ≤ extent x0 y0 x1 y1

/-- Whether a line stays near can be seen from its pixels. -/
theorem staysNear_iff
    {enough : Nat}
    {pixels : List Pixel}
    (ends : ∀ fuel ≥ enough, scLinePixels fuel x0 y0 x1 y1 = some pixels) :
    StaysNear x0 y0 x1 y1 ↔
      ∀ pixel ∈ pixels,
        (lineError x0 y0 x1 y1 pixel).natAbs ≤ extent x0 y0 x1 y1 := by
  constructor
  · rintro ⟨otherEnough, otherPixels, otherEnds, near⟩
    have same :=
      (ends (max enough otherEnough) (Nat.le_max_left _ _)).symm.trans
        (otherEnds (max enough otherEnough) (Nat.le_max_right _ _))
    rw [Option.some.injEq] at same
    rwa [same]
  · exact fun near => ⟨enough, pixels, ends, near⟩

/-- A line that falls along its minor axis stays near exactly if it is flat. -/
theorem staysNear_iff_of_falling
    {run fall enough : Nat}
    {first firstMinor : BitVec 32}
    {points : List (BitVec 32 × BitVec 32)}
    {pixelOf : BitVec 32 × BitVec 32 → Pixel}
    (ends :
      ∀ fuel ≥ enough,
        scLinePixels fuel x0 y0 x1 y1 = some (points.map pixelOf))
    (plots : PlotsPoints run (-fall) first firstMinor run points)
    (small : first.toNat < 2 ^ 16)
    (smallMinor : firstMinor.toNat < 2 ^ 16)
    (smallRun : run < 2 ^ 16)
    (falls : 0 < fall)
    (shallow : fall ≤ run)
    (furthest : extent x0 y0 x1 y1 = run)
    (error :
      ∀ point,
        (lineError x0 y0 x1 y1 (pixelOf point)).natAbs =
          (fall * displacement first point.1 +
            run * displacement firstMinor point.2).natAbs) :
    StaysNear x0 y0 x1 y1 ↔ fall = 1 ∨ fall = 2 ∧ run = 2 := by
  rw [staysNear_iff ends, List.forall_mem_map, furthest]
  simp only [error]
  exact plots.falling_near_iff small smallMinor smallRun falls shallow

/--
A line that runs back stays within one pixel of the ideal line exactly if it
runs back by one pixel, or by two in a line of two pixels.
-/
theorem scLinePixels_staysNear_iff
    {mode : ModeInfoBlock}
    (startOnScreen : mode.OnScreen { x := x0, y := y0 })
    (endOnScreen : mode.OnScreen { x := x1, y := y1 })
    (runsBack : RunsBack x0 y0 x1 y1) :
    StaysNear x0 y0 x1 y1 ↔
      min (displacement x0 x1).natAbs (displacement y0 y1).natAbs = 1 ∨
        (displacement x0 x1).natAbs = 2 ∧ (displacement y0 y1).natAbs = 2 := by
  have columns := mode.xResolution.isLt
  have rows := mode.yResolution.isLt
  obtain ⟨left, top⟩ := startOnScreen
  obtain ⟨right, bottom⟩ := endOnScreen
  dsimp only at left top right bottom
  rcases runsBack with ⟨rightward, upward, wide⟩ | ⟨downward, leftward, high⟩
  · rw [BitVec.lt_def] at rightward upward
    obtain ⟨run, dx⟩ : ∃ run : Nat, displacement x0 x1 = run :=
      ⟨x1.toNat - x0.toNat, by rw [displacement]; omega⟩
    obtain ⟨fall, dy⟩ : ∃ fall : Nat, displacement y0 y1 = -fall :=
      ⟨y0.toNat - y1.toNat, by rw [displacement]; omega⟩
    obtain ⟨enough, points, ends, plots⟩ :=
      scLinePixels_shallow (by omega) (by omega) (by omega) (by omega)
        ⟨by omega, wide⟩
    have count : x1.toNat - x0.toNat = run := by
      rw [displacement] at dx
      omega
    have falls : 0 < fall := by
      rw [displacement] at dy
      omega
    have furthest : extent x0 y0 x1 y1 = run := by
      rw [extent, dx, dy]
      omega
    rw [dx, dy, count] at plots
    rw [staysNear_iff_of_falling ends plots (by omega) (by omega) (by omega)
      falls (by omega) furthest fun point => ?_, dx, dy]
    · omega
    · rw [lineError, dx, dy, ← Int.natAbs_neg]
      ring_nf
  · rw [BitVec.lt_def] at downward leftward
    obtain ⟨run, dy⟩ : ∃ run : Nat, displacement y0 y1 = run :=
      ⟨y1.toNat - y0.toNat, by rw [displacement]; omega⟩
    obtain ⟨fall, dx⟩ : ∃ fall : Nat, displacement x0 x1 = -fall :=
      ⟨x0.toNat - x1.toNat, by rw [displacement]; omega⟩
    have steep :
        ¬(displacement y0 y1 < displacement x0 x1 ∧
          -displacement y0 y1 < displacement x0 x1) := by
      omega
    obtain ⟨enough, points, ends, plots⟩ :=
      scLinePixels_steep (by omega) (by omega) (by omega) (by omega) steep
    have count : y1.toNat - y0.toNat = run := by
      rw [displacement] at dy
      omega
    have falls : 0 < fall := by
      rw [displacement] at dx
      omega
    have furthest : extent x0 y0 x1 y1 = run := by
      rw [extent, dx, dy]
      omega
    rw [dx, dy, count] at plots
    rw [staysNear_iff_of_falling ends plots (by omega) (by omega) (by omega)
      falls (by omega) furthest fun point => ?_, dx, dy]
    · omega
    · rw [lineError, dx, dy]
      ring_nf

end Pixels

/-- A line that rises by one pixel. -/
theorem scLinePixels_staysNear_iff_flat :
    RunsBack 10 20 210 19 ∧ StaysNear 10 20 210 19 :=
  ⟨by decide,
    (@scLinePixels_staysNear_iff 10 20 210 19 mode640x480
      ⟨by decide, by decide⟩ ⟨by decide, by decide⟩ (by decide)).mpr
      (.inl (by decide))⟩

/-- A line that rises by two pixels over three stays in its row. -/
theorem scLinePixels_staysNear_fails :
    RunsBack 0 2 3 0 ∧ ¬StaysNear 0 2 3 0 := by
  refine ⟨by decide, ?_⟩
  rintro ⟨enough, pixels, ends, near⟩
  have drawn :
      scLinePixels (enough + 4) 0 2 3 0 =
        some [{ x := 0, y := 2 }, { x := 1, y := 2 }, { x := 2, y := 2 }] :=
    rfl
  rw [ends _ (Nat.le_add_right enough 4), Option.some.injEq] at drawn
  rw [drawn] at near
  exact absurd (near { x := 2, y := 2 } (by decide)) (by decide)

end HobbyOS
