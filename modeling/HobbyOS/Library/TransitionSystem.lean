import Mathlib.Data.List.Basic

namespace HobbyOS.Library

/-!
# Finite runs of labelled step relations

A run records the labels of its steps in order.  An invariant of one step is
an invariant of every run, a step-wise simulation lifts to runs, and a guard
restricts a step relation to the steps whose label and source state meet a
condition.
-/

variable {State Abstract Label : Type}

/-- The finite runs of a step relation from one start state. -/
inductive Run
    (step : Label → State → State → Prop)
    (start : State) :
    List Label → State → Prop where
  | nil :
      Run step start [] start
  | snoc
      {labels : List Label}
      {label : Label}
      {before after : State} :
      Run step start labels before →
      step label before after →
      Run step start (labels ++ [label]) after

/-- Restrict a step relation to the steps that meet a guard. -/
def Guarded
    (guard : Label → State → Prop)
    (step : Label → State → State → Prop)
    (label : Label)
    (before after : State) :
    Prop :=
  guard label before ∧ step label before after

namespace Run

variable
  {step : Label → State → State → Prop}
  {start final : State}
  {labels : List Label}

/-- What one step preserves, a whole run preserves. -/
theorem invariant
    (holds : State → Prop)
    (preserves :
      ∀ {label before after},
        holds before →
        step label before after →
        holds after)
    (run : Run step start labels final)
    (initially : holds start) :
    holds final := by
  induction run with
  | nil =>
      exact initially
  | snoc _ stepped inductionHypothesis =>
      exact preserves inductionHypothesis stepped

/-- A simulation of single steps is a simulation of runs. -/
theorem simulate
    (abstractStep : Label → Abstract → Abstract → Prop)
    (related : State → Abstract → Prop)
    (simulates :
      ∀ {label before after abstract},
        related before abstract →
        step label before after →
        ∃ abstract',
          abstractStep label abstract abstract' ∧
            related after abstract')
    {abstract : Abstract}
    (run : Run step start labels final)
    (initially : related start abstract) :
    ∃ abstract',
      Run abstractStep abstract labels abstract' ∧
        related final abstract' := by
  induction run with
  | nil =>
      exact ⟨abstract, .nil, initially⟩
  | snoc _ stepped inductionHypothesis =>
      obtain ⟨middle, abstractRun, middleRelated⟩ :=
        inductionHypothesis
      obtain ⟨last, abstractStepped, lastRelated⟩ :=
        simulates middleRelated stepped
      exact ⟨last, abstractRun.snoc abstractStepped, lastRelated⟩

/-- A run that ends with a label makes a step with it. -/
theorem last_step
    {label : Label}
    (run : Run step start (labels ++ [label]) final) :
    ∃ before, Run step start labels before ∧ step label before final := by
  generalize listed : labels ++ [label] = all at run
  cases run with
  | nil =>
      simp at listed
  | snoc earlier stepped =>
      obtain ⟨rfl, last⟩ := List.append_inj' listed rfl
      obtain rfl := (List.cons.inj last).1
      exact ⟨_, earlier, stepped⟩

/-- A run of a deterministic step relation ends in one state. -/
theorem unique
    (deterministic :
      ∀ {label before after other},
        step label before after →
        step label before other →
        after = other)
    {last : State}
    (run : Run step start labels final)
    (other : Run step start labels last) :
    final = last := by
  induction run generalizing last with
  | nil =>
      generalize listed : ([] : List Label) = none at other
      cases other with
      | nil =>
          rfl
      | snoc =>
          simp at listed
  | snoc _ stepped inductionHypothesis =>
      obtain ⟨before, earlier, otherStepped⟩ := other.last_step
      rw [← inductionHypothesis earlier] at otherStepped
      exact deterministic stepped otherStepped

/-- Guards that agree on every step restrict to the same runs. -/
theorem guarded_congr
    {guard other : Label → State → Prop}
    (agree :
      ∀ {label before after},
        step label before after →
        (guard label before ↔ other label before)) :
    Run (Guarded guard step) start labels final ↔
      Run (Guarded other step) start labels final := by
  constructor
  · intro run
    induction run with
    | nil =>
        exact .nil
    | snoc _ stepped inductionHypothesis =>
        exact inductionHypothesis.snoc
          ⟨(agree stepped.2).mp stepped.1, stepped.2⟩
  · intro run
    induction run with
    | nil =>
        exact .nil
    | snoc _ stepped inductionHypothesis =>
        exact inductionHypothesis.snoc
          ⟨(agree stepped.2).mpr stepped.1, stepped.2⟩

/-- A run of a function is the fold of its labels. -/
theorem eq_foldl
    {next : State → Label → State}
    (run :
      Run (fun label before after => after = next before label)
        start labels final) :
    final = labels.foldl next start := by
  induction run with
  | nil =>
      rfl
  | snoc _ stepped inductionHypothesis =>
      rw [List.foldl_append, ← inductionHypothesis]
      exact stepped

end Run

end HobbyOS.Library
