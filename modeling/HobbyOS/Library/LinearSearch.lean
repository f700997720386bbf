import Mathlib.Order.Basic

namespace HobbyOS.Library

/-!
# Searches through numbered positions

A search probes one position after the other and ends at the first one whose
probe has a result.  A loop of a program that goes through an array is such a
search, with the stopping rule of the loop as the probe.
-/

variable {Result : Type}

/-- The result at the first position from `position` on that has one. -/
def scan (probe : Nat → Option Result) : Nat → Nat → Option Result
  | 0, _ => none
  | fuel + 1, position =>
      match probe position with
      | some result => some result
      | none => scan probe fuel (position + 1)

/-- A loop that makes the steps of a search is this search. -/
theorem eq_scan
    {probe : Nat → Option Result}
    (loop : Nat → Nat → Option Result)
    (exhausted : ∀ position, loop 0 position = none)
    (step :
      ∀ fuel position,
        loop (fuel + 1) position =
          match probe position with
          | some result => some result
          | none => loop fuel (position + 1))
    (fuel position : Nat) :
    loop fuel position = scan probe fuel position := by
  induction fuel generalizing position with
  | zero =>
      exact exhausted position
  | succ fuel inductionHypothesis =>
      rw [step, scan]
      cases probe position with
      | some result =>
          rfl
      | none =>
          exact inductionHypothesis (position + 1)

/-- The search ends at the first position that has a result. -/
theorem scan_eq_some
    {probe : Nat → Option Result}
    {start position : Nat}
    {result : Result}
    (ordered : start ≤ position)
    (found : probe position = some result)
    (before :
      ∀ other, start ≤ other → other < position → probe other = none)
    {fuel : Nat}
    (enough : position - start < fuel) :
    scan probe fuel start = some result := by
  induction fuel generalizing start with
  | zero =>
      exact (Nat.not_lt_zero _ enough).elim
  | succ fuel inductionHypothesis =>
      rw [scan]
      rcases Nat.lt_or_eq_of_le ordered with later | here
      · rw [before start (Nat.le_refl start) later]
        exact inductionHypothesis later
          (fun other behind => before other (Nat.le_of_succ_le behind))
          (by omega)
      · subst here
        rw [found]

/-! ## The positions that are probed -/

/-- The positions that a search probes, in order. -/
def probed (probe : Nat → Option Result) : Nat → Nat → List Nat
  | 0, _ => []
  | fuel + 1, position =>
      position ::
        match probe position with
        | some _ => []
        | none => probed probe fuel (position + 1)

/-- A position is probed if none in front of it has a result. -/
theorem mem_probed_iff
    {probe : Nat → Option Result}
    {fuel start position : Nat} :
    position ∈ probed probe fuel start ↔
      start ≤ position ∧
        position < start + fuel ∧
        ∀ other, start ≤ other → other < position → probe other = none := by
  induction fuel generalizing start with
  | zero =>
      simp only [probed, List.not_mem_nil, Nat.add_zero, false_iff]
      rintro ⟨lower, upper, _⟩
      exact Nat.not_lt_of_le lower upper
  | succ fuel inductionHypothesis =>
      rw [probed, List.mem_cons]
      cases found : probe start with
      | some result =>
          constructor
          · rintro (rfl | impossible)
            · refine ⟨Nat.le_refl _, by omega, fun other lower upper => ?_⟩
              exact (Nat.not_lt_of_le lower upper).elim
            · exact (List.not_mem_nil impossible).elim
          · rintro ⟨lower, _, before⟩
            rcases Nat.lt_or_eq_of_le lower with later | here
            · rw [before start (Nat.le_refl start) later] at found
              cases found
            · exact Or.inl here.symm
      | none =>
          dsimp only
          rw [inductionHypothesis]
          constructor
          · rintro (rfl | ⟨lower, upper, before⟩)
            · refine ⟨Nat.le_refl _, by omega, fun other lower upper => ?_⟩
              exact (Nat.not_lt_of_le lower upper).elim
            · refine ⟨by omega, by omega, fun other from_ upTo => ?_⟩
              rcases Nat.lt_or_eq_of_le from_ with behind | rfl
              · exact before other behind upTo
              · exact found
          · rintro ⟨lower, upper, before⟩
            rcases Nat.lt_or_eq_of_le lower with later | here
            · exact Or.inr ⟨later, by omega, fun other from_ upTo =>
                before other (Nat.le_of_succ_le from_) upTo⟩
            · exact Or.inl here.symm

/-- A search stays below a bound exactly if a position there has a result. -/
theorem probed_below_iff
    {probe : Nat → Option Result}
    {bound : Nat} :
    (∀ fuel, ∀ position ∈ probed probe fuel 0, position < bound) ↔
      ∃ position < bound, probe position ≠ none := by
  constructor
  · intro below
    by_contra nowhere
    have without : ∀ position < bound, probe position = none :=
      fun position inside => by_contra fun found =>
        nowhere ⟨position, inside, found⟩
    have reached : bound ∈ probed probe (bound + 1) 0 :=
      mem_probed_iff.mpr
        ⟨Nat.zero_le bound, by omega, fun other _ => without other⟩
    exact Nat.lt_irrefl bound (below _ _ reached)
  · rintro ⟨position, inside, found⟩ fuel other probedThere
    by_contra beyond
    obtain ⟨_, _, before⟩ := mem_probed_iff.mp probedThere
    exact found (before position (Nat.zero_le _) (by omega))

/-! ## Searches whose visits may fail -/

section Visits

variable {Item : Type}

/-- The first match of a list, without result if a visit up to it fails. -/
def findVisiting (fails isMatch : Item → Bool) :
    List Item → Option (Option Item)
  | [] => some none
  | item :: rest =>
      if fails item then
        none
      else if isMatch item then
        some (some item)
      else
        findVisiting fails isMatch rest

/-- No visit fails exactly if none in front of the first match does. -/
theorem findVisiting_eq_find_iff
    {fails isMatch : Item → Bool}
    (matchPasses : ∀ item, isMatch item → ¬fails item)
    (items : List Item) :
    findVisiting fails isMatch items = some (items.find? isMatch) ↔
      ∀ item ∈ items.takeWhile fun item => !isMatch item, ¬fails item := by
  induction items with
  | nil =>
      simp [findVisiting]
  | cons item rest inductionHypothesis =>
      rw [findVisiting]
      by_cases matching : isMatch item
      · rw [if_neg (matchPasses item matching), if_pos matching,
          List.find?_cons_of_pos matching,
          List.takeWhile_cons_of_neg (by simp [matching])]
        simp
      · rw [List.find?_cons_of_neg matching,
          List.takeWhile_cons_of_pos (by simp [matching]),
          List.forall_mem_cons, ← inductionHypothesis]
        by_cases failing : fails item
        · simp [failing]
        · rw [if_neg failing, if_neg matching]
          exact (and_iff_right failing).symm

end Visits

end HobbyOS.Library
