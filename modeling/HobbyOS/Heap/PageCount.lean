import Mathlib.Data.Nat.Find
import HobbyOS.Heap.Malloc

namespace HobbyOS

/-!
# Counting pages

The counting loops of `vmm_malloc_next_block` end at the least number of
pages that raises the size of a block to a bound, in 32-bit arithmetic.  The
sums repeat after 2^20 pages, so a bound that none of these reaches is never
reached.
-/

/-- The least number of pages, at least one, for which the loops end. -/
structure LeastPages (curSize bound : SizeT) (pages : Nat) : Prop where
  positive : 1 ≤ pages
  small : pages ≤ 2 ^ 20
  reaches : ¬curSize + BitVec.ofNat 32 pages * 4096 < bound
  least :
    ∀ fewer,
      1 ≤ fewer →
      fewer < pages →
      curSize + BitVec.ofNat 32 fewer * 4096 < bound

/-- There is at most one least number of pages. -/
theorem LeastPages.unique
    {curSize bound : SizeT}
    {first second : Nat}
    (firstLeast : LeastPages curSize bound first)
    (secondLeast : LeastPages curSize bound second) :
    first = second := by
  rcases Nat.lt_trichotomy first second with below | same | above
  · exact (firstLeast.reaches
      (secondLeast.least first firstLeast.positive below)).elim
  · exact same
  · exact (secondLeast.reaches
      (firstLeast.least second secondLeast.positive above)).elim

/-- The loops end at the least number of pages, given the fuel. -/
theorem countPages_of_least
    {curSize bound : SizeT}
    {pages : Nat}
    (least : LeastPages curSize bound pages)
    (fuel : Nat)
    {count : Nat}
    (positive : 1 ≤ count)
    (reached : count ≤ pages) :
    countPages curSize bound fuel (BitVec.ofNat 32 count) =
      if pages < fuel + count then some (BitVec.ofNat 32 pages)
      else none := by
  induction fuel generalizing count with
  | zero =>
      rw [if_neg (by omega)]
      rfl
  | succ fuel inductionHypothesis =>
      rw [countPages]
      by_cases last : count = pages
      · subst last
        rw [if_neg least.reaches, if_pos (by omega)]
      · have next :
            BitVec.ofNat 32 count + 1 = BitVec.ofNat 32 (count + 1) :=
          (BitVec.ofNat_add count 1).symm
        rw [if_pos (least.least count positive (by omega)), next,
          inductionHypothesis (by omega) (by omega), Nat.add_right_comm,
          Nat.add_assoc]

/-- Page counts that differ by 2^20 add the same number of bytes. -/
theorem pages_mul_congr (count : SizeT) :
    count * 4096 =
      BitVec.ofNat 32 ((count.toNat + 2 ^ 20 - 1) % 2 ^ 20 + 1) * 4096 := by
  have page : (4096 : SizeT).toNat = 4096 := rfl
  apply BitVec.eq_of_toNat_eq
  rw [BitVec.toNat_mul, BitVec.toNat_mul, BitVec.toNat_ofNat, page]
  omega

/-- A bound that is not reached within 2^20 pages is never reached. -/
theorem countPages_of_unreached
    {curSize bound : SizeT}
    (unreached :
      ∀ pages,
        1 ≤ pages →
        pages ≤ 2 ^ 20 →
        curSize + BitVec.ofNat 32 pages * 4096 < bound)
    (fuel : Nat)
    (count : SizeT) :
    countPages curSize bound fuel count = none := by
  induction fuel generalizing count with
  | zero =>
      rfl
  | succ fuel inductionHypothesis =>
      have below : curSize + count * 4096 < bound := by
        rw [pages_mul_congr]
        exact unreached _ (by omega) (by omega)
      rw [countPages, if_pos below]
      exact inductionHypothesis _

/-- A loop that ended has counted the least number of pages. -/
theorem leastPages_of_countPages
    {curSize bound : SizeT}
    {fuel : Nat}
    {result : SizeT}
    (counted : countPages curSize bound fuel 1 = some result) :
    LeastPages curSize bound result.toNat := by
  by_cases reached :
      ∃ pages,
        1 ≤ pages ∧ pages ≤ 2 ^ 20 ∧
          ¬curSize + BitVec.ofNat 32 pages * 4096 < bound
  · obtain ⟨positive, small, reaches⟩ := Nat.find_spec reached
    have least :
        LeastPages curSize bound (Nat.find reached) := by
      refine ⟨positive, small, reaches, ?_⟩
      intro fewer one below
      by_contra enough
      exact Nat.find_min reached below ⟨one, by omega, enough⟩
    have loop :
        countPages curSize bound fuel 1 = _ :=
      countPages_of_least least fuel (Nat.le_refl 1) positive
    rw [counted] at loop
    split at loop
    · have value :
          (BitVec.ofNat 32 (Nat.find reached)).toNat =
            Nat.find reached :=
        Nat.mod_eq_of_lt (by omega)
      rw [Option.some.inj loop, value]
      exact least
    · exact absurd loop (by simp)
  · rw [countPages_of_unreached] at counted
    · exact absurd counted (by simp)
    · intro pages positive small
      by_contra enough
      exact reached ⟨pages, positive, small, enough⟩

/-! ## Without overflow -/

/-- The least number of pages, at least one, that raise `size` to `bound`. -/
def pagesFor (size bound : Nat) : Nat :=
  if bound ≤ size + 4096 then 1 else (bound - size + 4095) / 4096

/-- The page count reaches its bound. -/
theorem pagesFor_reaches (size bound : Nat) :
    bound ≤ size + pagesFor size bound * 4096 := by
  unfold pagesFor
  split <;> omega

/-- No smaller page count reaches the bound. -/
theorem pagesFor_le
    {size bound count : Nat}
    (positive : 1 ≤ count)
    (reaches : bound ≤ size + count * 4096) :
    pagesFor size bound ≤ count := by
  unfold pagesFor
  split <;> omega

/-- At least one page is added. -/
theorem pagesFor_pos (size bound : Nat) : 1 ≤ pagesFor size bound := by
  unfold pagesFor
  split <;> omega

/-- Without overflow, the loops end at `pagesFor`. -/
theorem leastPages_pagesFor
    {curSize bound : SizeT}
    (room :
      curSize.toNat + pagesFor curSize.toNat bound.toNat * 4096 <
        2 ^ 32) :
    LeastPages curSize bound (pagesFor curSize.toNat bound.toNat) := by
  have positive := pagesFor_pos curSize.toNat bound.toNat
  have reaches := pagesFor_reaches curSize.toNat bound.toNat
  have sum
      {count : Nat}
      (below : count ≤ pagesFor curSize.toNat bound.toNat) :
      (curSize + BitVec.ofNat 32 count * 4096).toNat =
        curSize.toNat + count * 4096 := by
    have page : (4096 : SizeT).toNat = 4096 := rfl
    rw [BitVec.toNat_add, BitVec.toNat_mul, BitVec.toNat_ofNat, page]
    omega
  refine ⟨positive, by omega, ?_, ?_⟩
  · rw [BitVec.lt_def, sum (Nat.le_refl _)]
    omega
  · intro fewer one below
    rw [BitVec.lt_def, sum (Nat.le_of_lt below)]
    by_contra enough
    have least :=
      pagesFor_le one (Nat.le_of_not_lt enough)
    omega

/-- Without overflow, the loops count `pagesFor` pages. -/
theorem countPages_eq
    {curSize bound : SizeT}
    {fuel : Nat}
    {result : SizeT}
    (room :
      curSize.toNat + pagesFor curSize.toNat bound.toNat * 4096 <
        2 ^ 32)
    (counted : countPages curSize bound fuel 1 = some result) :
    result.toNat = pagesFor curSize.toNat bound.toNat :=
  (leastPages_of_countPages counted).unique (leastPages_pagesFor room)

end HobbyOS
