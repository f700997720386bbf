import Mathlib.Data.List.Chain
import HobbyOS.Heap.Release

namespace HobbyOS

/-!
# Coalescing lists of cells

What merging free blocks is for: a list over the same range, with the same
used cells, in which no two neighbours are free.  Coalescing a list is defined
from its end, and the merging loops, which go from the front, do the same.
-/

/-- No two neighbours of a list are both free. -/
def NoAdjacentFree (cells : List Cell) : Prop :=
  cells.IsChain fun first second =>
    ¬(first.free = true ∧ second.free = true)

/-- A cell in front of a list, which joins the first cell if both are free. -/
def joinHead (cell : Cell) : List Cell → List Cell
  | [] => [cell]
  | next :: rest =>
      if cell.free ∧ next.free then cell.join next :: rest
      else cell :: next :: rest

/-- Join all neighbours that are free. -/
def coalesce : List Cell → List Cell
  | [] => []
  | cell :: rest => joinHead cell (coalesce rest)

/-- Joining is associative. -/
theorem Cell.join_join (cell next other : Cell) :
    (cell.join next).join other = cell.join (next.join other) := by
  simp only [Cell.join, Cell.span, Cell.mk.injEq, and_true]
  omega

/-- A used cell stays by itself. -/
theorem joinHead_used
    {cell : Cell}
    (used : cell.free = false)
    (cells : List Cell) :
    joinHead cell cells = cell :: cells := by
  cases cells with
  | nil =>
      rfl
  | cons next rest =>
      simp [joinHead, used]

/-- A cell in front of a used one stays by itself. -/
theorem joinHead_before_used
    (cell : Cell)
    {next : Cell}
    (used : next.free = false)
    (rest : List Cell) :
    joinHead cell (next :: rest) = cell :: next :: rest := by
  simp [joinHead, used]

/-- Two free cells in front of a list join it as one cell. -/
theorem joinHead_joinHead
    {cell next : Cell}
    (free : cell.free = true)
    (nextFree : next.free = true)
    (cells : List Cell) :
    joinHead cell (joinHead next cells) =
      joinHead (cell.join next) cells := by
  have joinFree : (cell.join next).free = true := free
  cases cells with
  | nil =>
      simp [joinHead, free, nextFree]
  | cons third rest =>
      cases mark : third.free with
      | false =>
          rw [joinHead_before_used next mark, joinHead_before_used _ mark]
          simp [joinHead, free, nextFree]
      | true =>
          have thirdJoin : (next.join third).free = true := nextFree
          simp only [joinHead, free, nextFree, mark, joinFree, thirdJoin,
            and_self, ↓reduceIte, Cell.join_join]

/-- The first cell keeps its mark. -/
theorem joinHead_head
    (cell : Cell)
    (cells : List Cell) :
    ∃ first rest,
      joinHead cell cells = first :: rest ∧ first.free = cell.free := by
  cases cells with
  | nil =>
      exact ⟨cell, [], rfl, rfl⟩
  | cons next rest =>
      rw [joinHead]
      split
      · exact ⟨_, _, rfl, rfl⟩
      · exact ⟨_, _, rfl, rfl⟩

/-- Coalescing leaves something of every list. -/
theorem coalesce_ne_nil
    {cells : List Cell}
    (nonempty : cells ≠ []) :
    coalesce cells ≠ [] := by
  obtain ⟨cell, rest, rfl⟩ := List.exists_cons_of_ne_nil nonempty
  obtain ⟨first, others, same, _⟩ := joinHead_head cell (coalesce rest)
  rw [coalesce, same]
  exact List.cons_ne_nil _ _

/-- Joining a cell keeps the range. -/
theorem totalSpan_joinHead
    (cell : Cell)
    (cells : List Cell) :
    totalSpan (joinHead cell cells) = cell.span + totalSpan cells := by
  cases cells with
  | nil =>
      rfl
  | cons next rest =>
      rw [joinHead]
      split
      · rw [totalSpan_cons, totalSpan_cons, Cell.span_join, Nat.add_assoc]
      · rfl

/-- Coalescing keeps the range. -/
theorem totalSpan_coalesce (cells : List Cell) :
    totalSpan (coalesce cells) = totalSpan cells := by
  induction cells with
  | nil =>
      rfl
  | cons cell rest inductionHypothesis =>
      rw [coalesce, totalSpan_joinHead, inductionHypothesis,
        totalSpan_cons]

/-- Joining a cell keeps the used cells. -/
theorem cellAt_joinHead_iff
    {start address : Nat}
    {cell other : Cell}
    {cells : List Cell}
    (used : other.free = false) :
    CellAt start (joinHead cell cells) address other ↔
      CellAt start (cell :: cells) address other := by
  cases cells with
  | nil =>
      rfl
  | cons next rest =>
      rw [joinHead]
      split
      · rename_i free
        have notCell (located : other = cell) : False := by
          rw [located, free.1] at used
          exact Bool.noConfusion used
        have notNext (located : other = next) : False := by
          rw [located, free.2] at used
          exact Bool.noConfusion used
        have notJoined (located : other = cell.join next) : False := by
          rw [located] at used
          exact Bool.noConfusion (free.1.symm.trans used)
        simp only [CellAt, Cell.span_join, Nat.add_assoc]
        constructor
        · rintro (⟨_, located⟩ | behind)
          · exact (notJoined located).elim
          · exact Or.inr (Or.inr behind)
        · rintro (⟨_, located⟩ | ⟨_, located⟩ | behind)
          · exact (notCell located).elim
          · exact (notNext located).elim
          · exact Or.inr behind
      · rfl

/-- Coalescing keeps the used cells where they are, and adds none. -/
theorem cellAt_coalesce_iff
    {start address : Nat}
    {other : Cell}
    {cells : List Cell}
    (used : other.free = false) :
    CellAt start (coalesce cells) address other ↔
      CellAt start cells address other := by
  induction cells generalizing start with
  | nil =>
      rfl
  | cons cell rest inductionHypothesis =>
      rw [coalesce, cellAt_joinHead_iff used, CellAt, CellAt,
        inductionHypothesis]

/-- Joining a cell keeps neighbours apart. -/
theorem NoAdjacentFree.joinHead
    {cells : List Cell}
    (apart : NoAdjacentFree cells)
    (cell : Cell) :
    NoAdjacentFree (joinHead cell cells) := by
  cases cells with
  | nil =>
      exact List.isChain_singleton _
  | cons next rest =>
      rw [HobbyOS.joinHead]
      split
      · rename_i free
        cases rest with
        | nil =>
            exact List.isChain_singleton _
        | cons third rest =>
            have chain := List.isChain_cons_cons.mp apart
            refine List.isChain_cons_cons.mpr ⟨?_, chain.2⟩
            exact fun both => chain.1 ⟨free.2, both.2⟩
      · rename_i notBoth
        exact List.isChain_cons_cons.mpr ⟨notBoth, apart⟩

/-- Coalescing leaves no free neighbours. -/
theorem noAdjacentFree_coalesce (cells : List Cell) :
    NoAdjacentFree (coalesce cells) := by
  induction cells with
  | nil =>
      exact List.isChain_nil
  | cons cell rest inductionHypothesis =>
      exact inductionHypothesis.joinHead cell

/-! ## Merging from the front -/

/-- A free cell joins up to the next used cell. -/
theorem joinFree_kept
    {cell joined : Cell}
    {rest kept : List Cell}
    (same : joinFree cell rest = joined :: kept) :
    ∀ next ∈ kept.head?, next.free = false := by
  induction rest generalizing cell with
  | nil =>
      cases same
      simp
  | cons next rest inductionHypothesis =>
      rw [joinFree] at same
      split at same
      · exact inductionHypothesis same
      · rename_i used
        cases same
        simpa using used

/-- The cells that a free cell takes over, and the ones that are kept. -/
theorem joinFree_split
    {cell joined : Cell}
    {rest kept : List Cell}
    (same : joinFree cell rest = joined :: kept) :
    ∃ taken,
      rest = taken ++ kept ∧
        joined.free = cell.free ∧
        joined.span = cell.span + totalSpan taken ∧
        (∀ other ∈ taken, other.free = true) ∧
        ∀ next ∈ kept.head?, next.free = false := by
  obtain ⟨first, taken, behind, listed, split, free, span, absorbed⟩ :=
    joinFree_eq cell rest
  rw [same, List.cons.injEq] at listed
  obtain ⟨rfl, rfl⟩ := listed
  exact ⟨taken, split, free, span, absorbed, joinFree_kept same⟩

/-- Merging the free cells behind a cell is the beginning of coalescing. -/
theorem coalesce_joinFree
    {cell : Cell}
    (free : cell.free = true)
    {rest kept : List Cell}
    {joined : Cell}
    (same : joinFree cell rest = joined :: kept) :
    coalesce (cell :: rest) = joined :: coalesce kept := by
  induction rest generalizing cell with
  | nil =>
      cases same
      rfl
  | cons next rest inductionHypothesis =>
      rw [joinFree] at same
      split at same
      · rename_i nextFree
        rw [← inductionHypothesis (show (cell.join next).free = true from free)
          same]
        exact joinHead_joinHead free nextFree (coalesce rest)
      · rename_i used
        cases same
        obtain ⟨first, others, coalesced, mark⟩ :=
          joinHead_head next (coalesce rest)
        have firstUsed : first.free = false := by
          rw [mark]
          exact Bool.eq_false_of_not_eq_true used
        rw [coalesce, coalesce, coalesced]
        exact joinHead_before_used _ firstUsed others

/-! ## Lists whose tail stays -/

/-- The condition on a list, from its first cell on. -/
theorem tailKept_cons_iff
    {cell : Cell}
    {rest : List Cell} :
    TailKept (cell :: rest) ↔
      (cell.free = true →
        rest ≠ [] →
        ∃ used ∈ rest, used.free = false) ∧
        TailKept rest := by
  constructor
  · intro kept
    exact ⟨fun free more => kept [] cell rest rfl free more,
      @TailKept.of_append [cell] rest kept⟩
  · rintro ⟨here, behind⟩ front other back listed free more
    cases front with
    | nil =>
        cases listed
        exact here free more
    | cons first front =>
        cases listed
        exact behind front other back rfl free more

/-- The used cells of a list end it, whatever stands in front of them. -/
theorem TailKept.append
    {taken kept : List Cell}
    (tail : TailKept kept)
    {used : Cell}
    (member : used ∈ kept)
    (notFree : used.free = false) :
    TailKept (taken ++ kept) := by
  induction taken with
  | nil =>
      exact tail
  | cons cell rest inductionHypothesis =>
      refine tailKept_cons_iff.mpr ⟨fun _ _ => ?_, inductionHypothesis⟩
      exact ⟨used, List.mem_append_right rest member, notFree⟩

/-- A free cell in front of a used one leaves the end of the list alone. -/
theorem TailKept.kept_ne_nil
    {cell : Cell}
    {rest taken kept : List Cell}
    (tail : TailKept (cell :: rest))
    (free : cell.free = true)
    (more : rest ≠ [])
    (split : rest = taken ++ kept)
    (absorbed : ∀ other ∈ taken, other.free = true) :
    kept ≠ [] := by
  rintro rfl
  rw [List.append_nil] at split
  obtain ⟨other, member, notFree⟩ :=
    (tailKept_cons_iff.mp tail).1 free more
  rw [split] at member
  rw [absorbed other member] at notFree
  exact Bool.noConfusion notFree

/-- Where no neighbours are free, the end of the list stays. -/
theorem NoAdjacentFree.tailKept
    {cells : List Cell}
    (apart : NoAdjacentFree cells) :
    TailKept cells := by
  induction cells with
  | nil =>
      exact fun front cell back listed => by simp at listed
  | cons cell rest inductionHypothesis =>
      refine tailKept_cons_iff.mpr
        ⟨?_, inductionHypothesis apart.tail⟩
      intro free more
      obtain ⟨next, behind, rfl⟩ := List.exists_cons_of_ne_nil more
      have chain := List.isChain_cons_cons.mp apart
      exact ⟨next, List.mem_cons_self,
        Bool.eq_false_of_not_eq_true fun nextFree =>
          chain.1 ⟨free, nextFree⟩⟩

/-! ## Rounds -/

/--
A round of coalescing at the first cell of a list: the cell has become
`joined`, and the list goes on with `kept`.
-/
structure JoinsRun
    (cell : Cell)
    (rest : List Cell)
    (joined : Cell)
    (kept : List Cell) :
    Prop where
  coalesced : coalesce (cell :: rest) = joined :: coalesce kept
  shorter : kept.length ≤ rest.length
  span : totalSpan (joined :: kept) = totalSpan (cell :: rest)
  tail :
    rest ≠ [] → (TailKept (cell :: rest) ↔ kept ≠ [] ∧ TailKept kept)

/-- A used cell is a round of its own. -/
theorem joinsRun_used
    {cell : Cell}
    (used : cell.free = false)
    (rest : List Cell) :
    JoinsRun cell rest cell rest where
  coalesced := joinHead_used used (coalesce rest)
  shorter := Nat.le_refl _
  span := rfl
  tail := by
    intro more
    rw [tailKept_cons_iff]
    refine and_congr_left fun _ => ?_
    refine iff_of_true (fun free => ?_) more
    exact Bool.noConfusion (used.symm.trans free)

/-- A free cell takes over the free cells behind it. -/
theorem joinsRun_joinFree
    {cell joined : Cell}
    {rest kept : List Cell}
    (free : cell.free = true)
    (same : joinFree cell rest = joined :: kept) :
    JoinsRun cell rest joined kept := by
  obtain ⟨taken, split, _, span, absorbed, behind⟩ := joinFree_split same
  refine ⟨coalesce_joinFree free same, ?_, ?_, ?_⟩
  · rw [split, List.length_append]
    exact Nat.le_add_left _ _
  · rw [totalSpan_cons, totalSpan_cons, span, split, totalSpan_append,
      Nat.add_assoc]
  · intro more
    constructor
    · intro tail
      refine ⟨tail.kept_ne_nil free more split absorbed, ?_⟩
      rw [split, ← List.cons_append] at tail
      exact tail.of_append
    · rintro ⟨nonempty, tail⟩
      obtain ⟨next, others, rfl⟩ := List.exists_cons_of_ne_nil nonempty
      have used := behind next rfl
      rw [split, ← List.cons_append]
      exact tail.append List.mem_cons_self used

end HobbyOS
