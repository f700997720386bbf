import Mathlib.Data.Finset.Card
import Mathlib.Data.List.Chain
import Mathlib.Data.List.Infix

namespace HobbyOS.Library

/-!
# Chains in a table of links

A table links each cell to the next one, and some links end a chain.  The
finite chain from a cell, if there is one, is determined and visits no cell
twice.  A piece of a chain in which neighbours are related stays inside one
part of a list that is cut where neighbours are not related.
-/

variable {α : Type}

/-- The cells of the chain from a cell on, up to a link that ends it. -/
inductive LinkedChain (next : α → α) (ends : α → Prop) :
    α → List α → Prop where
  | nil
      {cell : α}
      (ended : ends cell) :
      LinkedChain next ends cell []
  | cons
      {cell : α}
      {rest : List α}
      (continues : ¬ends cell) :
      LinkedChain next ends (next cell) rest →
      LinkedChain next ends cell (cell :: rest)

namespace LinkedChain

variable
  {next : α → α}
  {ends : α → Prop}
  {start : α}
  {cells others : List α}

/-- There is at most one chain from a cell. -/
theorem unique
    (chain : LinkedChain next ends start cells)
    (other : LinkedChain next ends start others) :
    cells = others := by
  induction chain generalizing others with
  | nil ended =>
      cases other with
      | nil =>
          rfl
      | cons continues =>
          exact (continues ended).elim
  | cons continues _ inductionHypothesis =>
      cases other with
      | nil ended =>
          exact (continues ended).elim
      | cons _ tail =>
          rw [inductionHypothesis tail]

/-- The chain from each of its cells is its rest. -/
theorem from_cell
    {front back : List α}
    {cell : α}
    (chain : LinkedChain next ends start (front ++ cell :: back)) :
    LinkedChain next ends cell (cell :: back) := by
  induction front generalizing start with
  | nil =>
      cases chain with
      | cons continues tail =>
          exact .cons continues tail
  | cons first rest inductionHypothesis =>
      cases chain with
      | cons _ tail =>
          exact inductionHypothesis tail

/-- A chain visits no cell twice. -/
theorem nodup
    (chain : LinkedChain next ends start cells) :
    cells.Nodup := by
  induction chain with
  | nil =>
      exact List.nodup_nil
  | @cons cell rest continues tail inductionHypothesis =>
      refine List.nodup_cons.mpr ⟨?_, inductionHypothesis⟩
      intro again
      obtain ⟨front, back, listed⟩ := List.append_of_mem again
      rw [listed] at tail
      have shorter := tail.from_cell
      have same := (LinkedChain.cons continues tail).unique shorter
      have length := congrArg List.length same
      simp only [List.length_cons, List.length_append] at length
      omega

/-- No cell of a chain ends it. -/
theorem not_ends
    (chain : LinkedChain next ends start cells)
    {cell : α}
    (member : cell ∈ cells) :
    ¬ends cell := by
  obtain ⟨front, back, rfl⟩ := List.append_of_mem member
  cases chain.from_cell with
  | cons continues _ =>
      exact continues

/-- The link of the last cell of a chain ends it. -/
theorem ends_getLast
    (chain : LinkedChain next ends start cells)
    {last : α}
    (isLast : last ∈ cells.getLast?) :
    ends (next last) := by
  obtain ⟨front, rfl⟩ := List.getLast?_eq_some_iff.mp isLast
  cases chain.from_cell with
  | cons _ tail =>
      cases tail with
      | nil ended =>
          exact ended

/-- A chain over numbered cells has no more cells than numbers. -/
theorem length_le
    (chain : LinkedChain next ends start cells)
    (number : α → Nat)
    (injective : Function.Injective number)
    {bound : Nat}
    (inside : ∀ cell ∈ cells, number cell < bound) :
    cells.length ≤ bound := by
  have distinct : (cells.map number).Nodup :=
    chain.nodup.map injective
  have below : (cells.map number).toFinset ⊆ Finset.range bound := by
    intro value member
    rw [List.mem_toFinset, List.mem_map] at member
    obtain ⟨cell, held, rfl⟩ := member
    exact Finset.mem_range.mpr (inside cell held)
  have counted := Finset.card_le_card below
  rwa [List.toFinset_card_of_nodup distinct, List.length_map,
    Finset.card_range] at counted

end LinkedChain

/-- A list has a piece of some length with all neighbours related. -/
def HasRun (related : α → α → Prop) (length : Nat) (cells : List α) :
    Prop :=
  ∃ run, run <:+: cells ∧ run.length = length ∧ run.IsChain related

/-- A run does not reach over neighbours that are not related. -/
theorem HasRun.tail
    {related : α → α → Prop}
    {length : Nat}
    {piece tail : List α}
    (has : HasRun related length (piece ++ tail))
    (short : piece.length < length)
    (apart :
      ∀ last ∈ piece.getLast?, ∀ head ∈ tail.head?, ¬related last head) :
    HasRun related length tail := by
  obtain ⟨run, inside, long, chained⟩ := has
  rw [List.infix_append_iff_ne_nil] at inside
  rcases inside with inPiece | inTail | ⟨front, back, frontNonempty,
    backNonempty, rfl, frontEnds, backStarts⟩
  · have bound := inPiece.length_le
    omega
  · exact ⟨run, inTail, long, chained⟩
  · exfalso
    have joined := (List.isChain_append.mp chained).2.2
    have lastIn := List.getLast?_eq_some_getLast frontNonempty
    have headIn := List.head?_eq_some_head backNonempty
    refine apart _ ?_ _ ?_ (joined _ lastIn _ headIn)
    · obtain ⟨before, rfl⟩ := frontEnds
      rw [List.getLast?_append, lastIn]
      rfl
    · obtain ⟨behind, rfl⟩ := backStarts
      rw [List.head?_append, headIn]
      rfl

/-- A run stays in a longer list. -/
theorem HasRun.mono
    {related : α → α → Prop}
    {length : Nat}
    {cells others : List α}
    (has : HasRun related length cells)
    (within : cells <:+: others) :
    HasRun related length others := by
  obtain ⟨run, inside, long, chained⟩ := has
  exact ⟨run, inside.trans within, long, chained⟩

end HobbyOS.Library
