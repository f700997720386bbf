import HobbyOS.Heap.Coalescing
import HobbyOS.Heap.Dereferences
import HobbyOS.Heap.WellFormed

namespace HobbyOS

open Library

/-!
# Defragmentation

`vmm_malloc_defrag` coalesces the block list, in rounds that each end in front
of a used block.  A round that joins the last block leaves the outer loop at
the null pointer, whose link it reads.  So the function does what it is for
exactly when every free block that is not the last one has a used block
behind it.
-/

/-! ## Rounds of the loop -/

/-- The merging in one round of the loop of `vmm_malloc_defrag`. -/
def mergeRound (fuel : Nat) (memory : Memory) (cur : PtrT) :
    Option Memory :=
  if blockFree memory cur then mergeFree memory cur fuel
  else some memory

/-- One round of the loop. -/
theorem defragFrom_succ
    {memory : Memory}
    {cur : PtrT}
    (more : blockNext memory cur ≠ 0)
    (fuel : Nat) :
    defragFrom (fuel + 1) memory cur =
      (mergeRound fuel memory cur).bind fun later =>
        defragFrom fuel later (blockNext later cur) := by
  rw [defragFrom, if_neg more, mergeRound]
  cases blockFree memory cur with
  | false =>
      rfl
  | true =>
      rfl

/-- The null pointer among the blocks that one round looks at. -/
theorem zero_mem_defragVisits_succ
    {memory : Memory}
    {cur : PtrT}
    (more : blockNext memory cur ≠ 0)
    (notNull : cur ≠ 0)
    (fuel : Nat) :
    0 ∈ defragVisits (fuel + 1) memory cur ↔
      (blockFree memory cur = true ∧
          0 ∈ mergeFreeVisits memory cur fuel) ∨
        ∃ later,
          mergeRound fuel memory cur = some later ∧
            0 ∈ defragVisits fuel later (blockNext later cur) := by
  rw [defragVisits, if_neg more, List.mem_cons,
    or_iff_right notNull.symm, mergeRound]
  cases blockFree memory cur with
  | false =>
      simp
  | true =>
      rw [if_pos rfl, if_pos rfl, List.mem_append]
      cases mergeFree memory cur fuel with
      | none =>
          simp
      | some later =>
          simp

section Rounds

variable
  {memory : Memory}
  {fuel address : Nat}
  {cell : Cell}
  {rest : List Cell}

/-- The memory that a round leaves. -/
structure RoundResult
    (memory later : Memory)
    (address : Nat)
    (cell : Cell)
    (rest : List Cell)
    (joined : Cell)
    (kept : List Cell) :
    Prop where
  segment : Segment later 0 address (joined :: kept)
  outside : AgreeOutside address (address + 12) memory later
  joins : JoinsRun cell rest joined kept

/-- A round that returns has joined the free cells behind its cell. -/
theorem mergeRound_result
    {later : Memory}
    (segment : Segment memory 0 address (cell :: rest))
    (more : rest ≠ [])
    (returned : mergeRound fuel memory (pointer address) = some later) :
    ∃ joined kept,
      RoundResult memory later address cell rest joined kept := by
  rw [mergeRound, segment.1.2.free] at returned
  cases mark : cell.free with
  | false =>
      rw [mark, if_neg Bool.false_ne_true] at returned
      cases returned
      exact ⟨cell, rest, segment, AgreeOutside.refl _ _ _,
        joinsRun_used mark rest⟩
  | true =>
      rw [mark, if_pos rfl] at returned
      obtain ⟨next, behind, rfl⟩ := List.exists_cons_of_ne_nil more
      obtain ⟨merged, outside⟩ := mergeFree_segment segment returned
      obtain ⟨joined, kept, same⟩ :=
        List.exists_cons_of_ne_nil (joinFree_ne_nil cell (next :: behind))
      rw [same] at merged
      exact ⟨joined, kept, merged, outside, joinsRun_joinFree mark same⟩

/-- With fuel for the cells of the list, a round returns. -/
theorem mergeRound_ends
    (segment : Segment memory 0 address (cell :: rest))
    (more : rest ≠ [])
    (fueled : rest.length ≤ fuel) :
    ∃ later, mergeRound fuel memory (pointer address) = some later := by
  rw [mergeRound]
  split
  · obtain ⟨next, behind, rfl⟩ := List.exists_cons_of_ne_nil more
    rw [List.length_cons] at fueled
    exact mergeFree_ends segment fueled
  · exact ⟨memory, rfl⟩

/-- A round dereferences blocks of the list only. -/
theorem mergeRound_visits
    (segment : Segment memory 0 address (cell :: rest))
    (more : rest ≠ [])
    (positive : 0 < address) :
    0 ∉ mergeFreeVisits memory (pointer address) fuel := by
  obtain ⟨next, behind, rfl⟩ := List.exists_cons_of_ne_nil more
  exact mergeFreeVisits_ne_zero segment positive fuel

/-- In front of a used cell a round changes nothing. -/
theorem mergeRound_of_noAdjacentFree
    (segment : Segment memory 0 address (cell :: rest))
    (more : rest ≠ [])
    (apart : NoAdjacentFree (cell :: rest))
    (fuel : Nat) :
    mergeRound (fuel + 1) memory (pointer address) = some memory := by
  obtain ⟨next, behind, rfl⟩ := List.exists_cons_of_ne_nil more
  rw [mergeRound, segment.1.2.free]
  split
  · rename_i free
    have chain := List.isChain_cons_cons.mp apart
    rw [mergeFree_succ segment, if_neg fun both => chain.1 ⟨free, both⟩]
  · rfl

/-- The loop goes on at the next cell that was kept. -/
theorem RoundResult.link
    {later : Memory}
    {joined : Cell}
    {kept : List Cell}
    (result : RoundResult memory later address cell rest joined kept) :
    blockNext later (pointer address) =
      if kept = [] then 0 else pointer (address + joined.span) :=
  result.segment.1.2.next

end Rounds

/-! ## The loop -/

section Loop

variable
  {memory : Memory}
  {fuel address : Nat}
  {cells : List Cell}

/-- The loop coalesces a list whose tail stays, and ends. -/
theorem defragFrom_coalesce
    (segment : Segment memory 0 address cells)
    (nonempty : cells ≠ [])
    (tail : TailKept cells)
    (fueled : cells.length ≤ fuel) :
    ∃ later,
      defragFrom fuel memory (pointer address) = some later ∧
        Segment later 0 address (coalesce cells) ∧
        AgreeOutside address (address + totalSpan cells)
          memory later := by
  induction fuel generalizing memory address cells with
  | zero =>
      exact (nonempty
        (List.eq_nil_of_length_eq_zero (Nat.le_zero.mp fueled))).elim
  | succ fuel inductionHypothesis =>
      obtain ⟨cell, rest, rfl⟩ := List.exists_cons_of_ne_nil nonempty
      rw [List.length_cons, Nat.add_le_add_iff_right] at fueled
      by_cases last : rest = []
      · subst last
        exact ⟨memory,
          by rw [defragFrom, if_pos (segment.blockNext_head.mpr rfl)],
          segment, AgreeOutside.refl _ _ _⟩
      · obtain ⟨middle, returned⟩ := mergeRound_ends segment last fueled
        obtain ⟨joined, kept, result⟩ :=
          mergeRound_result segment last returned
        obtain ⟨keptNonempty, keptTail⟩ := (result.joins.tail last).mp tail
        have shorter := result.joins.shorter
        have span := result.joins.span
        rw [totalSpan_cons joined] at span
        obtain ⟨later, ended, behind, outside⟩ :=
          inductionHypothesis result.segment.2 keptNonempty keptTail
            (Nat.le_trans shorter fueled)
        refine ⟨later, ?_, ?_, ?_⟩
        · rw [defragFrom_succ
              ((not_congr segment.blockNext_head).mpr last),
            returned, Option.bind_some, result.link, if_neg keptNonempty]
          exact ended
        · rw [result.joins.coalesced]
          exact result.segment.cons keptNonempty
            (coalesce_ne_nil keptNonempty) behind outside
        · refine (result.outside.mono (Nat.le_refl _) ?_).trans
            (outside.mono (Nat.le_add_right _ _) ?_)
          · rw [totalSpan_cons, Cell.span]
            omega
          · omega

/-- Where no neighbours are free, the loop changes nothing, and ends. -/
theorem defragFrom_of_noAdjacentFree
    (segment : Segment memory 0 address cells)
    (nonempty : cells ≠ [])
    (apart : NoAdjacentFree cells)
    (fueled : cells.length < fuel) :
    defragFrom fuel memory (pointer address) = some memory := by
  induction cells generalizing fuel address with
  | nil =>
      exact (nonempty rfl).elim
  | cons cell rest inductionHypothesis =>
      obtain ⟨fuel, rfl⟩ := Nat.exists_eq_succ_of_ne_zero
        (Nat.ne_of_gt (Nat.zero_lt_of_lt fueled))
      rw [List.length_cons, Nat.add_lt_add_iff_right] at fueled
      by_cases last : rest = []
      · rw [defragFrom, if_pos (segment.blockNext_head.mpr last)]
      · have link := segment.1.2.next
        rw [if_neg last] at link
        obtain ⟨fuel', rfl⟩ := Nat.exists_eq_succ_of_ne_zero
          (Nat.ne_of_gt (Nat.zero_lt_of_lt fueled))
        rw [defragFrom_succ ((not_congr segment.blockNext_head).mpr last),
          mergeRound_of_noAdjacentFree segment last apart,
          Option.bind_some, link]
        exact inductionHypothesis segment.2 last apart.tail fueled

/-- Where the tail stays, the loop dereferences blocks of the list only. -/
theorem defragVisits_ne_zero
    (segment : Segment memory 0 address cells)
    (nonempty : cells ≠ [])
    (positive : 0 < address)
    (tail : TailKept cells)
    (fuel : Nat) :
    0 ∉ defragVisits fuel memory (pointer address) := by
  induction fuel generalizing memory address cells with
  | zero =>
      exact List.not_mem_nil
  | succ fuel inductionHypothesis =>
      obtain ⟨cell, rest, rfl⟩ := List.exists_cons_of_ne_nil nonempty
      have here := segment.1.pointer_ne_zero positive
      by_cases last : rest = []
      · rw [defragVisits, if_pos (segment.blockNext_head.mpr last),
          List.mem_singleton]
        exact here.symm
      · rw [zero_mem_defragVisits_succ
          ((not_congr segment.blockNext_head).mpr last) here]
        rintro (⟨_, null⟩ | ⟨later, returned, null⟩)
        · exact mergeRound_visits segment last positive null
        · obtain ⟨joined, kept, result⟩ :=
            mergeRound_result segment last returned
          obtain ⟨keptNonempty, keptTail⟩ :=
            (result.joins.tail last).mp tail
          rw [result.link, if_neg keptNonempty] at null
          exact inductionHypothesis result.segment.2 keptNonempty
            (Nat.lt_of_lt_of_le positive (Nat.le_add_right _ _)) keptTail
            null

/-- A list whose tail does not stay leads the loop to the null pointer. -/
theorem zero_mem_defragVisits
    (segment : Segment memory 0 address cells)
    (nonempty : cells ≠ [])
    (positive : 0 < address)
    (notKept : ¬TailKept cells)
    (fueled : cells.length < fuel) :
    0 ∈ defragVisits fuel memory (pointer address) := by
  induction fuel generalizing memory address cells with
  | zero =>
      exact (Nat.not_lt_zero _ fueled).elim
  | succ fuel inductionHypothesis =>
      obtain ⟨cell, rest, rfl⟩ := List.exists_cons_of_ne_nil nonempty
      rw [List.length_cons, Nat.add_lt_add_iff_right] at fueled
      have here := segment.1.pointer_ne_zero positive
      have last : rest ≠ [] := by
        rintro rfl
        exact notKept (NoAdjacentFree.tailKept (List.isChain_singleton cell))
      obtain ⟨later, returned⟩ :=
        mergeRound_ends segment last (Nat.le_of_lt fueled)
      obtain ⟨joined, kept, result⟩ :=
        mergeRound_result segment last returned
      rw [zero_mem_defragVisits_succ
        ((not_congr segment.blockNext_head).mpr last) here]
      refine Or.inr ⟨later, returned, ?_⟩
      rw [result.link]
      by_cases all : kept = []
      · -- The round has joined the last cell of the list.
        obtain ⟨fuel, rfl⟩ := Nat.exists_eq_succ_of_ne_zero
          (Nat.ne_of_gt (Nat.zero_lt_of_lt fueled))
        rw [if_pos all, defragVisits]
        exact List.mem_cons_self
      · rw [if_neg all]
        refine inductionHypothesis result.segment.2 all
          (Nat.lt_of_lt_of_le positive (Nat.le_add_right _ _))
          (fun keptTail => ?_)
          (Nat.lt_of_le_of_lt result.joins.shorter fueled)
        exact notKept ((result.joins.tail last).mpr ⟨all, keptTail⟩)

end Loop

/-! ## The whole function -/

/--
`vmm_malloc_defrag` ends without dereferencing the null pointer, and leaves a
well-formed list over the same heap, with exactly the same used blocks and no
two adjacent free ones, which a second call does not change.  It writes inside
the heap only.
-/
structure Defragments (kernel : Kernel) (cells : List Cell) : Prop where
  noNull : ∀ fuel, 0 ∉ vmmMallocDefragVisits fuel kernel
  ends :
    ∃ fuel memory later,
      vmmMallocDefrag fuel kernel = some (kernel.withMemory memory) ∧
        WellFormedHeap (kernel.withMemory memory).heap later ∧
        AgreeOutside kernel.heap.mallocHead.toNat kernel.heap.endAddress
          kernel.heap.memory memory ∧
        (∀ address cell,
          cell.free = false →
          (CellAt kernel.heap.mallocHead.toNat later address cell ↔
            CellAt kernel.heap.mallocHead.toNat cells address cell)) ∧
        NoAdjacentFree later ∧
        (∀ fuel, 0 ∉ vmmMallocDefragVisits fuel
          (kernel.withMemory memory)) ∧
        ∃ fuel,
          vmmMallocDefrag fuel (kernel.withMemory memory) =
            some (kernel.withMemory memory)

section Whole

variable
  {kernel : Kernel}
  {cells : List Cell}
  {fuel : Nat}

/-- A loop that ends is a call that returns. -/
theorem WellFormedHeap.vmmMallocDefrag
    {memory : Memory}
    (wellFormed : WellFormedHeap kernel.heap cells)
    (returned :
      defragFrom fuel kernel.heap.memory
          (pointer kernel.heap.mallocHead.toNat) =
        some memory) :
    HobbyOS.vmmMallocDefrag fuel kernel =
      some (kernel.withMemory memory) := by
  rw [pointer_head] at returned
  rw [HobbyOS.vmmMallocDefrag, if_neg wellFormed.notNull, returned]
  rfl

/-- The blocks that a call looks at are those of its loop. -/
theorem WellFormedHeap.vmmMallocDefragVisits
    (wellFormed : WellFormedHeap kernel.heap cells)
    (fuel : Nat) :
    HobbyOS.vmmMallocDefragVisits fuel kernel =
      defragVisits fuel kernel.heap.memory
        (pointer kernel.heap.mallocHead.toNat) := by
  rw [pointer_head, HobbyOS.vmmMallocDefragVisits,
    if_neg wellFormed.notNull]

/-- Where the tail stays, no call dereferences the null pointer. -/
theorem WellFormedHeap.defrag_noNull
    (wellFormed : WellFormedHeap kernel.heap cells)
    (tail : TailKept cells)
    (fuel : Nat) :
    0 ∉ HobbyOS.vmmMallocDefragVisits fuel kernel := by
  rw [wellFormed.vmmMallocDefragVisits]
  exact defragVisits_ne_zero wellFormed.segment wellFormed.nonempty
    wellFormed.head_pos tail fuel

/--
Defragmentation does what it is for exactly when every free block that is not
the last one has a used block behind it.
-/
theorem vmmMallocDefrag_defragments_iff
    (wellFormed : WellFormedHeap kernel.heap cells) :
    Defragments kernel cells ↔ TailKept cells := by
  constructor
  · intro defragments
    by_contra notKept
    have null :=
      zero_mem_defragVisits wellFormed.segment wellFormed.nonempty
        wellFormed.head_pos notKept (Nat.lt_succ_self cells.length)
    rw [← wellFormed.vmmMallocDefragVisits] at null
    exact defragments.noNull _ null
  · intro tail
    have nonempty := coalesce_ne_nil wellFormed.nonempty
    have apart := noAdjacentFree_coalesce cells
    obtain ⟨memory, returned, segment, outside⟩ :=
      defragFrom_coalesce wellFormed.segment wellFormed.nonempty tail
        (Nat.le_refl _)
    rw [wellFormed.ends] at outside
    have later :
        WellFormedHeap (kernel.withMemory memory).heap (coalesce cells) :=
      wellFormed.withMemory nonempty segment (totalSpan_coalesce cells)
    have again :=
      defragFrom_of_noAdjacentFree later.segment nonempty apart
        (Nat.lt_succ_self _)
    exact ⟨wellFormed.defrag_noNull tail, cells.length, memory,
      coalesce cells, wellFormed.vmmMallocDefrag returned, later,
      outside, fun _ _ used => cellAt_coalesce_iff used, apart,
      later.defrag_noNull apart.tailKept, _,
      later.vmmMallocDefrag again⟩

end Whole

/-- Two free blocks in front of a used one are joined. -/
theorem vmmMallocDefrag_defragments_iff_usedLast :
    Defragments
      (cellsKernel 1 [⟨100, true⟩, ⟨100, true⟩, ⟨3860, false⟩])
      [⟨100, true⟩, ⟨100, true⟩, ⟨3860, false⟩] := by
  refine (vmmMallocDefrag_defragments_iff
    (wellFormedHeap_cellsKernel (by decide) (by decide)
      (by decide))).mpr ?_
  have last : TailKept [⟨3860, false⟩] :=
    NoAdjacentFree.tailKept (List.isChain_singleton _)
  exact @TailKept.append [⟨100, true⟩, ⟨100, true⟩] _ last _
    List.mem_cons_self rfl

/-- Two free blocks at the end of the list lead to the null pointer. -/
theorem vmmMallocDefrag_defragments_fails :
    ¬∀ (kernel : Kernel) (cells : List Cell),
        WellFormedHeap kernel.heap cells → Defragments kernel cells := by
  intro claimed
  have wellFormed :
      WellFormedHeap (cellsKernel 1 [⟨100, true⟩, ⟨3972, true⟩]).heap
        [⟨100, true⟩, ⟨3972, true⟩] :=
    wellFormedHeap_cellsKernel (by decide) (by decide) (by decide)
  have notKept : ¬TailKept [⟨100, true⟩, ⟨3972, true⟩] := by
    intro tail
    have used := (tailKept_cons_iff.mp tail).1 rfl (by decide)
    simp at used
  have null :=
    zero_mem_defragVisits wellFormed.segment wellFormed.nonempty
      wellFormed.head_pos notKept (Nat.lt_succ_self _)
  rw [← wellFormed.vmmMallocDefragVisits] at null
  exact (claimed _ _ wellFormed).noNull _ null

end HobbyOS
