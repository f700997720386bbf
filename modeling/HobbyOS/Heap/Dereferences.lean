import HobbyOS.Heap.Release

namespace HobbyOS

open Library

/-!
# The blocks that freeing and merging look at

`vmm_malloc_free` and `vmm_malloc_defrag` follow the links of the block list
while they change them.  The lists here name, in order, the blocks whose
headers a loop reads or writes, each loop with the fuel of its model.  A null
pointer in such a list is one that is dereferenced.
-/

/-- Blocks that the inner merging loops look at. -/
def mergeFreeVisits (memory : Memory) (cur : PtrT) : Nat → List PtrT
  | 0 => []
  | fuel + 1 =>
      cur :: blockNext memory cur ::
        if blockFree memory (blockNext memory cur) then
          let memory := mergeBlock memory cur (blockNext memory cur)
          if blockNext memory cur = 0 then []
          else mergeFreeVisits memory cur fuel
        else
          []

/-- Blocks that the loop of `vmm_malloc_defrag` looks at. -/
def defragVisits : Nat → Memory → PtrT → List PtrT
  | 0, _, _ => []
  | fuel + 1, memory, cur =>
      cur ::
        if blockNext memory cur = 0 then
          []
        else if blockFree memory cur then
          mergeFreeVisits memory cur fuel ++
            match mergeFree memory cur fuel with
            | some memory =>
                defragVisits fuel memory (blockNext memory cur)
            | none => []
        else
          defragVisits fuel memory (blockNext memory cur)

/-- Blocks that `vmm_malloc_defrag` looks at. -/
def vmmMallocDefragVisits (fuel : Nat) (kernel : Kernel) : List PtrT :=
  if kernel.heap.mallocHead = 0 then []
  else defragVisits fuel kernel.heap.memory kernel.heap.mallocHead

/-- Blocks that `vmm_malloc_free` looks at to release the block `cur`. -/
def releaseVisits
    (fuel : Nat)
    (memory : Memory)
    (cur prev : PtrT) :
    List PtrT :=
  let memory := setBlockFree memory cur true
  let merged := prev ≠ 0 ∧ blockFree memory prev
  let (memory, into) :=
    if merged then (mergeBlock memory prev cur, prev) else (memory, cur)
  cur :: (if prev ≠ 0 then [prev] else []) ++
    into ::
      if blockNext memory into ≠ 0 then mergeFreeVisits memory into fuel
      else []

/-- Blocks that the loop of `vmm_malloc_free` looks at. -/
def freeVisits (ptr : PtrT) : Nat → Memory → PtrT → PtrT → List PtrT
  | 0, _, _, _ => []
  | fuel + 1, memory, cur, prev =>
      cur ::
        if blockNext memory cur = 0 then
          []
        else if cur + headerSize = ptr then
          releaseVisits fuel memory cur prev ++
            match releaseBlock fuel memory cur prev with
            | some (memory, cur) =>
                freeVisits ptr fuel memory (blockNext memory cur) cur
            | none => []
        else
          freeVisits ptr fuel memory (blockNext memory cur) cur

/-- Blocks that `vmm_malloc_free` looks at. -/
def vmmMallocFreeVisits
    (fuel : Nat)
    (kernel : Kernel)
    (ptr : PtrT) :
    List PtrT :=
  freeVisits ptr fuel kernel.heap.memory kernel.heap.mallocHead 0

/-! ## The merging loop -/

section Merging

variable
  {memory : Memory}
  {address : Nat}
  {cell next : Cell}
  {rest : List Cell}

/-- One iteration of the merging loop on cells. -/
theorem mergeFree_succ
    (segment : Segment memory 0 address (cell :: next :: rest))
    (fuel : Nat) :
    let joined :=
      mergeBlock memory (pointer address) (pointer (address + cell.span))
    mergeFree memory (pointer address) (fuel + 1) =
      if next.free then
        if rest = [] then some joined
        else mergeFree joined (pointer address) fuel
      else
        some memory := by
  intro joined
  have link := segment.1.2.next
  simp only [List.cons_ne_nil, ↓reduceIte] at link
  have behind := (mergeBlock_segment segment).1.blockNext_head
  rw [mergeFree, link, segment.2.1.2.free]
  simp only [behind]
  rfl

/-- The blocks of one iteration of the merging loop. -/
theorem mergeFreeVisits_succ
    (segment : Segment memory 0 address (cell :: next :: rest))
    (fuel : Nat) :
    let joined :=
      mergeBlock memory (pointer address) (pointer (address + cell.span))
    mergeFreeVisits memory (pointer address) (fuel + 1) =
      pointer address :: pointer (address + cell.span) ::
        if next.free then
          if rest = [] then []
          else mergeFreeVisits joined (pointer address) fuel
        else
          [] := by
  intro joined
  have link := segment.1.2.next
  simp only [List.cons_ne_nil, ↓reduceIte] at link
  have behind := (mergeBlock_segment segment).1.blockNext_head
  rw [mergeFreeVisits, link, segment.2.1.2.free]
  simp only [behind]
  rfl

/-- The merging loop ends behind the cells of the list at the latest. -/
theorem mergeFree_ends
    (segment : Segment memory 0 address (cell :: next :: rest))
    {fuel : Nat}
    (fueled : rest.length < fuel) :
    ∃ later, mergeFree memory (pointer address) fuel = some later := by
  induction rest generalizing memory fuel cell next with
  | nil =>
      obtain ⟨fuel, rfl⟩ := Nat.exists_eq_add_of_lt fueled
      rw [List.length_nil, Nat.zero_add, mergeFree_succ segment]
      split
      · exact ⟨_, rfl⟩
      · exact ⟨_, rfl⟩
  | cons third rest inductionHypothesis =>
      obtain ⟨fuel, rfl⟩ :=
        Nat.exists_eq_succ_of_ne_zero (Nat.ne_of_gt (by omega : 0 < fuel))
      rw [List.length_cons] at fueled
      rw [mergeFree_succ segment]
      split
      · rw [if_neg (List.cons_ne_nil _ _)]
        exact inductionHypothesis (mergeBlock_segment segment).1 (by omega)
      · exact ⟨_, rfl⟩

/-- The pointer to a cell of a list above the null page is not null. -/
theorem CellHeader.pointer_ne_zero
    {final : PtrT}
    (header : CellHeader memory address cell final)
    (positive : 0 < address) :
    pointer address ≠ 0 := by
  have bound := header.address_lt
  exact HobbyOS.pointer_ne_zero positive (by omega)

/-- The merging loop dereferences blocks of the list only. -/
theorem mergeFreeVisits_ne_zero
    (segment : Segment memory 0 address (cell :: next :: rest))
    (positive : 0 < address)
    (fuel : Nat) :
    0 ∉ mergeFreeVisits memory (pointer address) fuel := by
  induction fuel generalizing memory cell next rest with
  | zero =>
      simp [mergeFreeVisits]
  | succ fuel inductionHypothesis =>
      have here := segment.1.pointer_ne_zero positive
      have behind := segment.2.1.pointer_ne_zero (by omega)
      rw [mergeFreeVisits_succ segment, List.mem_cons, List.mem_cons,
        not_or, not_or]
      refine ⟨here.symm, behind.symm, ?_⟩
      split
      · split
        · exact List.not_mem_nil
        · rename_i more
          obtain ⟨third, rest, rfl⟩ := List.exists_cons_of_ne_nil more
          exact inductionHypothesis (mergeBlock_segment segment).1
      · exact List.not_mem_nil

end Merging

end HobbyOS
