import HobbyOS.Heap.BlockList

namespace HobbyOS

open Library

/-!
# Releasing cells

`vmm_malloc_free` and `vmm_malloc_defrag` join neighbouring free cells and
leave the used cells where they are.  When they join the last cell of the
list to its predecessor, the loops step to the null pointer and read a link
there, so they are described for lists whose tail stays, or for a null link
at the null pointer.
-/

/-- Payload size of the first cell. -/
def headSize : List Cell → Nat
  | [] => 0
  | cell :: _ => cell.size

/--
What releasing memory does to a list of cells: the range stays the same, and
used cells stay where they are, except for the one that was freed.
-/
structure Released
    (start freed : Nat)
    (cells later : List Cell) :
    Prop where
  nonempty : later ≠ []
  span : totalSpan later = totalSpan cells
  head : headSize cells ≤ headSize later
  used :
    ∀ {address : Nat} {cell : Cell},
      address ≠ freed →
      cell.free = false →
      CellAt start cells address cell →
      CellAt start later address cell

namespace Released

variable
  {start freed : Nat}
  {cells middle later : List Cell}

/-- Nothing is released. -/
theorem refl
    (nonempty : cells ≠ []) :
    Released start freed cells cells :=
  ⟨nonempty, rfl, Nat.le_refl _, fun _ _ located => located⟩

/-- Releases compose. -/
theorem trans
    (first : Released start freed cells middle)
    (second : Released start freed middle later) :
    Released start freed cells later :=
  ⟨second.nonempty, second.span.trans first.span,
    Nat.le_trans first.head second.head,
    fun other used located =>
      second.used other used (first.used other used located)⟩

/-- A release behind a cell. -/
theorem cons
    {cell : Cell}
    (released : Released (start + cell.span) freed cells later) :
    Released start freed (cell :: cells) (cell :: later) := by
  refine ⟨by simp, ?_, Nat.le_refl _, ?_⟩
  · rw [totalSpan_cons, totalSpan_cons, released.span]
  · intro address other different used located
    rcases located with here | behind
    · exact Or.inl here
    · exact Or.inr (released.used different used behind)

/-- Marking a cell as free releases it. -/
theorem mark
    (cell : Cell)
    (rest : List Cell) :
    Released start start (cell :: rest) (⟨cell.size, true⟩ :: rest) := by
  refine ⟨by simp, rfl, Nat.le_refl _, ?_⟩
  intro address other different used located
  rcases located with ⟨here, _⟩ | behind
  · exact (different here).elim
  · exact Or.inr behind

/-- Joining two free cells releases nothing. -/
theorem join
    {cell next : Cell}
    {rest : List Cell}
    (free : cell.free = true)
    (nextFree : next.free = true) :
    Released start freed (cell :: next :: rest)
      (cell.join next :: rest) := by
  refine ⟨by simp, by simp [Nat.add_assoc], ?_, ?_⟩
  · exact Nat.le_add_right _ _
  · intro address other _ used located
    rcases located with ⟨_, rfl⟩ | ⟨_, rfl⟩ | behind
    · rw [free] at used
      exact Bool.noConfusion used
    · rw [nextFree] at used
      exact Bool.noConfusion used
    · refine Or.inr ?_
      rw [Cell.span_join, ← Nat.add_assoc]
      exact behind

/-- Joining the free cells behind a free cell releases nothing. -/
theorem joinFree
    {cell : Cell}
    (free : cell.free = true)
    (rest : List Cell) :
    Released start freed (cell :: rest) (HobbyOS.joinFree cell rest) := by
  induction rest generalizing cell with
  | nil =>
      exact refl (by simp)
  | cons next rest inductionHypothesis =>
      rw [HobbyOS.joinFree]
      split
      · rename_i nextFree
        have joined :
            Released start freed (cell :: next :: rest)
              (cell.join next :: rest) :=
          join free nextFree
        exact joined.trans (inductionHypothesis free)
      · exact refl (by simp)

end Released

/-- A free cell that is not the last one has a used cell behind it. -/
def TailKept (cells : List Cell) : Prop :=
  ∀ front cell back,
    cells = front ++ cell :: back →
    cell.free = true →
    back ≠ [] →
    ∃ used ∈ back, used.free = false

/-- The condition is about the end of the list. -/
theorem TailKept.of_append
    {front back : List Cell}
    (kept : TailKept (front ++ back)) :
    TailKept back := by
  rintro earlier cell rest rfl
  exact kept (front ++ earlier) cell rest (by simp)

/-- Writes behind the null page's first words keep the null link. -/
theorem blockNext_zero_of_agreeOutside
    {memory later : Memory}
    {low high : Nat}
    (agree : AgreeOutside low high memory later)
    (above : 12 ≤ low) :
    blockNext later 0 = blockNext memory 0 :=
  readWord_of_agreeOutside agree (by decide) (Or.inl above)

/-! ## Defragmentation -/

/-- A cell in front of a segment. -/
theorem Segment.cons
    {memory later : Memory}
    {address : Nat}
    {cell : Cell}
    {rest cells : List Cell}
    (segment : Segment memory 0 address (cell :: rest))
    (more : rest ≠ [])
    (nonempty : cells ≠ [])
    (behind : Segment later 0 (address + cell.span) cells)
    {high : Nat}
    (agree :
      AgreeOutside (address + cell.span) high memory later) :
    Segment later 0 address (cell :: cells) := by
  have header := segment.1
  rw [if_neg more] at header
  refine ⟨?_, behind⟩
  rw [if_neg nonempty]
  exact header.congr (agree.agreeOn (Or.inl (Nat.le_refl _)))

/-- Behind the last block the loop reads the null page's link and ends. -/
theorem defragFrom_null
    {fuel : Nat}
    {memory later : Memory}
    (null : blockNext memory 0 = 0)
    (defragged : defragFrom fuel memory 0 = some later) :
    later = memory := by
  cases fuel with
  | zero =>
      simp [defragFrom] at defragged
  | succ fuel =>
      rw [defragFrom, if_pos null] at defragged
      exact (Option.some.inj defragged).symm

/--
One iteration of the loop of `vmm_malloc_defrag`: a free cell joins the free
cells behind it, and the loop goes on at the link.
-/
theorem defragFrom_step
    (freed : Nat)
    {fuel address : Nat}
    {memory later : Memory}
    {cell : Cell}
    {rest : List Cell}
    (segment : Segment memory 0 address (cell :: rest))
    (more : rest ≠ [])
    (defragged :
      defragFrom (fuel + 1) memory (pointer address) = some later) :
    ∃ middle joined taken kept,
      rest = taken ++ kept ∧
        (cell.free = false → taken = []) ∧
        (∀ absorbed ∈ taken, absorbed.free = true) ∧
        Segment middle 0 address (joined :: kept) ∧
        Released address freed (cell :: rest) (joined :: kept) ∧
        AgreeOutside address (address + 12) memory middle ∧
        defragFrom fuel middle (blockNext middle (pointer address)) =
          some later := by
  rw [defragFrom, if_neg ((not_congr segment.blockNext_head).mpr more),
    segment.1.2.free] at defragged
  cases mark : cell.free with
  | false =>
      simp only [mark, Bool.false_eq_true, ↓reduceIte,
        Option.bind_eq_bind, Option.bind_some] at defragged
      exact ⟨memory, cell, [], rest, rfl, fun _ => rfl, by simp, segment,
        Released.refl (List.cons_ne_nil _ _), AgreeOutside.refl _ _ _,
        defragged⟩
  | true =>
      simp only [mark, ↓reduceIte, Option.bind_eq_bind,
        Option.bind_eq_some_iff] at defragged
      obtain ⟨middle, merged, continued⟩ := defragged
      obtain ⟨next, behind, rfl⟩ := List.exists_cons_of_ne_nil more
      obtain ⟨joinedSegment, outside⟩ := mergeFree_segment segment merged
      have released :
          Released address freed (cell :: next :: behind)
            (joinFree cell (next :: behind)) :=
        Released.joinFree mark (next :: behind)
      obtain ⟨joined, taken, kept, same, split, _, _, absorbed⟩ :=
        joinFree_eq cell (next :: behind)
      rw [same] at joinedSegment released
      exact ⟨middle, joined, taken, kept, split,
        fun used => Bool.noConfusion used, absorbed, joinedSegment,
        released, outside, continued⟩

/-- `vmm_malloc_defrag` joins free cells. -/
theorem defragFrom_segment
    (freed : Nat)
    {fuel address : Nat}
    {memory later : Memory}
    {cells : List Cell}
    (segment : Segment memory 0 address cells)
    (nonempty : cells ≠ [])
    (above : 12 ≤ address)
    (ends : blockNext memory 0 = 0 ∨ TailKept cells)
    (defragged :
      defragFrom fuel memory (pointer address) = some later) :
    ∃ cells',
      Segment later 0 address cells' ∧
        Released address freed cells cells' ∧
        AgreeOutside address (address + totalSpan cells)
          memory later := by
  induction fuel generalizing address memory cells with
  | zero =>
      simp [defragFrom] at defragged
  | succ fuel inductionHypothesis =>
      obtain ⟨cell, rest, rfl⟩ := List.exists_cons_of_ne_nil nonempty
      by_cases last : rest = []
      · rw [defragFrom, if_pos (segment.blockNext_head.mpr last)]
          at defragged
        rw [← Option.some.inj defragged]
        exact ⟨_, segment, Released.refl nonempty,
          AgreeOutside.refl _ _ _⟩
      · obtain ⟨middle, joined, taken, kept, split, used, absorbed,
          joinedSegment, released, outside, continued⟩ :=
          defragFrom_step freed segment last defragged
        have null := blockNext_zero_of_agreeOutside outside above
        have inside :
            AgreeOutside address (address + totalSpan (cell :: rest))
              memory middle := by
          refine outside.mono (Nat.le_refl _) ?_
          rw [totalSpan_cons, Cell.span]
          omega
        by_cases all : kept = []
        · -- The last cell was joined, so the loop is at the null pointer.
          have zero : blockNext memory 0 = 0 := by
            rw [all, List.append_nil] at split
            rcases ends with zero | tail
            · exact zero
            · have free : cell.free = true :=
                Bool.eq_true_of_not_eq_false fun notFree =>
                  last (split.trans (used notFree))
              obtain ⟨other, member, notFree⟩ :=
                tail [] cell rest rfl free last
              rw [split] at member
              rw [absorbed other member] at notFree
              exact Bool.noConfusion notFree
          rw [joinedSegment.blockNext_head.mpr all] at continued
          rw [defragFrom_null (null.trans zero) continued]
          exact ⟨_, joinedSegment, released, inside⟩
        · have link := joinedSegment.1.2.next
          rw [if_neg all] at link
          rw [link] at continued
          have ends' : blockNext middle 0 = 0 ∨ TailKept kept := by
            rw [null]
            refine ends.imp_right fun tail => ?_
            rw [split, ← List.cons_append] at tail
            exact tail.of_append
          obtain ⟨cells', behindSegment, behindReleased, agree⟩ :=
            inductionHypothesis joinedSegment.2 all (by omega) ends'
              continued
          refine ⟨joined :: cells', ?_,
            released.trans behindReleased.cons, inside.trans ?_⟩
          · exact joinedSegment.cons all behindReleased.nonempty
              behindSegment agree
          · refine agree.mono (by omega) ?_
            rw [← released.span, totalSpan_cons, Nat.add_assoc]

/-! ## Freeing -/

/-- Pointers to different payloads are different. -/
theorem pointer_add_headerSize_ne
    {first second : Nat}
    (firstFits : first + 12 ≤ 2 ^ 32)
    (secondFits : second + 12 < 2 ^ 32)
    (different : first ≠ second) :
    pointer first + headerSize ≠ pointer (second + 12) := by
  rw [pointer_add_headerSize]
  intro same
  have values := congrArg BitVec.toNat same
  rw [toNat_pointer secondFits] at values
  by_cases top : first + 12 = 2 ^ 32
  · rw [top] at values
    have zero : 0 = second + 12 := values
    omega
  · rw [toNat_pointer (by omega)] at values
    omega

/-- The payload of a cell with a successor starts below 4 GiB. -/
theorem Segment.targetFits
    {memory : Memory}
    {address : Nat}
    {cell : Cell}
    {rest : List Cell}
    (segment : Segment memory 0 address (cell :: rest))
    (more : rest ≠ []) :
    address + 12 < 2 ^ 32 := by
  obtain ⟨next, behind, rfl⟩ := List.exists_cons_of_ne_nil more
  have fits := segment.2.1.address_lt
  unfold Cell.span at fits
  omega

/--
No block that the loop of `vmm_malloc_free` can release has its payload at a
pointer.  The loop never releases the last block.
-/
def Elsewhere (ptr : PtrT) (address : Nat) (cells : List Cell) : Prop :=
  ∀ front cell back,
    cells = front ++ cell :: back →
    back ≠ [] →
    pointer (address + totalSpan front) + headerSize ≠ ptr

/-- The cells behind the first one. -/
theorem Elsewhere.tail
    {ptr : PtrT}
    {address : Nat}
    {cell : Cell}
    {rest : List Cell}
    (elsewhere : Elsewhere ptr address (cell :: rest)) :
    Elsewhere ptr (address + cell.span) rest := by
  rintro front other back rfl more
  have behind := elsewhere (cell :: front) other back rfl more
  rwa [totalSpan_cons, ← Nat.add_assoc] at behind

/-- The loop passes a block that is not the one to be freed. -/
theorem freeFrom_pass
    {ptr : PtrT}
    {address : Nat}
    {memory : Memory}
    {cell : Cell}
    {rest : List Cell}
    (segment : Segment memory 0 address (cell :: rest))
    (more : rest ≠ [])
    (other : pointer address + headerSize ≠ ptr)
    (fuel : Nat)
    (prev : PtrT) :
    freeFrom ptr (fuel + 1) memory (pointer address) prev =
      freeFrom ptr fuel memory (pointer (address + cell.span))
        (pointer address) := by
  have link := segment.1.2.next
  rw [if_neg more] at link
  rw [freeFrom, if_neg ((not_congr segment.blockNext_head).mpr more),
    if_neg other, link]

/-- The loop ends behind a list without its block. -/
theorem freeFrom_ends
    {ptr : PtrT}
    {fuel address : Nat}
    {memory : Memory}
    {cells : List Cell}
    (segment : Segment memory 0 address cells)
    (nonempty : cells ≠ [])
    (elsewhere : Elsewhere ptr address cells)
    (fueled : cells.length ≤ fuel)
    (prev : PtrT) :
    freeFrom ptr fuel memory (pointer address) prev = some memory := by
  induction fuel generalizing address prev cells with
  | zero =>
      exact (nonempty
        (List.eq_nil_of_length_eq_zero (Nat.le_zero.mp fueled))).elim
  | succ fuel inductionHypothesis =>
      obtain ⟨cell, rest, rfl⟩ := List.exists_cons_of_ne_nil nonempty
      rw [List.length_cons, Nat.add_le_add_iff_right] at fueled
      by_cases last : rest = []
      · rw [freeFrom, if_pos (segment.blockNext_head.mpr last)]
      · have here := elsewhere [] cell rest rfl last
        rw [freeFrom_pass segment last here]
        exact inductionHypothesis segment.2 last elsewhere.tail fueled _

/-- The loop leaves a list without its block alone. -/
theorem freeFrom_elsewhere
    {ptr prev : PtrT}
    {fuel address : Nat}
    {memory later : Memory}
    {cells : List Cell}
    (segment : Segment memory 0 address cells)
    (nonempty : cells ≠ [])
    (elsewhere : Elsewhere ptr address cells)
    (returned :
      freeFrom ptr fuel memory (pointer address) prev = some later) :
    later = memory := by
  induction fuel generalizing address prev cells with
  | zero =>
      simp [freeFrom] at returned
  | succ fuel inductionHypothesis =>
      obtain ⟨cell, rest, rfl⟩ := List.exists_cons_of_ne_nil nonempty
      by_cases last : rest = []
      · rw [freeFrom, if_pos (segment.blockNext_head.mpr last)] at returned
        exact (Option.some.inj returned).symm
      · have here := elsewhere [] cell rest rfl last
        rw [freeFrom_pass segment last here] at returned
        exact inductionHypothesis segment.2 last elsewhere.tail returned

/-- Cells at other addresses have their payloads elsewhere. -/
theorem Segment.elsewhere
    {memory : Memory}
    {target address : Nat}
    {cells : List Cell}
    (segment : Segment memory 0 address cells)
    (targetFits : target + 12 < 2 ^ 32)
    (other :
      ∀ front cell back,
        cells = front ++ cell :: back →
        back ≠ [] →
        address + totalSpan front ≠ target) :
    Elsewhere (pointer (target + 12)) address cells := by
  rintro front cell back rfl more
  have there := (segment_append (List.cons_ne_nil cell back)).mp segment
  exact pointer_add_headerSize_ne there.2.1.address_lt targetFits
    (other front cell back rfl more)

/-- The loop of `vmm_malloc_free` leaves a list without its block alone. -/
theorem freeFrom_other
    {target fuel address : Nat}
    {memory later : Memory}
    {prev : PtrT}
    {cells : List Cell}
    (segment : Segment memory 0 address cells)
    (nonempty : cells ≠ [])
    (targetFits : target + 12 < 2 ^ 32)
    (other :
      ∀ front cell back,
        cells = front ++ cell :: back →
        back ≠ [] →
        address + totalSpan front ≠ target)
    (returned :
      freeFrom (pointer (target + 12)) fuel memory (pointer address)
          prev =
        some later) :
    later = memory :=
  freeFrom_elsewhere segment nonempty
    (segment.elsewhere targetFits other) returned

/-- Behind the last block the loop reads the null page's link and ends. -/
theorem freeFrom_null
    {fuel : Nat}
    {memory later : Memory}
    {ptr prev : PtrT}
    (null : blockNext memory 0 = 0)
    (returned : freeFrom ptr fuel memory 0 prev = some later) :
    later = memory := by
  cases fuel with
  | zero =>
      simp [freeFrom] at returned
  | succ fuel =>
      rw [freeFrom, if_pos null] at returned
      exact (Option.some.inj returned).symm

/-- The rest of the loop, after the block was released. -/
theorem freeFrom_released
    {target fuel address : Nat}
    {memory later : Memory}
    {prev : PtrT}
    {joined : Cell}
    {kept : List Cell}
    (segment : Segment memory 0 address (joined :: kept))
    (targetFits : target + 12 < 2 ^ 32)
    (before : target < address + joined.span)
    (ends : kept = [] → blockNext memory 0 = 0)
    (returned :
      freeFrom (pointer (target + 12)) fuel memory
          (blockNext memory (pointer address)) prev =
        some later) :
    later = memory := by
  by_cases last : kept = []
  · rw [segment.blockNext_head.mpr last] at returned
    exact freeFrom_null (ends last) returned
  · have link := segment.1.2.next
    rw [if_neg last] at link
    rw [link] at returned
    refine freeFrom_other segment.2 last targetFits ?_ returned
    intro front cell back _ _
    omega

/-- A cell is marked as free. -/
theorem setBlockFree_segment
    {memory : Memory}
    {address : Nat}
    {cell : Cell}
    {rest : List Cell}
    (segment : Segment memory 0 address (cell :: rest)) :
    let later := setBlockFree memory (pointer address) true
    Segment later 0 address (⟨cell.size, true⟩ :: rest) ∧
      AgreeOutside address (address + 12) memory later := by
  intro later
  have header := segment.1
  have outside := setBlockFree_agreeOutside memory true header.2.room
  rw [header.toNat_pointer] at outside
  refine ⟨⟨⟨header.1, header.2.setFree true⟩, ?_⟩, outside⟩
  refine segment.2.congr (outside.agreeOn (Or.inr ?_))
  unfold Cell.span
  omega

/-- The cell behind the first one is marked as free. -/
theorem setBlockFree_behind
    {memory : Memory}
    {address : Nat}
    {prev cell : Cell}
    {rest : List Cell}
    (segment : Segment memory 0 address (prev :: cell :: rest)) :
    let later :=
      setBlockFree memory (pointer (address + prev.span)) true
    Segment later 0 address (prev :: ⟨cell.size, true⟩ :: rest) ∧
      AgreeOutside (address + prev.span) (address + prev.span + 12)
        memory later := by
  intro later
  obtain ⟨marked, outside⟩ := setBlockFree_segment segment.2
  exact ⟨segment.cons (List.cons_ne_nil _ _) (List.cons_ne_nil _ _) marked
    outside, outside⟩

/-- The first block is marked as free in front of a used one. -/
theorem freeFrom_first
    {fuel address : Nat}
    {memory : Memory}
    {cell next : Cell}
    {rest : List Cell}
    (segment : Segment memory 0 address (cell :: next :: rest))
    (used : next.free = false)
    (fueled : rest.length + 2 ≤ fuel) :
    freeFrom (pointer (address + 12)) fuel memory (pointer address) 0 =
      some (setBlockFree memory (pointer address) true) := by
  obtain ⟨marked, _⟩ := setBlockFree_segment segment
  obtain ⟨fuel, rfl⟩ : ∃ few, fuel = few + 2 := ⟨fuel - 2, by omega⟩
  have more : next :: rest ≠ [] := List.cons_ne_nil _ _
  have link := marked.1.2.next
  rw [if_neg more] at link
  have linked :
      blockNext (setBlockFree memory (pointer address) true)
          (pointer address) ≠
        0 :=
    (not_congr marked.blockNext_head).mpr more
  have elsewhere :
      Elsewhere (pointer (address + 12)) (address + cell.span)
        (next :: rest) := by
    refine marked.2.elsewhere (segment.targetFits more) ?_
    intro front other back _ _
    unfold Cell.span
    omega
  -- The used block stops the merging loop at once.
  have stops :
      mergeFree (setBlockFree memory (pointer address) true)
          (pointer address) (fuel + 1) =
        some (setBlockFree memory (pointer address) true) := by
    rw [mergeFree, link, marked.2.1.2.free, used]
    rfl
  have released :
      releaseBlock (fuel + 1) memory (pointer address) 0 =
        some (setBlockFree memory (pointer address) true,
          pointer address) := by
    rw [releaseBlock, if_neg (by simp)]
    simp only [linked, ne_eq, not_false_eq_true, ↓reduceIte, stops]
    rfl
  rw [freeFrom, if_neg ((not_congr segment.blockNext_head).mpr more),
    if_pos (pointer_add_headerSize address), released,
    Option.bind_eq_bind, Option.bind_some]
  simp only [link]
  exact freeFrom_ends marked.2 more elsewhere (by simp; omega) _

/-- Behind a used cell, a block is released by itself. -/
theorem alone_of_used
    {memory : Memory}
    {address : Nat}
    {prev cell : Cell}
    {rest : List Cell}
    (segment : Segment memory 0 address (prev :: cell :: rest))
    (used : prev.free = false) :
    ¬(pointer address ≠ 0 ∧
      blockFree
          (setBlockFree memory (pointer (address + prev.span)) true)
          (pointer address) =
        true) := by
  rintro ⟨_, free⟩
  obtain ⟨whole, _⟩ := setBlockFree_behind segment
  rw [whole.1.2.free, used] at free
  exact Bool.noConfusion free

/-- Merging what follows a cell that has something behind it. -/
theorem mergeFree_of_releaseBlock
    {fuel address : Nat}
    {memory later : Memory}
    {cur : PtrT}
    {cell : Cell}
    {rest : List Cell}
    (segment : Segment memory 0 address (cell :: rest))
    (more : rest ≠ [])
    (released :
      (if blockNext memory (pointer address) ≠ 0 then do
          let memory ← mergeFree memory (pointer address) fuel
          return (memory, pointer address)
        else some (memory, pointer address)) =
        some (later, cur)) :
    cur = pointer address ∧
      Segment later 0 address (joinFree cell rest) ∧
      AgreeOutside address (address + 12) memory later := by
  rw [if_pos ((not_congr segment.blockNext_head).mpr more)] at released
  simp only [Option.bind_eq_bind, Option.bind_eq_some_iff,
    Option.pure_def, Option.some.injEq, Prod.mk.injEq] at released
  obtain ⟨merged, returned, rfl, rfl⟩ := released
  obtain ⟨next, rest, rfl⟩ := List.exists_cons_of_ne_nil more
  exact ⟨rfl, mergeFree_segment segment returned⟩

/-- Releasing a block whose predecessor is not free. -/
theorem releaseBlock_alone
    {fuel address : Nat}
    {memory later : Memory}
    {cur prev : PtrT}
    {cell : Cell}
    {rest : List Cell}
    (segment : Segment memory 0 address (cell :: rest))
    (more : rest ≠ [])
    (alone :
      ¬(prev ≠ 0 ∧
        blockFree (setBlockFree memory (pointer address) true) prev =
          true))
    (released :
      releaseBlock fuel memory (pointer address) prev =
        some (later, cur)) :
    cur = pointer address ∧
      Segment later 0 address (joinFree ⟨cell.size, true⟩ rest) ∧
      AgreeOutside address (address + 12) memory later := by
  obtain ⟨marked, outside⟩ := setBlockFree_segment segment
  rw [releaseBlock, if_neg alone] at released
  obtain ⟨same, joined, further⟩ :=
    mergeFree_of_releaseBlock marked more released
  exact ⟨same, joined, outside.trans further⟩

/-- Releasing a block whose predecessor is free. -/
theorem releaseBlock_joined
    {fuel address : Nat}
    {memory later : Memory}
    {cur : PtrT}
    {prev cell : Cell}
    {rest : List Cell}
    (segment : Segment memory 0 address (prev :: cell :: rest))
    (positive : 0 < address)
    (prevFree : prev.free = true)
    (more : rest ≠ [])
    (released :
      releaseBlock fuel memory (pointer (address + prev.span))
          (pointer address) =
        some (later, cur)) :
    cur = pointer address ∧
      Segment later 0 address (joinFree (prev.join cell) rest) ∧
      AgreeOutside address (address + prev.span + 12) memory later := by
  have fits := segment.1.address_lt
  obtain ⟨whole, outside⟩ := setBlockFree_behind segment
  have free :
      pointer address ≠ 0 ∧
        blockFree
            (setBlockFree memory (pointer (address + prev.span)) true)
            (pointer address) =
          true := by
    refine ⟨pointer_ne_zero positive (by omega), ?_⟩
    rw [whole.1.2.free]
    exact prevFree
  obtain ⟨joined, joinedOutside⟩ := mergeBlock_segment whole
  rw [releaseBlock, if_pos free] at released
  obtain ⟨same, merged, further⟩ :=
    mergeFree_of_releaseBlock joined more released
  refine ⟨same, merged, ?_⟩
  exact (outside.mono (by omega) (Nat.le_refl _)).trans
    ((joinedOutside.trans further).mono (Nat.le_refl _) (by omega))

/-- The rest of the loop, after the block was joined with its successors. -/
theorem freeFrom_joined
    {target fuel address high : Nat}
    {memory middle later : Memory}
    {prev : PtrT}
    {cell : Cell}
    {rest : List Cell}
    (segment : Segment middle 0 address (joinFree cell rest))
    (outside : AgreeOutside address high memory middle)
    (above : 12 ≤ address)
    (targetFits : target + 12 < 2 ^ 32)
    (before : target < address + cell.span)
    (ends :
      blockNext memory 0 = 0 ∨ ∃ used ∈ rest, used.free = false)
    (returned :
      freeFrom (pointer (target + 12)) fuel middle
          (blockNext middle (pointer address)) prev =
        some later) :
    later = middle := by
  obtain ⟨joined, taken, kept, same, split, _, span, absorbed⟩ :=
    joinFree_eq cell rest
  rw [same] at segment
  refine freeFrom_released segment targetFits (by omega) ?_ returned
  rintro rfl
  rw [blockNext_zero_of_agreeOutside outside above]
  rcases ends with zero | ⟨used, member, notFree⟩
  · exact zero
  · rw [split, List.append_nil] at member
    rw [absorbed used member] at notFree
    exact Bool.noConfusion notFree

/-- The loop at its block, if the predecessor is not free. -/
theorem freeFrom_alone
    {fuel address : Nat}
    {memory later : Memory}
    {prev : PtrT}
    {cell : Cell}
    {rest : List Cell}
    (segment : Segment memory 0 address (cell :: rest))
    (above : 12 ≤ address)
    (more : rest ≠ [])
    (alone :
      ¬(prev ≠ 0 ∧
        blockFree (setBlockFree memory (pointer address) true) prev =
          true))
    (ends :
      blockNext memory 0 = 0 ∨ ∃ used ∈ rest, used.free = false)
    (returned :
      freeFrom (pointer (address + 12)) fuel memory (pointer address)
          prev =
        some later) :
    Segment later 0 address (joinFree ⟨cell.size, true⟩ rest) ∧
      AgreeOutside address (address + 12) memory later := by
  cases fuel with
  | zero =>
      simp [freeFrom] at returned
  | succ fuel =>
      rw [freeFrom,
        if_neg ((not_congr segment.blockNext_head).mpr more),
        if_pos (pointer_add_headerSize address)] at returned
      simp only [Option.bind_eq_bind, Option.bind_eq_some_iff,
        Prod.exists] at returned
      obtain ⟨middle, cur, released, continued⟩ := returned
      obtain ⟨rfl, joined, outside⟩ :=
        releaseBlock_alone segment more alone released
      have fits := segment.targetFits more
      have same :=
        freeFrom_joined joined outside above fits
          (by unfold Cell.span; omega) ends continued
      rw [same]
      exact ⟨joined, outside⟩

/-- The loop at its block, if the predecessor is free. -/
theorem freeFrom_merged
    {fuel address : Nat}
    {memory later : Memory}
    {prev cell : Cell}
    {rest : List Cell}
    (segment : Segment memory 0 address (prev :: cell :: rest))
    (above : 12 ≤ address)
    (prevFree : prev.free = true)
    (more : rest ≠ [])
    (ends :
      blockNext memory 0 = 0 ∨ ∃ used ∈ rest, used.free = false)
    (returned :
      freeFrom (pointer (address + prev.span + 12)) fuel memory
          (pointer (address + prev.span)) (pointer address) =
        some later) :
    Segment later 0 address (joinFree (prev.join cell) rest) ∧
      AgreeOutside address (address + prev.span + 12) memory later := by
  cases fuel with
  | zero =>
      simp [freeFrom] at returned
  | succ fuel =>
      rw [freeFrom,
        if_neg ((not_congr segment.2.blockNext_head).mpr more),
        if_pos (pointer_add_headerSize _)] at returned
      simp only [Option.bind_eq_bind, Option.bind_eq_some_iff,
        Prod.exists] at returned
      obtain ⟨middle, cur, released, continued⟩ := returned
      obtain ⟨rfl, joined, outside⟩ :=
        releaseBlock_joined segment (by omega) prevFree more released
      have fits := segment.2.targetFits more
      have same :=
        freeFrom_joined joined outside above fits
          (by rw [Cell.span_join]; unfold Cell.span; omega) ends continued
      rw [same]
      exact ⟨joined, outside⟩

/-- One step of the loop over a block that is not the one to be freed. -/
theorem freeFrom_step
    {target fuel address : Nat}
    {memory later : Memory}
    {prev : PtrT}
    {cell : Cell}
    {rest : List Cell}
    (segment : Segment memory 0 address (cell :: rest))
    (more : rest ≠ [])
    (targetFits : target + 12 < 2 ^ 32)
    (other : address ≠ target)
    (returned :
      freeFrom (pointer (target + 12)) fuel memory (pointer address)
          prev =
        some later) :
    ∃ fuel,
      freeFrom (pointer (target + 12)) fuel memory
          (pointer (address + cell.span)) (pointer address) =
        some later := by
  cases fuel with
  | zero =>
      simp [freeFrom] at returned
  | succ fuel =>
      have elsewhere :=
        pointer_add_headerSize_ne segment.1.address_lt targetFits other
      rw [freeFrom_pass segment more elsewhere] at returned
      exact ⟨fuel, returned⟩

/-- The loop from a block with a predecessor on. -/
theorem freeFrom_behind
    {fuel address : Nat}
    {memory later : Memory}
    {prev cell : Cell}
    {front rest : List Cell}
    (segment :
      Segment memory 0 address (prev :: (front ++ cell :: rest)))
    (above : 12 ≤ address)
    (more : rest ≠ [])
    (ends :
      blockNext memory 0 = 0 ∨ ∃ used ∈ rest, used.free = false)
    (returned :
      freeFrom
          (pointer (address + prev.span + totalSpan front + 12)) fuel
          memory (pointer (address + prev.span)) (pointer address) =
        some later) :
    ∃ cells',
      Segment later 0 address cells' ∧
        Released address (address + prev.span + totalSpan front)
          (prev :: (front ++ cell :: rest)) cells' ∧
        AgreeOutside address
          (address + totalSpan (prev :: (front ++ cell :: rest)))
          memory later := by
  induction front generalizing fuel address prev with
  | nil =>
      rw [List.nil_append] at segment ⊢
      rw [totalSpan_nil, Nat.add_zero] at returned ⊢
      have marked :
          Released address (address + prev.span) (prev :: cell :: rest)
            (prev :: ⟨cell.size, true⟩ :: rest) :=
        (Released.mark cell rest).cons
      have room :
          address + prev.span + 12 ≤
            address + totalSpan (prev :: cell :: rest) := by
        simp only [totalSpan_cons, Cell.span]
        omega
      cases mark : prev.free with
      | true =>
          obtain ⟨merged, outside⟩ :=
            freeFrom_merged segment above mark more ends returned
          refine ⟨_, merged, ?_, outside.mono (Nat.le_refl _) room⟩
          have joinedMark : (prev.join cell).free = true := mark
          exact (marked.trans (Released.join mark rfl)).trans
            (Released.joinFree joinedMark rest)
      | false =>
          obtain ⟨joined, outside⟩ :=
            freeFrom_alone segment.2 (by omega) more
              (alone_of_used segment mark) ends returned
          refine ⟨prev :: joinFree ⟨cell.size, true⟩ rest, ?_, ?_,
            outside.mono (by omega) room⟩
          · exact segment.cons (List.cons_ne_nil _ _)
              (joinFree_ne_nil _ _) joined outside
          · exact marked.trans (Released.joinFree rfl rest).cons
  | cons next front inductionHypothesis =>
      have target :
          address + prev.span + totalSpan (next :: front) =
            address + prev.span + next.span + totalSpan front := by
        rw [totalSpan_cons, Nat.add_assoc (address + prev.span)]
      rw [target] at returned ⊢
      have behind : front ++ cell :: rest ≠ [] := by simp
      have targetSegment :=
        ((segment_append (List.cons_ne_nil cell rest)).mp
          segment.2.2).2
      obtain ⟨fuel, continued⟩ :=
        freeFrom_step segment.2 behind (targetSegment.targetFits more)
          (by unfold Cell.span; omega) returned
      obtain ⟨cells', restSegment, released, outside⟩ :=
        inductionHypothesis segment.2 (by omega) continued
      refine ⟨prev :: cells', ?_, released.cons, ?_⟩
      · exact segment.cons (List.cons_ne_nil _ _) released.nonempty
          restSegment outside
      · refine outside.mono (by omega) ?_
        rw [totalSpan_cons prev, Nat.add_assoc]
        exact Nat.le_refl _

/--
`vmm_malloc_free` of a cell that is not the last one marks the cell as free
and joins it with its free neighbours.
-/
theorem freeFrom_segment
    {fuel address : Nat}
    {memory later : Memory}
    {cell : Cell}
    {front rest : List Cell}
    (segment : Segment memory 0 address (front ++ cell :: rest))
    (above : 12 ≤ address)
    (more : rest ≠ [])
    (ends :
      blockNext memory 0 = 0 ∨ ∃ used ∈ rest, used.free = false)
    (returned :
      freeFrom (pointer (address + totalSpan front + 12)) fuel memory
          (pointer address) 0 =
        some later) :
    ∃ cells',
      Segment later 0 address cells' ∧
        Released address (address + totalSpan front)
          (front ++ cell :: rest) cells' ∧
        AgreeOutside address
          (address + totalSpan (front ++ cell :: rest)) memory later := by
  cases front with
  | nil =>
      rw [totalSpan_nil, Nat.add_zero] at returned ⊢
      obtain ⟨joined, outside⟩ :=
        freeFrom_alone segment above more (by simp) ends returned
      refine ⟨_, joined,
        (Released.mark cell rest).trans (Released.joinFree rfl rest),
        outside.mono (Nat.le_refl _) ?_⟩
      simp only [List.nil_append, totalSpan_cons, Cell.span]
      omega
  | cons prev front =>
      have behind : front ++ cell :: rest ≠ [] := by simp
      have targetSegment :=
        ((segment_append (List.cons_ne_nil cell rest)).mp segment.2).2
      rw [totalSpan_cons, ← Nat.add_assoc] at returned ⊢
      obtain ⟨fuel, continued⟩ :=
        freeFrom_step segment behind (targetSegment.targetFits more)
          (by unfold Cell.span; omega) returned
      exact freeFrom_behind segment above more ends continued

end HobbyOS
