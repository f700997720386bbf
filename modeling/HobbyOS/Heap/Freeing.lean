import HobbyOS.Heap.Coalescing
import HobbyOS.Heap.WellFormed

namespace HobbyOS

open Library

/-!
# Freeing a block

`vmm_malloc_free` goes through the list up to the block, marks it as free, lets
a free predecessor take it over, and joins the free blocks behind it.  The
loop never looks at the payload of the last block.  If the last block was
joined, the loop goes on at the null pointer, whose link it reads.
-/

/-! ## What freeing is for -/

/--
The list after a block was freed: the block and its free neighbours have
become one free block, and all other blocks are as they were.
-/
inductive FreedList :
    List Cell → Cell → List Cell → List Cell → Prop where
  | intro
      {front before behind kept : List Cell}
      {cell merged : Cell}
      (free : merged.free = true)
      (span :
        merged.span =
          totalSpan before + cell.span + totalSpan behind)
      (beforeFree : ∀ other ∈ before, other.free = true)
      (behindFree : ∀ other ∈ behind, other.free = true)
      (usedBefore :
        before = [] → ∀ other ∈ front.getLast?, other.free = false)
      (usedBehind : ∀ other ∈ kept.head?, other.free = false) :
      FreedList (front ++ before) cell (behind ++ kept)
        (front ++ merged :: kept)

/-- Freeing keeps the range. -/
theorem FreedList.totalSpan
    {front back later : List Cell}
    {cell : Cell}
    (freed : FreedList front cell back later) :
    HobbyOS.totalSpan later =
      HobbyOS.totalSpan (front ++ cell :: back) := by
  cases freed with
  | intro _ span _ _ _ _ =>
      simp only [totalSpan_append, totalSpan_cons, span]
      omega

/-- Where nothing follows the block, the list ends with a free one. -/
theorem FreedList.last_free
    {front kept : List Cell}
    {cell last : Cell}
    (freed : FreedList front cell [] (kept ++ [last])) :
    last.free = true := by
  generalize same : kept ++ [last] = later at freed
  generalize none : ([] : List Cell) = back at freed
  cases freed with
  | intro free _ _ _ _ _ =>
      have behind := (List.append_eq_nil_iff.mp none.symm).2
      rw [behind] at same
      have ends := (List.append_inj' same rfl).2
      rw [List.singleton_inj.mp ends]
      exact free

/-- A cell of a list is a member of it. -/
theorem CellAt.mem
    {start address : Nat}
    {cells : List Cell}
    {cell : Cell}
    (located : CellAt start cells address cell) :
    cell ∈ cells := by
  induction cells generalizing start with
  | nil =>
      exact located.elim
  | cons first rest inductionHypothesis =>
      rcases located with ⟨_, rfl⟩ | behind
      · exact List.mem_cons_self
      · exact List.mem_cons_of_mem first (inductionHypothesis behind)

/-- A used cell is none of some free ones. -/
theorem not_cellAt_of_free
    {start address : Nat}
    {cells : List Cell}
    {cell : Cell}
    (allFree : ∀ other ∈ cells, other.free = true)
    (used : cell.free = false) :
    ¬CellAt start cells address cell := by
  intro located
  rw [allFree cell located.mem] at used
  exact Bool.noConfusion used

/-- Freeing keeps all other used blocks, and adds none. -/
theorem FreedList.used_iff
    {front back later : List Cell}
    {cell other : Cell}
    {start address : Nat}
    (freed : FreedList front cell back later)
    (used : other.free = false)
    (different : address ≠ start + HobbyOS.totalSpan front) :
    CellAt start later address other ↔
      CellAt start (front ++ cell :: back) address other := by
  cases freed with
  | @intro front before behind kept cell merged free span beforeFree
      behindFree _ _ =>
      have notMerged : other ≠ merged := by
        rintro rfl
        exact Bool.noConfusion (free.symm.trans used)
      have notBefore (start : Nat) :=
        @not_cellAt_of_free start address _ _ beforeFree used
      have notBehind (start : Nat) :=
        @not_cellAt_of_free start address _ _ behindFree used
      have same :
          start + HobbyOS.totalSpan front + merged.span =
            start + HobbyOS.totalSpan (front ++ before) + cell.span +
              HobbyOS.totalSpan behind := by
        rw [span, totalSpan_append]
        omega
      simp only [cellAt_append, CellAt, notMerged, notBefore, notBehind,
        different, same, and_false, false_and, or_false, false_or]

/-! ## The step at the block -/

/--
The memory and the block that is about to join its successors: the freed
block, or its predecessor if that is free.
-/
def releaseInto (memory : Memory) (cur prev : PtrT) : Memory × PtrT :=
  let memory := setBlockFree memory cur true
  if prev ≠ 0 ∧ blockFree memory prev then
    (mergeBlock memory prev cur, prev)
  else
    (memory, cur)

/--
The loop stands at the block that is freed, and `into` is about to join the
cells behind it.
-/
structure Joining
    (ptr : PtrT)
    (memory : Memory)
    (cur prev : PtrT)
    (middle : Memory)
    (start : Nat)
    (into : Cell)
    (back : List Cell) :
    Prop where
  notLast : blockNext memory cur ≠ 0
  here : cur + headerSize = ptr
  notNull : cur ≠ 0
  released : releaseInto memory cur prev = (middle, pointer start)
  segment : Segment middle 0 start (into :: back)
  free : into.free = true
  more : back ≠ []
  positive : 0 < start

/-! ## The loop behind the block -/

section Behind

variable
  {ptr : PtrT}
  {memory : Memory}
  {fuel address : Nat}
  {cell : Cell}
  {rest cells : List Cell}

/-- The blocks of a step over a block that is not the one to be freed. -/
theorem freeVisits_pass
    (segment : Segment memory 0 address (cell :: rest))
    (more : rest ≠ [])
    (other : pointer address + headerSize ≠ ptr)
    (fuel : Nat)
    (prev : PtrT) :
    freeVisits ptr (fuel + 1) memory (pointer address) prev =
      pointer address ::
        freeVisits ptr fuel memory (pointer (address + cell.span))
          (pointer address) := by
  have link := segment.1.2.next
  rw [if_neg more] at link
  rw [freeVisits, if_neg ((not_congr segment.blockNext_head).mpr more),
    if_neg other, link]

/-- The loop dereferences blocks of a list without its block only. -/
theorem freeVisits_ne_zero
    (segment : Segment memory 0 address cells)
    (nonempty : cells ≠ [])
    (positive : 0 < address)
    (elsewhere : Elsewhere ptr address cells)
    (fuel : Nat)
    (prev : PtrT) :
    0 ∉ freeVisits ptr fuel memory (pointer address) prev := by
  induction fuel generalizing address prev cells with
  | zero =>
      exact List.not_mem_nil
  | succ fuel inductionHypothesis =>
      obtain ⟨cell, rest, rfl⟩ := List.exists_cons_of_ne_nil nonempty
      have here := (segment.1.pointer_ne_zero positive).symm
      by_cases last : rest = []
      · rw [freeVisits, if_pos (segment.blockNext_head.mpr last),
          List.mem_singleton]
        exact here
      · have other := elsewhere [] cell rest rfl last
        rw [freeVisits_pass segment last other, List.mem_cons, not_or]
        exact ⟨here, inductionHypothesis segment.2 last
          (Nat.lt_of_lt_of_le positive (Nat.le_add_right _ _))
          elsewhere.tail _⟩

end Behind

namespace Joining

variable
  {ptr cur prev : PtrT}
  {memory middle : Memory}
  {fuel start : Nat}
  {into : Cell}
  {back : List Cell}

/-- The step at the block. -/
theorem freeFrom_succ
    (joining : Joining ptr memory cur prev middle start into back)
    (fuel : Nat) :
    freeFrom ptr (fuel + 1) memory cur prev =
      (mergeFree middle (pointer start) fuel).bind fun later =>
        freeFrom ptr fuel later (blockNext later (pointer start))
          (pointer start) := by
  have goesOn := (not_congr joining.segment.blockNext_head).mpr joining.more
  have released := joining.released
  rw [releaseInto] at released
  rw [freeFrom, if_neg joining.notLast, if_pos joining.here, releaseBlock]
  simp only [released, ne_eq, goesOn, not_false_eq_true, ↓reduceIte]
  cases mergeFree middle (pointer start) fuel with
  | none =>
      rfl
  | some later =>
      rfl

/-- The null pointer among the blocks of that step. -/
theorem zero_mem_freeVisits_succ
    (joining : Joining ptr memory cur prev middle start into back)
    (fuel : Nat) :
    0 ∈ freeVisits ptr (fuel + 1) memory cur prev ↔
      0 ∈ mergeFreeVisits middle (pointer start) fuel ∨
        ∃ later,
          mergeFree middle (pointer start) fuel = some later ∧
            0 ∈ freeVisits ptr fuel later
              (blockNext later (pointer start)) (pointer start) := by
  have goesOn := (not_congr joining.segment.blockNext_head).mpr joining.more
  have here := joining.notNull.symm
  have into := (joining.segment.1.pointer_ne_zero joining.positive).symm
  have released := joining.released
  rw [releaseInto] at released
  have prevNotNull : 0 ∉ if prev ≠ 0 then [prev] else [] := by
    split
    · rename_i notNull
      rw [List.mem_singleton]
      exact notNull.symm
    · exact List.not_mem_nil
  rw [freeVisits, if_neg joining.notLast, if_pos joining.here,
    releaseVisits, releaseBlock]
  simp only [released, ne_eq, goesOn, not_false_eq_true, ↓reduceIte]
  cases mergeFree middle (pointer start) fuel with
  | none =>
      simp only [List.cons_append, List.mem_cons, List.mem_append, here,
        prevNotNull, into, false_or, Option.bind_eq_bind,
        Option.bind_none, List.not_mem_nil, or_false, reduceCtorEq,
        false_and, exists_false]
  | some later =>
      simp only [List.cons_append, List.mem_cons, List.mem_append, here,
        prevNotNull, into, false_or, Option.bind_eq_bind,
        Option.bind_some, Option.pure_def, Option.some.injEq,
        exists_eq_left']

/-- The joining that returned, with the cells behind the joined one. -/
theorem merged
    (joining : Joining ptr memory cur prev middle start into back)
    {later : Memory}
    (returned : mergeFree middle (pointer start) fuel = some later) :
    ∃ joined kept,
      joinFree into back = joined :: kept ∧
        Segment later 0 start (joined :: kept) ∧
        AgreeOutside start (start + 12) middle later := by
  obtain ⟨next, rest, rfl⟩ := List.exists_cons_of_ne_nil joining.more
  obtain ⟨segment, outside⟩ := mergeFree_segment joining.segment returned
  obtain ⟨joined, kept, same⟩ :=
    List.exists_cons_of_ne_nil (joinFree_ne_nil into (next :: rest))
  rw [same] at segment
  exact ⟨joined, kept, same, segment, outside⟩

/-- With fuel for the cells behind the block, the joining returns. -/
theorem merges
    (joining : Joining ptr memory cur prev middle start into back)
    (fueled : back.length ≤ fuel) :
    ∃ later, mergeFree middle (pointer start) fuel = some later := by
  obtain ⟨next, rest, rfl⟩ := List.exists_cons_of_ne_nil joining.more
  rw [List.length_cons] at fueled
  exact mergeFree_ends joining.segment fueled

/-- The joining dereferences blocks of the list only. -/
theorem merge_noNull
    (joining : Joining ptr memory cur prev middle start into back)
    (fuel : Nat) :
    0 ∉ mergeFreeVisits middle (pointer start) fuel := by
  obtain ⟨next, rest, rfl⟩ := List.exists_cons_of_ne_nil joining.more
  exact mergeFreeVisits_ne_zero joining.segment joining.positive fuel

/-- Behind the joined block, the loop does not find the block again. -/
theorem elsewhere
    {target : Nat}
    {later : Memory}
    {joined : Cell}
    {kept : List Cell}
    (same : joinFree into back = joined :: kept)
    (segment : Segment later 0 start (joined :: kept))
    (targetFits : target + 12 < 2 ^ 32)
    (before : target < start + into.span) :
    Elsewhere (pointer (target + 12)) (start + joined.span) kept := by
  obtain ⟨taken, _, _, span, _⟩ := joinFree_split same
  refine segment.2.elsewhere targetFits fun front cell rest _ _ => ?_
  omega

/-- A used cell behind the block stays behind the joined one. -/
theorem kept_ne_nil
    {joined : Cell}
    {kept : List Cell}
    (same : joinFree into back = joined :: kept)
    (stays : ∃ used ∈ back, used.free = false) :
    kept ≠ [] := by
  obtain ⟨taken, split, _, _, absorbed, _⟩ := joinFree_split same
  rintro rfl
  obtain ⟨used, member, notFree⟩ := stays
  rw [split, List.append_nil] at member
  rw [absorbed used member] at notFree
  exact Bool.noConfusion notFree

/-- Without a used cell behind the block, nothing stays behind it. -/
theorem kept_eq_nil
    {joined : Cell}
    {kept : List Cell}
    (same : joinFree into back = joined :: kept)
    (none : ¬∃ used ∈ back, used.free = false) :
    kept = [] := by
  obtain ⟨taken, split, _, _, _, behind⟩ := joinFree_split same
  cases kept with
  | nil =>
      rfl
  | cons next rest =>
      have used := behind next rfl
      refine (none ⟨next, ?_, used⟩).elim
      rw [split]
      exact List.mem_append_right taken List.mem_cons_self

/-- The loop ends if a used block stays behind the block. -/
theorem ends
    {target : Nat}
    (joining :
      Joining (pointer (target + 12)) memory cur prev middle start into
        back)
    (stays : ∃ used ∈ back, used.free = false)
    (targetFits : target + 12 < 2 ^ 32)
    (before : target < start + into.span) :
    ∃ fuel later,
      freeFrom (pointer (target + 12)) fuel memory cur prev =
          some later ∧
        Segment later 0 start (joinFree into back) ∧
        AgreeOutside start (start + 12) middle later := by
  obtain ⟨later, returned⟩ := joining.merges (Nat.le_refl _)
  obtain ⟨joined, kept, same, segment, outside⟩ := joining.merged returned
  have nonempty := kept_ne_nil same stays
  obtain ⟨taken, split, _⟩ := joinFree_split same
  have fueled : kept.length ≤ back.length := by
    rw [split, List.length_append]
    exact Nat.le_add_left _ _
  have link := segment.1.2.next
  rw [if_neg nonempty] at link
  refine ⟨back.length + 1, later, ?_, ?_, outside⟩
  · rw [joining.freeFrom_succ, returned, Option.bind_some, link]
    exact freeFrom_ends segment.2 nonempty
      (elsewhere same segment targetFits before) fueled _
  · rw [same]
    exact segment

/-- The loop dereferences blocks of the list only, if a used one stays. -/
theorem noNull
    {target : Nat}
    (joining :
      Joining (pointer (target + 12)) memory cur prev middle start into
        back)
    (stays : ∃ used ∈ back, used.free = false)
    (targetFits : target + 12 < 2 ^ 32)
    (before : target < start + into.span)
    (fuel : Nat) :
    0 ∉ freeVisits (pointer (target + 12)) fuel memory cur prev := by
  cases fuel with
  | zero =>
      exact List.not_mem_nil
  | succ fuel =>
      rw [joining.zero_mem_freeVisits_succ]
      rintro (null | ⟨later, returned, null⟩)
      · exact joining.merge_noNull fuel null
      · obtain ⟨joined, kept, same, segment, _⟩ := joining.merged returned
        have nonempty := kept_ne_nil same stays
        have link := segment.1.2.next
        rw [if_neg nonempty] at link
        rw [link] at null
        exact freeVisits_ne_zero segment.2 nonempty
          (Nat.lt_of_lt_of_le joining.positive (Nat.le_add_right _ _))
          (elsewhere same segment targetFits before) fuel _ null

/-- Otherwise the last block is joined, and the null pointer comes next. -/
theorem exists_null
    (joining : Joining ptr memory cur prev middle start into back)
    (none : ¬∃ used ∈ back, used.free = false) :
    ∃ fuel, 0 ∈ freeVisits ptr fuel memory cur prev := by
  obtain ⟨later, returned⟩ := joining.merges (Nat.le_succ back.length)
  obtain ⟨joined, kept, same, segment, _⟩ := joining.merged returned
  refine ⟨back.length + 1 + 1, ?_⟩
  rw [joining.zero_mem_freeVisits_succ]
  refine Or.inr ⟨later, returned, ?_⟩
  rw [segment.blockNext_head.mpr (kept_eq_nil same none), freeVisits]
  exact List.mem_cons_self

end Joining

/-! ## The way to the block -/

/-- The cell that takes over the freed one, and what it takes over. -/
structure TakesOver
    (front : List Cell)
    (cell : Cell)
    (kept before : List Cell)
    (into : Cell) :
    Prop where
  listed : front = kept ++ before
  beforeFree : ∀ other ∈ before, other.free = true
  usedBefore :
    before = [] → ∀ other ∈ kept.getLast?, other.free = false
  span : into.span = totalSpan before + cell.span

/-- A cell in front of all. -/
theorem TakesOver.cons
    {next cell into : Cell}
    {front kept before : List Cell}
    (takes : TakesOver (next :: front) cell kept before into)
    (first : Cell) :
    TakesOver (first :: next :: front) cell (first :: kept) before into
      where
  listed := congrArg (first :: ·) takes.listed
  beforeFree := takes.beforeFree
  usedBefore := by
    intro none
    have same := takes.listed
    rw [none, List.append_nil] at same
    rw [← same, List.getLast?_cons_cons, same]
    exact takes.usedBefore none
  span := takes.span

/--
The loop at one block comes to another one, over blocks that are not null, in
a number of steps that leave the memory alone.
-/
structure LoopComes
    (ptr : PtrT)
    (memory : Memory)
    (first firstPrev cur prev : PtrT)
    (steps : Nat) :
    Prop where
  loop :
    ∀ fuel,
      freeFrom ptr (fuel + steps) memory first firstPrev =
        freeFrom ptr fuel memory cur prev
  visits :
    ∀ fuel,
      0 ∈ freeVisits ptr fuel memory first firstPrev ↔
        ∃ left,
          fuel = left + steps ∧
            0 ∈ freeVisits ptr left memory cur prev

/-- The loop is where it is. -/
theorem LoopComes.refl
    (ptr : PtrT)
    (memory : Memory)
    (cur prev : PtrT) :
    LoopComes ptr memory cur prev cur prev 0 :=
  ⟨fun _ => rfl, fun fuel => by simp⟩

/-- One block is passed first. -/
theorem LoopComes.pass
    {ptr cur prev : PtrT}
    {memory : Memory}
    {steps address : Nat}
    {cell : Cell}
    {rest : List Cell}
    (segment : Segment memory 0 address (cell :: rest))
    (more : rest ≠ [])
    (positive : 0 < address)
    (other : pointer address + headerSize ≠ ptr)
    (comes :
      LoopComes ptr memory (pointer (address + cell.span))
        (pointer address) cur prev steps)
    (before : PtrT) :
    LoopComes ptr memory (pointer address) before cur prev (steps + 1) := by
  have here := (segment.1.pointer_ne_zero positive).symm
  constructor
  · intro fuel
    rw [← Nat.add_assoc, freeFrom_pass segment more other]
    exact comes.loop fuel
  · intro fuel
    cases fuel with
    | zero =>
        simp [freeVisits]
    | succ fuel =>
        rw [freeVisits_pass segment more other, List.mem_cons,
          or_iff_right here, comes.visits]
        simp only [← Nat.add_assoc, Nat.add_right_cancel_iff]

/-- The loop comes to a block, to join it and its free neighbours. -/
def ReachesBlock
    (ptr : PtrT)
    (memory : Memory)
    (first firstPrev : PtrT)
    (address : Nat)
    (front : List Cell)
    (cell : Cell)
    (back : List Cell) :
    Prop :=
  ∃ steps cur prev middle kept before into,
    TakesOver front cell kept before into ∧
      LoopComes ptr memory first firstPrev cur prev steps ∧
      Joining ptr memory cur prev middle (address + totalSpan kept) into
        back ∧
      AgreeOutside (address + totalSpan kept)
        (address + totalSpan front + 12) memory middle

section Way

variable
  {memory : Memory}
  {address : Nat}
  {prev cell : Cell}
  {front back : List Cell}

/-- The loop stands at a block without a free predecessor. -/
theorem joining_alone
    {prev : PtrT}
    (segment : Segment memory 0 address (cell :: back))
    (more : back ≠ [])
    (positive : 0 < address)
    (alone :
      ¬(prev ≠ 0 ∧
        blockFree (setBlockFree memory (pointer address) true) prev =
          true)) :
    Joining (pointer (address + 12)) memory (pointer address) prev
      (setBlockFree memory (pointer address) true) address
      ⟨cell.size, true⟩ back where
  notLast := (not_congr segment.blockNext_head).mpr more
  here := pointer_add_headerSize address
  notNull := segment.1.pointer_ne_zero positive
  released := if_neg alone
  segment := (setBlockFree_segment segment).1
  free := rfl
  more := more
  positive := positive

/-- The loop stands at a block behind a free one. -/
theorem joining_joined
    (segment : Segment memory 0 address (prev :: cell :: back))
    (more : back ≠ [])
    (positive : 0 < address)
    (prevFree : prev.free = true) :
    ∃ middle,
      Joining (pointer (address + prev.span + 12)) memory
          (pointer (address + prev.span)) (pointer address) middle address
          (prev.join cell) back ∧
        AgreeOutside address (address + prev.span + 12) memory middle := by
  obtain ⟨whole, outside⟩ := setBlockFree_behind segment
  obtain ⟨joined, joinedOutside⟩ := mergeBlock_segment whole
  have here := segment.1.pointer_ne_zero positive
  have free :
      blockFree (setBlockFree memory (pointer (address + prev.span)) true)
          (pointer address) =
        true := by
    rw [whole.1.2.free]
    exact prevFree
  refine ⟨_, ⟨?_, ?_, ?_, if_pos ⟨here, free⟩, joined, prevFree, more,
    positive⟩, ?_⟩
  · exact (not_congr segment.2.blockNext_head).mpr more
  · exact pointer_add_headerSize _
  · exact segment.2.1.pointer_ne_zero
      (Nat.lt_of_lt_of_le positive (Nat.le_add_right _ _))
  · exact (outside.mono (Nat.le_add_right _ _) (Nat.le_refl _)).trans
      (joinedOutside.mono (Nat.le_refl _) (by omega))

/-- The loop behind a block comes to every later block but the last one. -/
theorem reachesBlock_behind
    (segment :
      Segment memory 0 address (prev :: (front ++ cell :: back)))
    (more : back ≠ [])
    (positive : 0 < address) :
    ReachesBlock (pointer (address + totalSpan (prev :: front) + 12))
      memory (pointer (address + prev.span)) (pointer address) address
      (prev :: front) cell back := by
  induction front generalizing address prev with
  | nil =>
      rw [totalSpan_cons, totalSpan_nil, Nat.add_zero]
      cases mark : prev.free with
      | true =>
          obtain ⟨middle, joining, outside⟩ :=
            joining_joined segment more positive mark
          exact ⟨0, _, _, middle, [], [prev], prev.join cell,
            ⟨rfl, by simpa using mark, by simp, by simp⟩,
            LoopComes.refl _ _ _ _, joining, outside⟩
      | false =>
          exact ⟨0, pointer (address + prev.span), pointer address,
            setBlockFree memory (pointer (address + prev.span)) true,
            [prev], [], ⟨cell.size, true⟩,
            ⟨rfl, by simp, by simpa using mark, by simp [Cell.span]⟩,
            LoopComes.refl _ _ _ _,
            joining_alone segment.2 more
              (Nat.lt_of_lt_of_le positive (Nat.le_add_right _ _))
              (alone_of_used segment mark),
            (setBlockFree_behind segment).2⟩
  | cons next front inductionHypothesis =>
      have behind : front ++ cell :: back ≠ [] := by simp
      have above : 0 < address + prev.span :=
        Nat.lt_of_lt_of_le positive (Nat.le_add_right _ _)
      obtain ⟨steps, cur, before, middle, kept, taken, into, takes, comes,
        joining, outside⟩ := inductionHypothesis segment.2 above
      have targetSegment :=
        ((segment_append (List.cons_ne_nil cell back)).mp
          segment.2.2).2
      have other :
          pointer (address + prev.span) + headerSize ≠
            pointer
              (address + prev.span + totalSpan (next :: front) + 12) := by
        refine pointer_add_headerSize_ne segment.2.1.address_lt ?_ ?_
        · have fits := targetSegment.targetFits more
          rwa [Nat.add_assoc (address + prev.span)] at fits
        · simp only [totalSpan_cons, Cell.span]
          omega
      rw [totalSpan_cons prev, ← Nat.add_assoc address]
      refine ⟨steps + 1, cur, before, middle, prev :: kept, taken, into,
        takes.cons prev,
        LoopComes.pass segment.2 behind above other comes _, ?_, ?_⟩
      · rw [totalSpan_cons prev kept, ← Nat.add_assoc]
        exact joining
      · rw [totalSpan_cons prev kept, totalSpan_cons prev (next :: front),
          ← Nat.add_assoc, ← Nat.add_assoc]
        exact outside

/-- The loop comes to every block but the last one. -/
theorem reachesBlock
    (segment : Segment memory 0 address (front ++ cell :: back))
    (more : back ≠ [])
    (positive : 0 < address) :
    ReachesBlock (pointer (address + totalSpan front + 12)) memory
      (pointer address) 0 address front cell back := by
  cases front with
  | nil =>
      refine ⟨0, _, _, _, [], [], ⟨cell.size, true⟩,
        ⟨rfl, by simp, by simp, by simp [Cell.span]⟩,
        LoopComes.refl _ _ _ _,
        joining_alone segment more positive (fun both => both.1 rfl),
        (setBlockFree_segment segment).2⟩
  | cons prev front =>
      obtain ⟨steps, cur, before, middle, kept, taken, into, takes, comes,
        joining, outside⟩ := reachesBlock_behind segment more positive
      have behind : front ++ cell :: back ≠ [] := by simp
      have targetSegment :=
        ((segment_append (List.cons_ne_nil cell back)).mp segment.2).2
      have other :
          pointer address + headerSize ≠
            pointer (address + totalSpan (prev :: front) + 12) := by
        refine pointer_add_headerSize_ne segment.1.address_lt ?_ ?_
        · have fits := targetSegment.targetFits more
          rwa [Nat.add_assoc address] at fits
        · rw [totalSpan_cons, Cell.span]
          omega
      exact ⟨steps + 1, cur, before, middle, kept, taken, into, takes,
        LoopComes.pass segment behind positive other comes 0, joining,
        outside⟩

end Way

/-! ## The whole function -/

/-- The pointer to the payload of the block behind `front`. -/
def Kernel.payload (kernel : Kernel) (front : List Cell) : PtrT :=
  pointer (kernel.heap.mallocHead.toNat + totalSpan front + 12)

/--
`vmm_malloc_free` of the payload of `cell` ends without dereferencing the null
pointer, and leaves a well-formed list of the same heap, in which the block
and its free neighbours have become one free block and all other used blocks
are as they were.  It writes inside the heap only.
-/
structure FreesBlock
    (kernel : Kernel)
    (front : List Cell)
    (cell : Cell)
    (back : List Cell) :
    Prop where
  noNull :
    ∀ fuel, 0 ∉ vmmMallocFreeVisits fuel kernel (kernel.payload front)
  ends :
    ∃ fuel memory later,
      vmmMallocFree fuel kernel (kernel.payload front) =
          some (kernel.withMemory memory) ∧
        WellFormedHeap (kernel.withMemory memory).heap later ∧
        AgreeOutside kernel.heap.mallocHead.toNat kernel.heap.endAddress
          kernel.heap.memory memory ∧
        FreedList front cell back later ∧
        ∀ address other,
          other.free = false →
          address ≠ kernel.heap.mallocHead.toNat + totalSpan front →
          (CellAt kernel.heap.mallocHead.toNat later address other ↔
            CellAt kernel.heap.mallocHead.toNat (front ++ cell :: back)
              address other)

section Whole

variable
  {kernel : Kernel}
  {front back : List Cell}
  {cell : Cell}

/-- A used block behind it lets a block be freed. -/
theorem WellFormedHeap.freesBlock
    (wellFormed :
      WellFormedHeap kernel.heap (front ++ cell :: back))
    (stays : ∃ other ∈ back, other.free = false) :
    FreesBlock kernel front cell back := by
  have more : back ≠ [] := by
    rintro rfl
    simp at stays
  have segment := wellFormed.segment
  have targetFits := segment.from_cell.targetFits more
  obtain ⟨steps, cur, prev, middle, kept, before, into, takes, comes,
    joining, outside⟩ := reachesBlock segment more wellFormed.head_pos
  have listed := takes.listed
  have span := takes.span
  have inside :
      kernel.heap.mallocHead.toNat + totalSpan front <
        kernel.heap.mallocHead.toNat + totalSpan kept + into.span := by
    rw [listed, span, totalSpan_append, Cell.span]
    omega
  constructor
  · intro fuel null
    rw [vmmMallocFreeVisits, ← pointer_head kernel.heap] at null
    obtain ⟨left, _, null⟩ := (comes.visits fuel).mp null
    exact joining.noNull stays targetFits inside left null
  · obtain ⟨fuel, memory, returned, joined, further⟩ :=
      joining.ends stays targetFits inside
    obtain ⟨merged, behind, same⟩ :=
      List.exists_cons_of_ne_nil (joinFree_ne_nil into back)
    obtain ⟨taken, split, free, mergedSpan, takenFree, usedBehind⟩ :=
      joinFree_split same
    have freed : FreedList front cell back (kept ++ merged :: behind) := by
      rw [listed, split]
      refine FreedList.intro (free.trans joining.free) ?_
        takes.beforeFree takenFree takes.usedBefore usedBehind
      rw [mergedSpan, span]
    have whole :
        kernel.heap.mallocHead.toNat +
            totalSpan (front ++ cell :: back) =
          kernel.heap.endAddress :=
      wellFormed.ends
    have frontSpan : totalSpan front = totalSpan kept + totalSpan before := by
      rw [listed, totalSpan_append]
    have written :
        AgreeOutside (kernel.heap.mallocHead.toNat + totalSpan kept)
          kernel.heap.endAddress kernel.heap.memory memory := by
      rw [totalSpan_append, totalSpan_cons, Cell.span] at whole
      exact (outside.mono (Nat.le_refl _) (by omega)).trans
        (further.mono (Nat.le_refl _) (by omega))
    have later :
        Segment memory 0 kernel.heap.mallocHead.toNat
          (kept ++ merged :: behind) := by
      rw [same] at joined
      rw [listed, List.append_assoc] at segment
      exact segment.replaceTail (by simp) (List.cons_ne_nil _ _) written
        joined
    refine ⟨fuel + steps, memory, kept ++ merged :: behind, ?_,
      wellFormed.withMemory (by simp) later freed.totalSpan,
      written.mono (Nat.le_add_right _ _) (Nat.le_refl _), freed,
      fun address other used different => freed.used_iff used different⟩
    rw [← comes.loop fuel, pointer_head] at returned
    rw [vmmMallocFree, Kernel.payload, returned]
    rfl

/-- The last block is never freed. -/
theorem WellFormedHeap.not_freesBlock_last
    (wellFormed : WellFormedHeap kernel.heap (front ++ [cell]))
    (used : cell.free = false) :
    ¬FreesBlock kernel front cell [] := by
  intro frees
  obtain ⟨fuel, memory, later, returned, wellFormed', _, freed, _⟩ :=
    frees.ends
  have elsewhere :
      Elsewhere (kernel.payload front) kernel.heap.mallocHead.toNat
        (front ++ [cell]) := by
    intro earlier other behind listed more
    obtain ⟨between, last, rfl⟩ :=
      (List.eq_nil_or_concat behind).resolve_left more
    rw [List.concat_eq_append, ← List.cons_append, ← List.append_assoc]
      at listed
    have segment := wellFormed.segment
    rw [(List.append_inj' listed rfl).1] at segment ⊢
    rw [List.append_assoc, List.cons_append] at segment
    have fits := segment.from_cell.targetFits (by simp)
    rw [← List.cons_append, ← List.append_assoc] at segment
    have here := segment.from_cell.1.address_lt
    have different :
        kernel.heap.mallocHead.toNat +
            totalSpan (earlier ++ other :: between) ≠
          kernel.heap.mallocHead.toNat + totalSpan earlier := by
      rw [totalSpan_append, totalSpan_cons, Cell.span]
      omega
    have apart := pointer_add_headerSize_ne here fits different
    rw [pointer_add_headerSize] at apart
    rw [Kernel.payload, pointer_add_headerSize]
    exact apart.symm
  have same : memory = kernel.heap.memory := by
    simp only [vmmMallocFree, Option.bind_eq_bind,
      Option.bind_eq_some_iff, Option.pure_def, Option.some.injEq]
      at returned
    obtain ⟨result, loop, result_eq⟩ := returned
    have memories :=
      congrArg (fun later : Kernel => later.heap.memory) result_eq
    rw [← pointer_head kernel.heap] at loop
    exact memories.symm.trans
      (freeFrom_elsewhere wellFormed.segment wellFormed.nonempty elsewhere
        loop)
  have cells :=
    wellFormed'.segment.unique wellFormed'.nonempty
      (by rw [same]; exact wellFormed.segment) wellFormed.nonempty
  rw [cells] at freed
  rw [freed.last_free] at used
  exact Bool.noConfusion used

/-- Freeing a block that only free blocks follow leads to null. -/
theorem WellFormedHeap.free_null
    (wellFormed :
      WellFormedHeap kernel.heap (front ++ cell :: back))
    (more : back ≠ [])
    (none : ¬∃ other ∈ back, other.free = false) :
    ∃ fuel, 0 ∈ vmmMallocFreeVisits fuel kernel (kernel.payload front) := by
  obtain ⟨steps, cur, prev, middle, kept, before, into, takes, comes,
    joining, _⟩ :=
    reachesBlock wellFormed.segment more wellFormed.head_pos
  obtain ⟨fuel, null⟩ := joining.exists_null none
  refine ⟨fuel + steps, ?_⟩
  rw [vmmMallocFreeVisits, ← pointer_head kernel.heap]
  exact (comes.visits (fuel + steps)).mpr ⟨fuel, rfl, null⟩

/--
Freeing a used block does what it is for exactly when another used block lies
behind it.
-/
theorem vmmMallocFree_freesBlock_iff
    (wellFormed :
      WellFormedHeap kernel.heap (front ++ cell :: back))
    (used : cell.free = false) :
    FreesBlock kernel front cell back ↔
      ∃ other ∈ back, other.free = false := by
  refine ⟨fun frees => ?_, wellFormed.freesBlock⟩
  by_contra none
  by_cases last : back = []
  · subst last
    exact wellFormed.not_freesBlock_last used frees
  · obtain ⟨fuel, null⟩ := wellFormed.free_null last none
    exact frees.noNull fuel null

end Whole

/-- A block between two free ones is freed, in front of a used one. -/
theorem vmmMallocFree_freesBlock_iff_between :
    FreesBlock
      (cellsKernel 1
        [⟨100, true⟩, ⟨100, false⟩, ⟨100, true⟩, ⟨3748, false⟩])
      [⟨100, true⟩] ⟨100, false⟩ [⟨100, true⟩, ⟨3748, false⟩] := by
  have wellFormed :=
    @wellFormedHeap_cellsKernel 1
      ([⟨100, true⟩] ++ ⟨100, false⟩ :: [⟨100, true⟩, ⟨3748, false⟩])
      (by decide) (by decide) (by decide)
  exact (vmmMallocFree_freesBlock_iff wellFormed rfl).mpr
    ⟨⟨3748, false⟩, by decide, rfl⟩

/-- Freeing the only allocation of a heap leads to the null pointer. -/
theorem vmmMallocFree_freesBlock_fails :
    ¬∀ (kernel : Kernel) (front : List Cell) (cell : Cell)
        (back : List Cell),
        WellFormedHeap kernel.heap (front ++ cell :: back) →
        cell.free = false →
        FreesBlock kernel front cell back := by
  intro claimed
  have wellFormed :=
    @wellFormedHeap_cellsKernel 1
      ([] ++ ⟨100, false⟩ :: [⟨3972, true⟩])
      (by decide) (by decide) (by decide)
  obtain ⟨fuel, null⟩ :=
    wellFormed.free_null (List.cons_ne_nil _ _) (by decide)
  exact (claimed _ _ _ _ wellFormed rfl).noNull fuel null

end HobbyOS
