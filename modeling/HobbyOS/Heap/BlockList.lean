import HobbyOS.Heap.Malloc
import HobbyOS.Heap.Segment

namespace HobbyOS

open Library

/-!
# Block list operations on cells

The search stops at a cell of the list, `vmm_malloc_split` cuts a cell in
two, and the merging loops join a cell with the free cells behind it.  Every
operation writes inside the range of the cells it works on.
-/

/-! ## Reading headers -/

namespace CellHeader

variable
  {memory : Memory}
  {address : Nat}
  {cell : Cell}
  {next : PtrT}

/-- The payload size of a cell is a 32-bit number. -/
theorem size_lt
    (header : CellHeader memory address cell next) :
    cell.size < 2 ^ 32 := by
  have fits := header.1
  unfold Cell.span at fits
  omega

/-- The address of a cell is a 32-bit number. -/
theorem address_lt
    (header : CellHeader memory address cell next) :
    address + 12 ≤ 2 ^ 32 := by
  have fits := header.1
  unfold Cell.span at fits
  omega

/-- The pointer to a cell has the cell's address. -/
theorem toNat_pointer
    (header : CellHeader memory address cell next) :
    (pointer address).toNat = address := by
  have bound := header.address_lt
  exact HobbyOS.toNat_pointer (by omega)

/-- The size field. -/
theorem toNat_blockSize
    (header : CellHeader memory address cell next) :
    (blockSize memory (pointer address)).toNat = cell.size := by
  rw [header.2.size, BitVec.toNat_ofNat,
    Nat.mod_eq_of_lt header.size_lt]

end CellHeader

/-- Pointer arithmetic. -/
theorem pointer_add (address offset : Nat) :
    pointer address + BitVec.ofNat 32 offset =
      pointer (address + offset) :=
  (BitVec.ofNat_add address offset).symm

/-- The pointer behind a header. -/
theorem pointer_add_headerSize (address : Nat) :
    pointer address + headerSize = pointer (address + 12) :=
  pointer_add address 12

/-- Pointers to positive addresses are not null. -/
theorem pointer_ne_zero
    {address : Nat}
    (positive : 0 < address)
    (small : address < 2 ^ 32) :
    pointer address ≠ 0 := by
  intro null
  have value := toNat_pointer small
  rw [null] at value
  have zero : 0 = address := value
  omega

/-- The link of a cell is null exactly at the end of the list. -/
theorem Segment.blockNext_head
    {memory : Memory}
    {address : Nat}
    {cell : Cell}
    {rest : List Cell}
    (segment : Segment memory 0 address (cell :: rest)) :
    blockNext memory (pointer address) = 0 ↔ rest = [] := by
  rw [segment.1.2.next]
  split
  · rename_i last
    exact iff_of_true rfl last
  · rename_i more
    cases rest with
    | nil =>
        exact (more rfl).elim
    | cons next rest =>
        have bound := segment.2.1.address_lt
        refine iff_of_false (pointer_ne_zero ?_ (by omega)) more
        unfold Cell.span
        omega

/-- The cells of a list are determined by the memory. -/
theorem Segment.unique
    {memory : Memory}
    {address : Nat}
    {cells others : List Cell}
    (segment : Segment memory 0 address cells)
    (nonempty : cells ≠ [])
    (other : Segment memory 0 address others)
    (otherNonempty : others ≠ []) :
    cells = others := by
  induction cells generalizing address others with
  | nil =>
      exact (nonempty rfl).elim
  | cons cell rest inductionHypothesis =>
      obtain ⟨otherCell, otherRest, rfl⟩ :=
        List.exists_cons_of_ne_nil otherNonempty
      have same : cell = otherCell := by
        have size := segment.1.toNat_blockSize
        rw [other.1.toNat_blockSize] at size
        have free := segment.1.2.free
        rw [other.1.2.free] at free
        cases cell
        cases otherCell
        simp only [Cell.mk.injEq]
        exact ⟨size.symm, free.symm⟩
      subst same
      have ends := segment.blockNext_head.symm.trans other.blockNext_head
      by_cases last : rest = []
      · rw [last, ends.mp last]
      · rw [inductionHypothesis segment.2 last other.2
          (mt ends.mpr last)]

/-! ## The search -/

/-- The search for `size` bytes passes `front` and stops at `cell`. -/
structure Stops
    (size : Nat)
    (front : List Cell)
    (cell : Cell)
    (back : List Cell) :
    Prop where
  passed :
    ∀ earlier ∈ front, earlier.size < size ∨ earlier.free = false
  stopped : back = [] ∨ (size ≤ cell.size ∧ cell.free = true)

/-- A search that ends has stopped at a cell of the list. -/
theorem searchBlock_stops
    {memory : Memory}
    {size : SizeT}
    {fuel : Nat}
    {cur : PtrT}
    {cells : List Cell}
    {address : Nat}
    (segment : Segment memory 0 address cells)
    (nonempty : cells ≠ [])
    (found :
      searchBlock memory size fuel (pointer address) = some cur) :
    ∃ front cell back,
      cells = front ++ cell :: back ∧
        cur = pointer (address + totalSpan front) ∧
        Stops size.toNat front cell back := by
  induction cells generalizing address fuel with
  | nil =>
      exact (nonempty rfl).elim
  | cons cell rest inductionHypothesis =>
      cases fuel with
      | zero =>
          simp [searchBlock] at found
      | succ fuel =>
          have header := segment.1
          have sizeValue := header.toNat_blockSize
          have last := segment.blockNext_head
          rw [searchBlock] at found
          split at found
          · rename_i passes
            have more : rest ≠ [] :=
              fun none => passes.2 (last.mpr none)
            rw [header.2.next, if_neg more] at found
            obtain ⟨front, stop, back, rfl, position, stops⟩ :=
              inductionHypothesis segment.2 more found
            refine ⟨cell :: front, stop, back, rfl, ?_, ?_, stops.stopped⟩
            · rw [position, totalSpan_cons, Nat.add_assoc]
            · intro earlier member
              rcases List.mem_cons.mp member with rfl | member
              · rcases passes.1 with small | used
                · left
                  rw [← sizeValue]
                  exact small
                · right
                  rw [← header.2.free]
                  exact used
              · exact stops.passed earlier member
          · rename_i stops
            refine ⟨[], cell, rest, rfl, ?_, by simp, ?_⟩
            · exact (Option.some.inj found).symm
            · by_cases more : rest = []
              · exact Or.inl more
              · right
                rw [not_and', not_or] at stops
                have fits := stops fun null => more (last.mp null)
                refine ⟨?_, ?_⟩
                · rw [← sizeValue]
                  exact Nat.le_of_not_lt fits.1
                · rw [← header.2.free]
                  simpa using fits.2

/-- Behind used cells only, the search stops at the last cell. -/
theorem Stops.behindUsed
    {size : Nat}
    {front : List Cell}
    {cell : Cell}
    (used : ∀ earlier ∈ front, earlier.free = false) :
    Stops size front cell [] :=
  ⟨fun earlier member => Or.inr (used earlier member), Or.inl rfl⟩

/-- The search stops at the same cell if it starts one cell later. -/
theorem Stops.tail
    {size : Nat}
    {first cell : Cell}
    {front back : List Cell}
    (stops : Stops size (first :: front) cell back) :
    Stops size front cell back :=
  ⟨fun earlier member =>
      stops.passed earlier (List.mem_cons_of_mem _ member),
    stops.stopped⟩

/-- A search with a round for every cell of the front stops at the cell. -/
theorem searchBlock_of_stops
    {memory : Memory}
    {size : SizeT}
    {fuel address : Nat}
    {front back : List Cell}
    {cell : Cell}
    (segment : Segment memory 0 address (front ++ cell :: back))
    (stops : Stops size.toNat front cell back)
    (fueled : front.length < fuel) :
    searchBlock memory size fuel (pointer address) =
      some (pointer (address + totalSpan front)) := by
  induction front generalizing address fuel with
  | nil =>
      obtain ⟨fuel, rfl⟩ := Nat.exists_eq_add_one_of_ne_zero fueled.ne'
      rw [searchBlock]
      refine if_neg ?_
      rintro ⟨passes, linked⟩
      rcases stops.stopped with none | ⟨fits, free⟩
      · exact linked (segment.blockNext_head.mpr none)
      · rcases passes with small | used
        · rw [BitVec.lt_def, segment.1.toNat_blockSize] at small
          omega
        · rw [segment.1.2.free, free] at used
          exact Bool.noConfusion used
  | cons first rest inductionHypothesis =>
      obtain ⟨fuel, rfl⟩ :=
        Nat.exists_eq_add_one_of_ne_zero (Nat.ne_zero_of_lt fueled)
      have more : rest ++ cell :: back ≠ [] := by simp
      rw [List.cons_append] at segment
      have linked :
          blockNext memory (pointer address) =
            pointer (address + first.span) := by
        rw [segment.1.2.next, if_neg more]
      have passed :
          blockSize memory (pointer address) < size ∨
            blockFree memory (pointer address) = false := by
        rw [BitVec.lt_def, segment.1.toNat_blockSize, segment.1.2.free]
        exact stops.passed first List.mem_cons_self
      have later :=
        inductionHypothesis segment.2 stops.tail
          (Nat.lt_of_succ_lt_succ fueled)
      rw [searchBlock,
        if_pos ⟨passed, fun null => more (segment.blockNext_head.mp null)⟩,
        linked, later, totalSpan_cons, Nat.add_assoc]

/-- A cell that is passed is not one where the search stops. -/
theorem Stops.not_passed
    {size : Nat}
    {front back : List Cell}
    {cell : Cell}
    (stops : Stops size front cell back)
    (more : back ≠ []) :
    ¬(cell.size < size ∨ cell.free = false) := by
  obtain ⟨fits, free⟩ := stops.stopped.resolve_left more
  rw [free, or_iff_left (Bool.noConfusion), Nat.not_lt]
  exact fits

/-- The search of a list stops at one cell only. -/
theorem Stops.unique
    {size : Nat}
    {front others back later : List Cell}
    {cell other : Cell}
    (stops : Stops size front cell back)
    (otherStops : Stops size others other later)
    (same : front ++ cell :: back = others ++ other :: later) :
    front = others ∧ cell = other ∧ back = later := by
  induction front generalizing others with
  | nil =>
      cases others with
      | nil =>
          rw [List.nil_append, List.nil_append, List.cons.injEq] at same
          exact ⟨rfl, same⟩
      | cons first rest =>
          rw [List.nil_append, List.cons_append, List.cons.injEq] at same
          obtain ⟨rfl, rfl⟩ := same
          exact (stops.not_passed (by simp)
            (otherStops.passed _ List.mem_cons_self)).elim
  | cons first rest inductionHypothesis =>
      cases others with
      | nil =>
          rw [List.nil_append, List.cons_append, List.cons.injEq] at same
          obtain ⟨rfl, rfl⟩ := same
          exact (otherStops.not_passed (by simp)
            (stops.passed _ List.mem_cons_self)).elim
      | cons otherFirst otherRest =>
          rw [List.cons_append, List.cons_append, List.cons.injEq] at same
          obtain ⟨rfl, same⟩ := same
          have tails :=
            inductionHypothesis stops.tail otherStops.tail same
          exact ⟨by rw [tails.1], tails.2⟩

/-! ## Splitting -/

/-- The headers that `vmm_malloc_split` leaves, at apart addresses. -/
theorem vmmMallocSplit_headers
    {memory : Memory}
    {before after next : PtrT}
    {size oldSize : SizeT}
    {free : Bool}
    (header : Header memory before oldSize free next)
    (position : before + headerSize + size = after)
    (apart : before.toNat + 12 ≤ after.toNat)
    (room : after.toNat + 12 ≤ 2 ^ 32) :
    let later := vmmMallocSplit memory before size
    Header later before size false after ∧
      Header later after (oldSize - size - headerSize) true next ∧
      AgreeOutside before.toNat (after.toNat + 12) memory later := by
  intro later
  have beforeRoom := header.room
  -- The three writes to the new header, which leave the old one alone.
  obtain ⟨sized, sizedSame⟩ :
      ∃ sized,
        sized =
          setBlockSize memory after (oldSize - size - headerSize) :=
    ⟨_, rfl⟩
  obtain ⟨freed, freedSame⟩ :
      ∃ freed, freed = setBlockFree sized after true :=
    ⟨_, rfl⟩
  obtain ⟨linked, linkedSame⟩ :
      ∃ linked, linked = setBlockNext freed after next :=
    ⟨_, rfl⟩
  have untilFreed :
      AgreeOutside after.toNat (after.toNat + 12) memory freed := by
    rw [freedSame, sizedSame]
    exact (setBlockSize_agreeOutside _ _ room).trans
      (setBlockFree_agreeOutside _ _ room)
  have freedBefore : Header freed before oldSize free next :=
    header.congr (untilFreed.agreeOn (Or.inl apart))
  have linkedAfter :
      Header linked after (oldSize - size - headerSize) true next ∧
        AgreeOutside after.toNat (after.toNat + 12) memory linked := by
    rw [linkedSame, freedSame, sizedSame]
    exact Header.written memory _ true next room
  -- The three writes to the old header, which leave the new one alone.
  have laterSame :
      later =
        setBlockNext
          (setBlockFree (setBlockSize linked before size) before false)
          before after := by
    show vmmMallocSplit memory before size = _
    simp only [vmmMallocSplit, position, header.size, ← sizedSame,
      ← freedSame, freedBefore.next, ← linkedSame]
  have laterBefore :
      Header later before size false after ∧
        AgreeOutside before.toNat (before.toNat + 12) linked later := by
    rw [laterSame]
    exact Header.written linked size false after beforeRoom
  refine ⟨laterBefore.1, ?_, ?_⟩
  · exact linkedAfter.1.congr (laterBefore.2.agreeOn (Or.inr apart))
  · exact (linkedAfter.2.mono (by omega) (Nat.le_refl _)).trans
      (laterBefore.2.mono (Nat.le_refl _) (by omega))

/-- `vmm_malloc_split` cuts a cell that is large enough in two. -/
theorem vmmMallocSplit_cells
    {memory : Memory}
    {address : Nat}
    {cell : Cell}
    {next : PtrT}
    (header : CellHeader memory address cell next)
    {size : SizeT}
    (enough : size.toNat + 12 ≤ cell.size) :
    let later := vmmMallocSplit memory (pointer address) size
    CellHeader later address ⟨size.toNat, false⟩
        (pointer (address + 12 + size.toNat)) ∧
      CellHeader later (address + 12 + size.toNat)
        ⟨cell.size - size.toNat - 12, true⟩ next ∧
      AgreeOutside address (address + cell.span) memory later := by
  intro later
  have fits := header.1
  have cellSize := header.size_lt
  unfold Cell.span at fits ⊢
  have position := header.toNat_pointer
  have room := header.2.room
  have afterPosition :
      (pointer (address + 12 + size.toNat)).toNat =
        address + 12 + size.toNat :=
    toNat_pointer (by omega)
  have afterRoom :
      (pointer (address + 12 + size.toNat)).toNat + 12 ≤ 2 ^ 32 := by
    omega
  have afterPointer :
      pointer address + headerSize + size =
        pointer (address + 12 + size.toNat) := by
    rw [pointer_add_headerSize, ← pointer_add (address + 12),
      BitVec.ofNat_toNat, BitVec.setWidth_eq]
  have afterSize :
      BitVec.ofNat 32 cell.size - size - headerSize =
        BitVec.ofNat 32 (cell.size - size.toNat - 12) := by
    apply BitVec.eq_of_toNat_eq
    have twelve : headerSize.toNat = 12 := rfl
    have value : (BitVec.ofNat 32 cell.size).toNat = cell.size :=
      Nat.mod_eq_of_lt cellSize
    have rest :
        (BitVec.ofNat 32 (cell.size - size.toNat - 12)).toNat =
          cell.size - size.toNat - 12 :=
      Nat.mod_eq_of_lt (by omega)
    rw [rest, BitVec.toNat_sub_of_le, BitVec.toNat_sub_of_le, value,
      twelve]
    · rw [BitVec.le_def, value]
      omega
    · rw [BitVec.le_def, BitVec.toNat_sub_of_le, value, twelve]
      · omega
      · rw [BitVec.le_def, value]
        omega
  have headers :=
    vmmMallocSplit_headers header.2 afterPointer (by omega) afterRoom
  rw [position, afterPosition, afterSize] at headers
  obtain ⟨beforeHeader, afterHeader, outside⟩ := headers
  refine ⟨⟨?_, ?_⟩, ⟨?_, afterHeader⟩, outside.mono (Nat.le_refl _) ?_⟩
  · unfold Cell.span
    dsimp only
    omega
  · rw [BitVec.ofNat_toNat, BitVec.setWidth_eq]
    exact beforeHeader
  · unfold Cell.span
    dsimp only
    omega
  · omega

/-! ## Joining cells -/

/-- A cell that has taken over the bytes of the next one. -/
def Cell.join (cell next : Cell) : Cell where
  size := cell.size + next.span
  free := cell.free

/-- Joining cells adds their bytes. -/
@[simp] theorem Cell.span_join (cell next : Cell) :
    (cell.join next).span = cell.span + next.span := by
  simp only [Cell.span, Cell.join]
  omega

/-- A block takes over the bytes of the block behind it. -/
theorem mergeBlock_cells
    {memory : Memory}
    {address : Nat}
    {cell second : Cell}
    {link next : PtrT}
    (header : CellHeader memory address cell link)
    (secondHeader : CellHeader memory (address + cell.span) second next) :
    let later :=
      mergeBlock memory (pointer address) (pointer (address + cell.span))
    CellHeader later address (cell.join second) next ∧
      AgreeOutside address (address + 12) memory later := by
  intro later
  have fits := secondHeader.1
  have position := header.toNat_pointer
  have secondPosition := secondHeader.toNat_pointer
  have room := header.2.room
  have sum :
      BitVec.ofNat 32 cell.size +
          (BitVec.ofNat 32 second.size + headerSize) =
        BitVec.ofNat 32 (cell.join second).size := by
    have twelve : headerSize = BitVec.ofNat 32 12 := rfl
    rw [twelve, ← BitVec.ofNat_add, ← BitVec.ofNat_add, Cell.join,
      Cell.span, Nat.add_comm 12]
  obtain ⟨sized, sizedSame⟩ :
      ∃ sized,
        sized =
          setBlockSize memory (pointer address)
            (BitVec.ofNat 32 (cell.join second).size) :=
    ⟨_, rfl⟩
  have untilSized :
      AgreeOutside address (address + 12) memory sized := by
    have outside :=
      setBlockSize_agreeOutside memory
        (BitVec.ofNat 32 (cell.join second).size) room
    rwa [position, ← sizedSame] at outside
  have secondSized : CellHeader sized (address + cell.span) second next := by
    refine secondHeader.congr (untilSized.agreeOn (Or.inr ?_))
    unfold Cell.span
    omega
  have laterSame :
      later = setBlockNext sized (pointer address) next := by
    show mergeBlock memory (pointer address) _ = _
    simp only [mergeBlock, header.2.size, secondHeader.2.size, sum,
      ← sizedSame, secondSized.2.next]
  constructor
  · refine ⟨by rw [Cell.span_join]; omega, ?_⟩
    rw [laterSame, sizedSame]
    exact (header.2.setSize _).setNext next
  · have outside := setBlockNext_agreeOutside sized next room
    rw [position, ← laterSame] at outside
    exact untilSized.trans outside

/-- A cell joins the free cells behind it. -/
def joinFree (cell : Cell) : List Cell → List Cell
  | [] => [cell]
  | next :: rest =>
      if next.free then joinFree (cell.join next) rest
      else cell :: next :: rest

/-- Joining free cells leaves at least one cell. -/
theorem joinFree_ne_nil
    (cell : Cell)
    (rest : List Cell) :
    joinFree cell rest ≠ [] := by
  induction rest generalizing cell with
  | nil =>
      simp [joinFree]
  | cons next rest inductionHypothesis =>
      rw [joinFree]
      split
      · exact inductionHypothesis (cell.join next)
      · simp

/-- Joining a cell changes the header of that cell only. -/
theorem mergeBlock_segment
    {memory : Memory}
    {address : Nat}
    {cell next : Cell}
    {rest : List Cell}
    (segment : Segment memory 0 address (cell :: next :: rest)) :
    let later :=
      mergeBlock memory (pointer address) (pointer (address + cell.span))
    Segment later 0 address (cell.join next :: rest) ∧
      AgreeOutside address (address + 12) memory later := by
  intro later
  obtain ⟨joined, outside⟩ :=
    mergeBlock_cells segment.1 segment.2.1
  refine ⟨⟨?_, ?_⟩, outside⟩
  · rw [Cell.span_join, ← Nat.add_assoc]
    exact joined
  · rw [Cell.span_join, ← Nat.add_assoc]
    refine segment.2.2.congr (outside.agreeOn (Or.inr ?_))
    unfold Cell.span
    omega

/--
One iteration of the merging loop: it stops in front of a used cell, or joins
a free one and stops if that was the last.
-/
theorem mergeFree_step
    {memory later : Memory}
    {fuel : Nat}
    {address : Nat}
    {cell next : Cell}
    {rest : List Cell}
    (segment : Segment memory 0 address (cell :: next :: rest))
    (merged :
      mergeFree memory (pointer address) fuel = some later) :
    (next.free = false ∧ later = memory) ∨
      (next.free = true ∧
        ∃ joined,
          Segment joined 0 address (cell.join next :: rest) ∧
            AgreeOutside address (address + 12) memory joined ∧
            ((rest = [] ∧ later = joined) ∨
              (rest ≠ [] ∧
                ∃ fuel,
                  mergeFree joined (pointer address) fuel =
                    some later))) := by
  cases fuel with
  | zero =>
      simp [mergeFree] at merged
  | succ fuel =>
      have link := segment.1.2.next
      simp only [List.cons_ne_nil, ↓reduceIte] at link
      rw [mergeFree, link, segment.2.1.2.free] at merged
      cases mark : next.free with
      | false =>
          simp only [mark, Bool.false_eq_true, ↓reduceIte,
            Option.some.injEq] at merged
          exact Or.inl ⟨rfl, merged.symm⟩
      | true =>
          obtain ⟨joined, outside⟩ := mergeBlock_segment segment
          refine Or.inr ⟨rfl, _, joined, outside, ?_⟩
          simp only [mark, ↓reduceIte] at merged
          by_cases last : rest = []
          · rw [if_pos (joined.blockNext_head.mpr last)] at merged
            exact Or.inl ⟨last, (Option.some.inj merged).symm⟩
          · rw [if_neg ((not_congr joined.blockNext_head).mpr last)]
              at merged
            exact Or.inr ⟨last, fuel, merged⟩

/-- The merging loop joins a cell with the free cells behind it. -/
theorem mergeFree_segment
    {memory later : Memory}
    {fuel : Nat}
    {address : Nat}
    {cell next : Cell}
    {rest : List Cell}
    (segment : Segment memory 0 address (cell :: next :: rest))
    (merged :
      mergeFree memory (pointer address) fuel = some later) :
    Segment later 0 address (joinFree cell (next :: rest)) ∧
      AgreeOutside address (address + 12) memory later := by
  induction rest generalizing memory fuel cell next with
  | nil =>
      rcases mergeFree_step segment merged with
        ⟨used, rfl⟩ | ⟨free, joined, joinedSegment, outside, final⟩
      · simp only [joinFree, used, Bool.false_eq_true, ↓reduceIte]
        exact ⟨segment, AgreeOutside.refl _ _ _⟩
      · rcases final with ⟨_, rfl⟩ | ⟨more, _⟩
        · simp only [joinFree, free, ↓reduceIte]
          exact ⟨joinedSegment, outside⟩
        · exact (more rfl).elim
  | cons third rest inductionHypothesis =>
      rcases mergeFree_step segment merged with
        ⟨used, rfl⟩ | ⟨free, joined, joinedSegment, outside, final⟩
      · simp only [joinFree, used, Bool.false_eq_true, ↓reduceIte]
        exact ⟨segment, AgreeOutside.refl _ _ _⟩
      · rcases final with ⟨last, _⟩ | ⟨_, fuel, continued⟩
        · exact (List.cons_ne_nil _ _ last).elim
        · obtain ⟨further, furtherOutside⟩ :=
            inductionHypothesis joinedSegment continued
          rw [joinFree, if_pos free]
          exact ⟨further, outside.trans furtherOutside⟩

/-- A cell joins a prefix of free cells, up to the next used one. -/
theorem joinFree_eq
    (cell : Cell)
    (rest : List Cell) :
    ∃ joined taken kept,
      joinFree cell rest = joined :: kept ∧
        rest = taken ++ kept ∧
        joined.free = cell.free ∧
        joined.span = cell.span + totalSpan taken ∧
        ∀ absorbed ∈ taken, absorbed.free = true := by
  induction rest generalizing cell with
  | nil =>
      exact ⟨cell, [], [], rfl, rfl, rfl, by simp, by simp⟩
  | cons next rest inductionHypothesis =>
      rw [joinFree]
      split
      · rename_i free
        obtain ⟨joined, taken, kept, same, rfl, mark, span, absorbed⟩ :=
          inductionHypothesis (cell.join next)
        refine ⟨joined, next :: taken, kept, same, rfl, mark, ?_, ?_⟩
        · rw [span, Cell.span_join, totalSpan_cons, Nat.add_assoc]
        · intro other member
          rcases List.mem_cons.mp member with rfl | member
          · exact free
          · exact absorbed other member
      · exact ⟨cell, [], next :: rest, rfl, rfl, rfl, by simp, by simp⟩

end HobbyOS
