import HobbyOS.Heap.Block

namespace HobbyOS

open Library

/-!
# Block lists that tile a range

The heap is meant to be cut into cells without gaps: a header of twelve
bytes, then the payload, then the next header.  A segment is a part of the
block list that is laid out like this.  It reads the headers of its cells
only, so it survives every write outside of its range.
-/

/-- A block of the heap as a tile: the size of its payload, and its mark. -/
structure Cell where
  size : Nat
  free : Bool
  deriving DecidableEq

/-- The bytes of a cell, header included. -/
def Cell.span (cell : Cell) : Nat :=
  12 + cell.size

/-- The bytes of a list of cells. -/
def totalSpan : List Cell → Nat
  | [] => 0
  | cell :: rest => cell.span + totalSpan rest

@[simp] theorem totalSpan_nil : totalSpan [] = 0 :=
  rfl

@[simp] theorem totalSpan_cons (cell : Cell) (rest : List Cell) :
    totalSpan (cell :: rest) = cell.span + totalSpan rest :=
  rfl

@[simp] theorem totalSpan_append (front back : List Cell) :
    totalSpan (front ++ back) = totalSpan front + totalSpan back := by
  induction front with
  | nil =>
      simp
  | cons cell rest inductionHypothesis =>
      simp [inductionHypothesis, Nat.add_assoc]

/-- A cell lies at an address of a list of cells that starts at `start`. -/
def CellAt : Nat → List Cell → Nat → Cell → Prop
  | _, [], _, _ => False
  | start, first :: rest, address, cell =>
      (address = start ∧ cell = first) ∨
        CellAt (start + first.span) rest address cell

/-- The cells of a concatenation. -/
theorem cellAt_append
    {start address : Nat}
    {front back : List Cell}
    {cell : Cell} :
    CellAt start (front ++ back) address cell ↔
      CellAt start front address cell ∨
        CellAt (start + totalSpan front) back address cell := by
  induction front generalizing start with
  | nil =>
      simp [CellAt]
  | cons first rest inductionHypothesis =>
      simp only [List.cons_append, CellAt, inductionHypothesis,
        totalSpan_cons, Nat.add_assoc, or_assoc]

/-- A cell lies inside the range of its list. -/
theorem CellAt.inside
    {start address : Nat}
    {cells : List Cell}
    {cell : Cell}
    (located : CellAt start cells address cell) :
    start ≤ address ∧
      address + cell.span ≤ start + totalSpan cells := by
  induction cells generalizing start with
  | nil =>
      exact located.elim
  | cons first rest inductionHypothesis =>
      rcases located with ⟨rfl, rfl⟩ | later
      · simp only [totalSpan_cons]
        omega
      · have inside := inductionHypothesis later
        simp only [totalSpan_cons]
        omega

/-- Cells of one list are equal or apart. -/
theorem CellAt.apart
    {start first second : Nat}
    {cells : List Cell}
    {cell other : Cell}
    (firstAt : CellAt start cells first cell)
    (secondAt : CellAt start cells second other) :
    (first = second ∧ cell = other) ∨
      first + cell.span ≤ second ∨ second + other.span ≤ first := by
  induction cells generalizing start with
  | nil =>
      exact firstAt.elim
  | cons head rest inductionHypothesis =>
      rcases firstAt with ⟨rfl, rfl⟩ | firstLater
      · rcases secondAt with ⟨rfl, rfl⟩ | secondLater
        · exact Or.inl ⟨rfl, rfl⟩
        · exact Or.inr (Or.inl secondLater.inside.1)
      · rcases secondAt with ⟨rfl, rfl⟩ | secondLater
        · exact Or.inr (Or.inr firstLater.inside.1)
        · exact inductionHypothesis firstLater secondLater

/-- The pointer to an address, as a number. -/
def pointer (address : Nat) : PtrT :=
  BitVec.ofNat 32 address

/-- Addresses of the 32-bit space. -/
theorem toNat_pointer
    {address : Nat}
    (small : address < 2 ^ 32) :
    (pointer address).toNat = address :=
  Nat.mod_eq_of_lt small

/-- A header at an address that describes a cell. -/
def CellHeader
    (memory : Memory)
    (address : Nat)
    (cell : Cell)
    (next : PtrT) :
    Prop :=
  address + cell.span ≤ 2 ^ 32 ∧
    Header memory (pointer address) (BitVec.ofNat 32 cell.size)
      cell.free next

/--
The cells are laid out one after the other from an address on, each linked
to the next, and the last one to `final`.
-/
def Segment (memory : Memory) (final : PtrT) : Nat → List Cell → Prop
  | _, [] => True
  | address, cell :: rest =>
      CellHeader memory address cell
          (if rest = [] then final else pointer (address + cell.span)) ∧
        Segment memory final (address + cell.span) rest

/-- A cell header survives writes outside of its cell. -/
theorem CellHeader.congr
    {memory later : Memory}
    {address : Nat}
    {cell : Cell}
    {next : PtrT}
    (header : CellHeader memory address cell next)
    (agree : AgreeOn address (address + cell.span) memory later) :
    CellHeader later address cell next := by
  have fits := header.1
  unfold Cell.span at fits agree
  have position : (pointer address).toNat = address :=
    toNat_pointer (by omega)
  refine ⟨header.1, header.2.congr ?_⟩
  rw [position]
  exact agree.mono (Nat.le_refl _) (by omega)

/-- A segment survives writes outside of its range. -/
theorem Segment.congr
    {memory later : Memory}
    {final : PtrT}
    {address : Nat}
    {cells : List Cell}
    (segment : Segment memory final address cells)
    (agree :
      AgreeOn address (address + totalSpan cells) memory later) :
    Segment later final address cells := by
  induction cells generalizing address with
  | nil =>
      trivial
  | cons cell rest inductionHypothesis =>
      rw [totalSpan_cons] at agree
      exact
        ⟨segment.1.congr (agree.mono (Nat.le_refl _) (by omega)),
          inductionHypothesis segment.2
            (agree.mono (by omega) (by omega))⟩

/-- A segment that is continued by another one. -/
theorem segment_append
    {memory : Memory}
    {final : PtrT}
    {address : Nat}
    {front back : List Cell}
    (continued : back ≠ []) :
    Segment memory final address (front ++ back) ↔
      Segment memory (pointer (address + totalSpan front)) address front ∧
        Segment memory final (address + totalSpan front) back := by
  induction front generalizing address with
  | nil =>
      simp [Segment]
  | cons cell rest inductionHypothesis =>
      have nonempty : rest ++ back ≠ [] := by simp [continued]
      rw [List.cons_append, Segment, Segment, inductionHypothesis,
        if_neg nonempty, totalSpan_cons, Nat.add_assoc]
      by_cases last : rest = []
      · subst last
        simp [Segment]
      · rw [if_neg last]
        exact and_assoc.symm

end HobbyOS
