import HobbyOS.Boot.MemoryMap

namespace HobbyOS

open Library GetMemoryMap

/-!
# One answer of the BIOS

The entries of non-zero length are stored one behind the other in the 512
bytes at `SMAP_entries`, and `SMAP_t` has room for 21 of them.  What the
answers so far have left behind is an invariant of the loop, as long as an
answer that gives a size comes behind at most 20 entries.
-/

/-! ## The answers of the BIOS -/

/-- Without carry, a record of 20 to 24 bytes or of none is returned. -/
def Answer.Legal (answer : Answer) : Prop :=
  answer.carry = false →
  answer.eax = pams ∧
    (answer.ecx = 0 ∨ 20 ≤ answer.ecx.toNat ∧ answer.ecx.toNat ≤ 24)

/-- An entry of non-zero length is returned. -/
def Answer.nonZero (answer : Answer) : Bool :=
  !answer.carry && answer.ecx ≠ 0 &&
    decide (¬∀ offset : Nat, offset < 8 → answer.record (8 + offset) = 0)

/-- The end is signalled with the last answer, by carry or by `ebx`. -/
def EndsLast : List Answer → Prop
  | [] => False
  | [last] => last.carry = true ∨ last.ebx = 0
  | answer :: rest =>
      answer.carry = false ∧ answer.ebx ≠ 0 ∧ EndsLast rest

/-- The answers the BIOS may give. -/
def AnswersOfBios (answers : List Answer) : Prop :=
  (∀ answer ∈ answers, answer.Legal) ∧ EndsLast answers

/-- The returned entries of non-zero length. -/
def entriesOf (answers : List Answer) : List Answer :=
  answers.filter Answer.nonZero

/-- The room for the memory map holds the entries, and no other is written. -/
structure MapCollected
    (smapEntries : BitVec 16)
    (answers : List Answer)
    (stores : Stores) :
    Prop where
  counted :
    (readHalf stores.memory smapEntries).toNat = (entriesOf answers).length
  stored :
    ∀ index entry,
      (entriesOf answers)[index]? = some entry →
      ∀ offset < entry.ecx.toNat,
        stores.memory
            (smapEntries + BitVec.ofNat 16 (2 + 24 * index + offset)) =
          entry.record offset
  inside :
    ∀ range ∈ stores.ranges,
      (range.1 - smapEntries).toNat + range.2 ≤ 512

/-- Whatever lies behind its room, the memory map is collected. -/
def CollectsMap (smapEntries : BitVec 16) (answers : List Answer) : Prop :=
  ∀ memory : LowMemory,
    (∀ offset < 512, memory (smapEntries + BitVec.ofNat 16 offset) = 0) →
    ∃ stores,
      getMemoryMap smapEntries memory answers = some stores ∧
      MapCollected smapEntries answers stores

/-- Behind 21 entries, no answer gives a size any more. -/
def Fits : Nat → List Answer → Prop
  | _, [] => True
  | stored, answer :: rest =>
      (answer.ecx.setWidth 16 = (0 : BitVec 16) ∨ stored ≤ 20) ∧
        Fits (stored + if answer.nonZero then 1 else 0) rest

/-! ## Stores in the room -/

section Room

variable
  {smapEntries : BitVec 16}
  {stores : Stores}
  {bytes : Nat → Byte}
  {position count : Nat}

/-- The distance of two places in the room. -/
theorem toNat_place_sub
    (smapEntries : BitVec 16)
    {first second : Nat}
    (firstInside : first < 512)
    (secondInside : second < 512) :
    (smapEntries + BitVec.ofNat 16 second -
        (smapEntries + BitVec.ofNat 16 first)).toNat =
      if first ≤ second then second - first
      else 2 ^ 16 + second - first := by
  split <;> bv_omega

/-- A store of no bytes. -/
theorem Stores.memory_store_zero
    (stores : Stores)
    (address : BitVec 16)
    (bytes : Nat → Byte) :
    (stores.store address bytes 0).memory = stores.memory := by
  simp [Stores.store]

/-- A store in the room, seen at a place of the room. -/
theorem Stores.store_at
    (fits : position + count ≤ 512)
    {place : Nat}
    (inside : place < 512) :
    (stores.store (smapEntries + BitVec.ofNat 16 position) bytes
        count).memory (smapEntries + BitVec.ofNat 16 place) =
      if position ≤ place ∧ place < position + count then
        bytes (place - position)
      else
        stores.memory (smapEntries + BitVec.ofNat 16 place) := by
  rcases Nat.eq_zero_or_pos count with none | some_
  · subst none
    rw [if_neg (by omega), Stores.memory_store_zero]
  · have distance :=
      toNat_place_sub smapEntries (show position < 512 by omega) inside
    simp only [Stores.store, distance]
    by_cases behind : position ≤ place
    · simp only [if_pos behind]
      by_cases within : place < position + count
      · rw [if_pos (by omega), if_pos ⟨behind, within⟩]
      · rw [if_neg (by omega), if_neg fun both => within both.2]
    · simp only [if_neg behind]
      rw [if_neg (by omega), if_neg fun both => behind both.1]

/-- A store in the room, seen from outside. -/
theorem Stores.store_outside
    (fits : position + count ≤ 512)
    {other : BitVec 16}
    (outside : 512 ≤ (other - smapEntries).toNat) :
    (stores.store (smapEntries + BitVec.ofNat 16 position) bytes
        count).memory other =
      stores.memory other := by
  refine if_neg ?_
  bv_omega

/-- A store in the room is inside of it. -/
theorem place_inside
    (smapEntries : BitVec 16)
    (fits : position + count ≤ 512) :
    (smapEntries + BitVec.ofNat 16 position - smapEntries).toNat + count ≤
      512 := by
  bv_omega

end Room

/-! ## One answer -/

/-- The length of the entry at `di` is the one at the offsets 8 to 15. -/
theorem length_eq_zero_iff (memory : LowMemory) (di : BitVec 16) :
    readDouble memory (di + 8) ||| readDouble memory (di + 12) = 0 ↔
      ∀ offset < 8, memory (di + BitVec.ofNat 16 (8 + offset)) = 0 := by
  have word (address : BitVec 16) :
      readDouble memory address = 0#32 ↔
        ∀ offset < 4, memory (address + BitVec.ofNat 16 offset) = 0 := by
    rw [readDouble, append_eq_zero_iff, append_eq_zero_iff,
      append_eq_zero_iff]
    constructor
    · rintro ⟨⟨⟨fourth, third⟩, second⟩, first⟩ offset inside
      have cases : offset = 0 ∨ offset = 1 ∨ offset = 2 ∨ offset = 3 := by
        omega
      rcases cases with rfl | rfl | rfl | rfl
      · rwa [BitVec.add_zero]
      · exact second
      · exact third
      · exact fourth
    · intro zero
      have first := zero 0 (by omega)
      rw [BitVec.add_zero] at first
      exact ⟨⟨⟨zero 3 (by omega), zero 2 (by omega)⟩, zero 1 (by omega)⟩,
        first⟩
  have place (base offset : Nat) :
      di + BitVec.ofNat 16 base + BitVec.ofNat 16 offset =
        di + BitVec.ofNat 16 (base + offset) := by
    rw [BitVec.ofNat_add, BitVec.add_assoc]
  refine BitVec.or_eq_zero_iff.trans ?_
  rw [word, word]
  constructor
  · rintro ⟨low, high⟩ offset inside
    by_cases lower : offset < 4
    · rw [← place]
      exact low offset lower
    · have upper := high (offset - 4) (by omega)
      rw [show (12 : BitVec 16) = BitVec.ofNat 16 12 from rfl, place]
        at upper
      rwa [show 8 + offset = 12 + (offset - 4) by omega]
  · intro zero
    constructor
    · intro offset inside
      rw [show (8 : BitVec 16) = BitVec.ofNat 16 8 from rfl, place]
      exact zero offset (by omega)
    · intro offset inside
      have upper := zero (offset + 4) (by omega)
      rw [show (12 : BitVec 16) = BitVec.ofNat 16 12 from rfl, place]
      rwa [show 12 + offset = 8 + (offset + 4) by omega]

/-- What the answers so far have left behind, with the entries stored. -/
structure Collecting
    (smapEntries : BitVec 16)
    (memory : LowMemory)
    (entries : List Answer)
    (stores : Stores)
    (di bp : BitVec 16) :
    Prop where
  pointer : di = smapEntries + BitVec.ofNat 16 (2 + 24 * entries.length)
  counted : bp = BitVec.ofNat 16 entries.length
  stored :
    ∀ index entry,
      entries[index]? = some entry →
      ∀ offset < entry.ecx.toNat,
        stores.memory
            (smapEntries + BitVec.ofNat 16 (2 + 24 * index + offset)) =
          entry.record offset
  sizes : ∀ entry ∈ entries, entry.ecx.toNat ≤ 24
  few : entries.length ≤ 21
  empty :
    ∀ slot,
      entries.length ≤ slot →
      slot ≤ 20 →
      ∀ offset < 8,
        stores.memory
            (smapEntries + BitVec.ofNat 16 (2 + 24 * slot + (8 + offset))) =
          0
  inside :
    ∀ range ∈ stores.ranges,
      (range.1 - smapEntries).toNat + range.2 ≤ 512
  outside :
    ∀ other,
      512 ≤ (other - smapEntries).toNat →
      stores.memory other = memory other

/-- The first call is prepared in the room. -/
theorem Collecting.first
    {smapEntries : BitVec 16}
    {memory : LowMemory}
    (zeroed :
      ∀ offset < 512, memory (smapEntries + BitVec.ofNat 16 offset) = 0) :
    Collecting smapEntries memory [] (beforeFirst smapEntries memory)
      (smapEntries + 2) 0 := by
  have place :
      smapEntries + 2 + 20 = smapEntries + BitVec.ofNat 16 22 := by
    rw [BitVec.add_assoc]
    rfl
  constructor
  · rfl
  · rfl
  · intro index entry held
    simp at held
  · simp
  · exact Nat.zero_le 21
  · intro slot _ small offset inside
    rw [beforeFirst, place, Stores.store_at (by omega) (by omega),
      if_neg (by omega)]
    exact zeroed _ (by omega)
  · intro range made
    rw [beforeFirst, place] at made
    obtain rfl := List.mem_singleton.mp made
    exact place_inside smapEntries (by omega)
  · intro other far
    rw [beforeFirst, place, Stores.store_outside (by omega) far]

/-- A size in `ecx` is seen in `cx`, too. -/
theorem Answer.Legal.cx_eq_zero_iff
    {answer : Answer}
    (legal : answer.Legal)
    (stored : answer.carry = false) :
    answer.ecx.setWidth 16 = (0 : BitVec 16) ↔ answer.ecx = 0 := by
  rcases (legal stored).2 with zero | ⟨_, small⟩
  · rw [zero]
    decide
  · constructor
    · intro cx
      bv_omega
    · intro ecx
      rw [ecx]
      rfl

/-- What it means that an entry of non-zero length is returned. -/
theorem Answer.nonZero_iff (answer : Answer) :
    answer.nonZero = true ↔
      answer.carry = false ∧
        answer.ecx ≠ 0 ∧
        ¬∀ offset : Nat, offset < 8 → answer.record (8 + offset) = 0 := by
  simp [nonZero, and_assoc]

/-- With carry no entry is returned. -/
theorem Answer.not_nonZero_of_carry
    {answer : Answer}
    (carried : answer.carry = true) :
    ¬answer.nonZero = true := by
  rw [answer.nonZero_iff, carried]
  rintro ⟨impossible, _⟩
  exact Bool.noConfusion impossible

namespace Collecting

variable
  {smapEntries : BitVec 16}
  {memory : LowMemory}
  {entries : List Answer}
  {stores : Stores}
  {di bp : BitVec 16}

/-- The bytes behind `di` are those of a slot. -/
theorem di_add
    (collecting :
      Collecting smapEntries memory entries stores di bp)
    (offset : Nat) :
    di + BitVec.ofNat 16 offset =
      smapEntries +
        BitVec.ofNat 16 (2 + 24 * entries.length + offset) := by
  rw [collecting.pointer, BitVec.add_assoc, ← BitVec.ofNat_add]

/-- Without a record, the length in the slot is still 0. -/
theorem start_unanswered
    (collecting :
      Collecting smapEntries memory entries stores di bp)
    (answer : Answer)
    (fits :
      answer.ecx.setWidth 16 = (0 : BitVec 16) ∨ entries.length ≤ 20) :
    start stores.memory answer di bp = (di, bp) := by
  rw [start]
  split
  · rfl
  · rename_i some_
    rw [if_pos]
    rw [length_eq_zero_iff]
    intro offset inside
    rw [collecting.di_add]
    exact
      collecting.empty entries.length (Nat.le_refl _)
        (fits.resolve_left some_) offset inside

/-- One more store in the room. -/
theorem inside_store
    (collecting :
      Collecting smapEntries memory entries stores di bp)
    {position count : Nat}
    (fits : position + count ≤ 512)
    (bytes : Nat → Byte) :
    ∀ range ∈
        (stores.store (smapEntries + BitVec.ofNat 16 position) bytes
          count).ranges,
      (range.1 - smapEntries).toNat + range.2 ≤ 512 := by
  intro range made
  rcases List.mem_append.mp made with earlier | now
  · exact collecting.inside range earlier
  · obtain rfl := List.mem_singleton.mp now
    exact place_inside smapEntries fits

/-- The record of an answer is stored in the next slot. -/
theorem record
    (collecting :
      Collecting smapEntries memory entries stores di bp)
    {answer : Answer}
    (size : answer.ecx.toNat ≤ 24)
    (room : entries.length ≤ 20) :
    let stores' := stores.store di answer.record answer.ecx.toNat
    (∀ offset < answer.ecx.toNat,
        stores'.memory (di + BitVec.ofNat 16 offset) =
          answer.record offset) ∧
      (∀ position < 2 + 24 * entries.length,
        stores'.memory (smapEntries + BitVec.ofNat 16 position) =
          stores.memory (smapEntries + BitVec.ofNat 16 position)) ∧
      (∀ slot,
        entries.length < slot →
        slot ≤ 20 →
        ∀ offset < 8,
          stores'.memory
              (smapEntries +
                BitVec.ofNat 16 (2 + 24 * slot + (8 + offset))) =
            0) ∧
      (∀ range ∈ stores'.ranges,
        (range.1 - smapEntries).toNat + range.2 ≤ 512) ∧
      ∀ other,
        512 ≤ (other - smapEntries).toNat →
        stores'.memory other = memory other := by
  have place := collecting.pointer
  refine ⟨?_, ?_, ?_, ?_, ?_⟩
  · intro offset inside
    rw [collecting.di_add, place,
      Stores.store_at (by omega) (by omega), if_pos (by omega)]
    congr 1
    omega
  · intro position before
    rw [place, Stores.store_at (by omega) (by omega), if_neg (by omega)]
  · intro slot later small offset inside
    rw [place, Stores.store_at (by omega) (by omega), if_neg (by omega)]
    exact collecting.empty slot (Nat.le_of_lt later) small offset inside
  · rw [place]
    exact collecting.inside_store (by omega) _
  · intro other far
    rw [place, Stores.store_outside (by omega) far]
    exact collecting.outside other far

/-- An answer without a size changes nothing. -/
theorem answer_empty
    (collecting :
      Collecting smapEntries memory entries stores di bp)
    (record : Nat → Byte) :
    Collecting smapEntries memory entries (stores.store di record 0)
      di bp := by
  have same := stores.memory_store_zero di record
  have few := collecting.few
  refine ⟨collecting.pointer, collecting.counted, ?_, collecting.sizes,
    few, ?_, ?_, ?_⟩
  · rw [same]
    exact collecting.stored
  · rw [same]
    exact collecting.empty
  · rw [collecting.pointer]
    exact collecting.inside_store (by omega) _
  · rw [same]
    exact collecting.outside

/-- An entry of length 0 stays in the slot. -/
theorem answer_zero
    (collecting :
      Collecting smapEntries memory entries stores di bp)
    {answer : Answer}
    (atLeast : 20 ≤ answer.ecx.toNat)
    (size : answer.ecx.toNat ≤ 24)
    (room : entries.length ≤ 20)
    (zero : ∀ offset < 8, answer.record (8 + offset) = 0) :
    Collecting smapEntries memory entries
      (stores.store di answer.record answer.ecx.toNat) di bp := by
  obtain ⟨here, before, behind, inside, outside⟩ :=
    collecting.record size room
  refine ⟨collecting.pointer, collecting.counted, ?_, collecting.sizes,
    collecting.few, ?_, inside, outside⟩
  · intro index entry held offset within
    have early := (List.getElem?_eq_some_iff.mp held).1
    have small := collecting.sizes entry (List.mem_of_getElem? held)
    rw [before _ (by omega)]
    exact collecting.stored index entry held offset within
  · intro slot atOrBehind last offset within
    rcases Nat.lt_or_eq_of_le atOrBehind with later | this
    · exact behind slot later last offset within
    · have byte := here (8 + offset) (by omega)
      rw [collecting.di_add, this, zero offset within] at byte
      exact byte

/-- An entry of non-zero length is taken. -/
theorem answer_nonZero
    (collecting :
      Collecting smapEntries memory entries stores di bp)
    {answer : Answer}
    (size : answer.ecx.toNat ≤ 24)
    (room : entries.length ≤ 20) :
    Collecting smapEntries memory (entries ++ [answer])
      (stores.store di answer.record answer.ecx.toNat) (di + 24)
      (bp + 1) := by
  obtain ⟨here, before, behind, inside, outside⟩ :=
    collecting.record size room
  have length : (entries ++ [answer]).length = entries.length + 1 :=
    List.length_append
  refine ⟨?_, ?_, ?_, ?_, by omega, ?_, inside, outside⟩
  · have next := collecting.di_add 24
    rw [length, Nat.mul_succ, ← Nat.add_assoc]
    exact next
  · rw [length, collecting.counted, BitVec.ofNat_add]
    rfl
  · intro index entry held offset within
    rcases Nat.lt_trichotomy index entries.length with early | last | late
    · rw [List.getElem?_append_left early] at held
      have small := collecting.sizes entry (List.mem_of_getElem? held)
      rw [before _ (by omega)]
      exact collecting.stored index entry held offset within
    · subst last
      rw [List.getElem?_concat_length] at held
      obtain rfl := Option.some.inj held
      have byte := here offset within
      rwa [collecting.di_add] at byte
    · have inRange := (List.getElem?_eq_some_iff.mp held).1
      omega
  · intro entry member
    rcases List.mem_append.mp member with earlier | now
    · exact collecting.sizes entry earlier
    · rw [List.mem_singleton.mp now]
      exact size
  · intro slot atOrBehind last offset within
    exact behind slot (by omega) last offset within

/-- One answer that fits. -/
theorem answer
    (collecting :
      Collecting smapEntries memory entries stores di bp)
    {answer : Answer}
    (legal : answer.Legal)
    (fits :
      answer.ecx.setWidth 16 = (0 : BitVec 16) ∨ entries.length ≤ 20) :
    Collecting smapEntries memory
      (entries ++ if answer.nonZero then [answer] else [])
      (int15 stores di answer)
      (start (int15 stores di answer).memory answer di bp).1
      (start (int15 stores di answer).memory answer di bp).2 := by
  have nonZero := answer.nonZero_iff
  cases carried : answer.carry with
  | true =>
      have unstored : int15 stores di answer = stores := if_pos carried
      rw [unstored, collecting.start_unanswered answer fits,
        if_neg (Answer.not_nonZero_of_carry carried), List.append_nil]
      exact collecting
  | false =>
      have stored :
          int15 stores di answer =
            stores.store di answer.record answer.ecx.toNat :=
        if_neg (by rw [carried]; exact Bool.noConfusion)
      have cx := legal.cx_eq_zero_iff carried
      rw [cx] at fits
      rw [stored, start, if_congr cx rfl rfl]
      by_cases empty : answer.ecx = 0
      · have none : ¬answer.nonZero = true := by
          rw [nonZero]
          rintro ⟨_, some_, _⟩
          exact some_ empty
        rw [if_pos empty, if_neg none, List.append_nil, empty]
        exact collecting.answer_empty answer.record
      · obtain ⟨atLeast, size⟩ := (legal carried).2.resolve_left empty
        have room := fits.resolve_left empty
        obtain ⟨here, _⟩ := collecting.record size room
        have length :
            readDouble
                  (stores.store di answer.record answer.ecx.toNat).memory
                  (di + 8) |||
                readDouble
                  (stores.store di answer.record answer.ecx.toNat).memory
                  (di + 12) =
              0 ↔
            ∀ offset < 8, answer.record (8 + offset) = 0 := by
          rw [length_eq_zero_iff]
          refine forall_congr' fun offset => forall_congr' fun within => ?_
          rw [here _ (by omega)]
        rw [if_neg empty, if_congr length rfl rfl]
        by_cases zero : ∀ offset : Nat, offset < 8 →
            answer.record (8 + offset) = 0
        · have none : ¬answer.nonZero = true := by
            rw [nonZero]
            rintro ⟨_, _, some_⟩
            exact some_ zero
          rw [if_pos zero, if_neg none, List.append_nil]
          exact collecting.answer_zero atLeast size room zero
        · have some_ : answer.nonZero = true :=
            nonZero.mpr ⟨carried, empty, zero⟩
          rw [if_neg zero, if_pos some_]
          exact collecting.answer_nonZero size room

/-- The number of the entries is stored in the room. -/
theorem done_eq
    (smapEntries : BitVec 16)
    (stores : Stores)
    (bp : BitVec 16) :
    GetMemoryMap.done smapEntries stores bp =
      stores.store (smapEntries + BitVec.ofNat 16 0)
        (fun offset => bp.extractLsb' (8 * offset) 8) 2 := by
  rw [BitVec.add_zero]
  rfl

/-- The number of the entries is read back. -/
theorem readHalf_done
    (smapEntries : BitVec 16)
    (stores : Stores)
    (bp : BitVec 16) :
    readHalf (GetMemoryMap.done smapEntries stores bp).memory smapEntries =
      bp := by
  have byte (place : Nat) (inside : place < 2) :
      (GetMemoryMap.done smapEntries stores bp).memory
          (smapEntries + BitVec.ofNat 16 place) =
        bp.extractLsb' (8 * place) 8 := by
    rw [done_eq, Stores.store_at (by omega) (by omega),
      if_pos (by omega)]
    rfl
  have low := byte 0 (by omega)
  have high := byte 1 (by omega)
  rw [BitVec.add_zero] at low
  rw [readHalf, low]
  refine Eq.trans ?_ (extractLsb'_append_halves bp)
  exact congrArg (· ++ bp.extractLsb' 0 8) high

/-- The map is collected when the loop ends with its entries. -/
theorem done
    {answers : List Answer}
    (collecting :
      Collecting smapEntries memory (entriesOf answers) stores di bp) :
    MapCollected smapEntries answers
      (GetMemoryMap.done smapEntries stores bp) := by
  have few := collecting.few
  constructor
  · rw [readHalf_done, collecting.counted, BitVec.toNat_ofNat,
      Nat.mod_eq_of_lt (by omega)]
  · intro index entry held offset within
    have early := (List.getElem?_eq_some_iff.mp held).1
    have small := collecting.sizes entry (List.mem_of_getElem? held)
    rw [done_eq, Stores.store_at (by omega) (by omega),
      if_neg (by omega)]
    exact collecting.stored index entry held offset within
  · rw [done_eq]
    exact collecting.inside_store (by omega) _

end Collecting

end HobbyOS
