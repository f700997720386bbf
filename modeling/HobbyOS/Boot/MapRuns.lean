import HobbyOS.Boot.MapCollection

namespace HobbyOS

open Library GetMemoryMap

/-!
# Which memory maps are collected

The loop does not stop at the end of the room for the memory map, takes a
first answer that is also the last one for an error, and looks at the carry
flag only after the first call.  The memory maps of all other sequences of
answers are collected.
-/

/-! ## Runs of the loop -/

/-- The entries of the first answer come first. -/
theorem entriesOf_cons (answer : Answer) (rest : List Answer) :
    entriesOf (answer :: rest) =
      (if answer.nonZero then [answer] else []) ++ entriesOf rest := by
  rw [entriesOf, List.filter_cons]
  split
  · rfl
  · rfl

/-- An answer adds at most one entry. -/
theorem length_append_answer (entries : List Answer) (answer : Answer) :
    (entries ++ if answer.nonZero then [answer] else []).length =
      entries.length + if answer.nonZero then 1 else 0 := by
  rw [List.length_append]
  split
  · rfl
  · rfl

/-- Only the last answer signals the end. -/
theorem EndsLast.rest_eq_nil
    {answer : Answer}
    {rest : List Answer}
    (ends : EndsLast (answer :: rest))
    (last : answer.carry = true ∨ answer.ebx = 0) :
    rest = [] := by
  cases rest with
  | nil =>
      rfl
  | cons next rest =>
      obtain ⟨stored, continues, _⟩ := ends
      rcases last with carried | zero
      · rw [stored] at carried
        exact Bool.noConfusion carried
      · exact (continues zero).elim

/-- The answers behind one that does not signal the end. -/
theorem EndsLast.tail
    {answer : Answer}
    {rest : List Answer}
    (ends : EndsLast (answer :: rest))
    (goesOn : ¬(answer.carry = true ∨ answer.ebx = 0)) :
    EndsLast rest := by
  cases rest with
  | nil =>
      exact (goesOn ends).elim
  | cons next rest =>
      exact ends.2.2

/-- The loop ends with an answer that has `ebx` 0. -/
theorem nextEntry_last
    (smapEntries : BitVec 16)
    {answer : Answer}
    (last : answer.ebx = 0)
    (rest : List Answer)
    (stores : Stores)
    (di bp : BitVec 16) :
    nextEntry smapEntries (answer :: rest) stores di bp =
      some
        (done smapEntries (int15 stores di answer)
          (start (int15 stores di answer).memory answer di bp).2) :=
  if_pos last

/-- The loop goes on behind any other answer. -/
theorem nextEntry_next
    (smapEntries : BitVec 16)
    {answer : Answer}
    (goesOn : answer.ebx ≠ 0)
    (rest : List Answer)
    (stores : Stores)
    (di bp : BitVec 16) :
    nextEntry smapEntries (answer :: rest) stores di bp =
      nextEntry smapEntries rest (int15 stores di answer)
        (start (int15 stores di answer).memory answer di bp).1
        (start (int15 stores di answer).memory answer di bp).2 :=
  if_neg goesOn

/-- If the last answer has carry and `ebx`, no answer has `ebx` 0. -/
theorem EndsLast.goesOn
    {answers : List Answer}
    (ends : EndsLast answers)
    {last : Answer}
    (member : last ∈ answers)
    (carried : last.carry = true)
    (some_ : last.ebx ≠ 0) :
    ∀ answer ∈ answers, answer.ebx ≠ 0 := by
  induction answers with
  | nil =>
      exact ends.elim
  | cons answer rest inductionHypothesis =>
      rw [List.forall_mem_cons]
      by_cases here : answer.carry = true ∨ answer.ebx = 0
      · obtain rfl := ends.rest_eq_nil here
        rw [List.mem_singleton.mp member] at some_
        exact ⟨some_, by simp⟩
      · refine ⟨fun zero => here (Or.inr zero), ?_⟩
        rcases List.mem_cons.mp member with this | later
        · rw [this] at carried
          exact (here (Or.inl carried)).elim
        · exact inductionHypothesis (ends.tail here) later

section Runs

variable
  {smapEntries : BitVec 16}
  {memory : LowMemory}
  {entries answers : List Answer}
  {stores : Stores}
  {di bp : BitVec 16}

/-- The loop collects the entries of answers that fit. -/
theorem nextEntry_collects
    (collecting : Collecting smapEntries memory entries stores di bp)
    (legal : ∀ answer ∈ answers, answer.Legal)
    (ends : EndsLast answers)
    (fits : Fits entries.length answers)
    (quiet : ∀ answer ∈ answers, answer.carry = true → answer.ebx = 0) :
    ∃ stores' di' bp',
      nextEntry smapEntries answers stores di bp =
        some (done smapEntries stores' bp') ∧
      Collecting smapEntries memory (entries ++ entriesOf answers) stores'
        di' bp' := by
  induction answers generalizing entries stores di bp with
  | nil =>
      exact ends.elim
  | cons answer rest inductionHypothesis =>
      rw [List.forall_mem_cons] at legal quiet
      obtain ⟨fitsHere, fitsRest⟩ := fits
      have after := collecting.answer legal.1 fitsHere
      rw [entriesOf_cons, ← List.append_assoc]
      by_cases last : answer.ebx = 0
      · obtain rfl := ends.rest_eq_nil (Or.inr last)
        have none : entriesOf [] = [] := rfl
        rw [none, List.append_nil]
        exact ⟨_, _, _, nextEntry_last smapEntries last _ _ _ _, after⟩
      · have goesOn : ¬(answer.carry = true ∨ answer.ebx = 0) := by
          rintro (carried | zero)
          · exact last (quiet.1 carried)
          · exact last zero
        rw [← length_append_answer] at fitsRest
        obtain ⟨stores', di', bp', ended, collected⟩ :=
          inductionHypothesis after legal.2 (ends.tail goesOn) fitsRest
            quiet.2
        refine ⟨stores', di', bp', ?_, collected⟩
        rw [nextEntry_next smapEntries last, ended]

/-- The loop does not end while `ebx` is not 0. -/
theorem nextEntry_endless
    (goesOn : ∀ answer ∈ answers, answer.ebx ≠ 0) :
    nextEntry smapEntries answers stores di bp = none := by
  induction answers generalizing stores di bp with
  | nil =>
      rfl
  | cons answer rest inductionHypothesis =>
      rw [List.forall_mem_cons] at goesOn
      rw [nextEntry_next smapEntries goesOn.1]
      exact inductionHypothesis goesOn.2

/-- Stores are not taken back. -/
theorem nextEntry_ranges
    {final : Stores}
    (ended : nextEntry smapEntries answers stores di bp = some final)
    {range : BitVec 16 × Nat}
    (made : range ∈ stores.ranges) :
    range ∈ final.ranges := by
  induction answers generalizing stores di bp with
  | nil =>
      simp [nextEntry] at ended
  | cons answer rest inductionHypothesis =>
      have kept : range ∈ (int15 stores di answer).ranges := by
        rw [int15]
        split
        · exact made
        · exact List.mem_append_left _ made
      by_cases last : answer.ebx = 0
      · rw [nextEntry_last smapEntries last, Option.some.injEq] at ended
        rw [← ended]
        exact List.mem_append_left _ kept
      · rw [nextEntry_next smapEntries last] at ended
        exact inductionHypothesis ended kept

/--
Answers that do not fit are stored outside of the room, or counted by what
lies behind it.
-/
theorem nextEntry_overruns
    (filled :
      ∀ other, 512 ≤ (other - smapEntries).toNat → memory other ≠ 0)
    (collecting : Collecting smapEntries memory entries stores di bp)
    (legal : ∀ answer ∈ answers, answer.Legal)
    (ends : EndsLast answers)
    (overfull : ¬Fits entries.length answers)
    {final : Stores}
    (ended : nextEntry smapEntries answers stores di bp = some final) :
    (∃ range ∈ final.ranges,
        512 < (range.1 - smapEntries).toNat + range.2) ∨
      readHalf final.memory smapEntries ≠
        BitVec.ofNat 16 (entries ++ entriesOf answers).length := by
  induction answers generalizing entries stores di bp with
  | nil =>
      exact (overfull trivial).elim
  | cons answer rest inductionHypothesis =>
      rw [List.forall_mem_cons] at legal
      by_cases fits :
          answer.ecx.setWidth 16 = (0 : BitVec 16) ∨ entries.length ≤ 20
      · have after := collecting.answer legal.1 fits
        have restOverfull :
            ¬Fits
              (entries ++ if answer.nonZero then [answer] else []).length
              rest := by
          rw [length_append_answer]
          exact fun fitsRest => overfull ⟨fits, fitsRest⟩
        have goesOn : ¬(answer.carry = true ∨ answer.ebx = 0) := by
          intro last
          rw [ends.rest_eq_nil last] at restOverfull
          exact restOverfull trivial
        rw [not_or] at goesOn
        rw [nextEntry_next smapEntries goesOn.2] at ended
        rw [entriesOf_cons, ← List.append_assoc]
        exact
          inductionHypothesis after legal.2
            (ends.tail (not_or.mpr goesOn)) restOverfull ended
      · rw [not_or] at fits
        have full : entries.length = 21 := by
          have few := collecting.few
          omega
        cases carried : answer.carry with
        | false =>
            -- The record goes to the slot behind the last one.
            left
            have large :=
              ((legal.1 carried).2.resolve_left fun zero =>
                fits.1 ((legal.1.cx_eq_zero_iff carried).mpr zero)).1
            have made :
                (di, answer.ecx.toNat) ∈
                  (int15 stores di answer).ranges := by
              rw [int15, carried]
              exact List.mem_append_right _ (List.mem_singleton_self _)
            refine ⟨(di, answer.ecx.toNat), ?_, ?_⟩
            · by_cases last : answer.ebx = 0
              · rw [nextEntry_last smapEntries last,
                  Option.some.injEq] at ended
                rw [← ended]
                exact List.mem_append_left _ made
              · rw [nextEntry_next smapEntries last] at ended
                exact nextEntry_ranges ended made
            · rw [collecting.pointer, full]
              bv_omega
        | true =>
            -- The length that is looked at lies outside of the room.
            right
            obtain rfl := ends.rest_eq_nil (Or.inl carried)
            have unstored : int15 stores di answer = stores :=
              if_pos carried
            have last : answer.ebx = 0 := by
              by_contra goesOn
              rw [nextEntry_next smapEntries goesOn] at ended
              simp [nextEntry] at ended
            have behind :
                ¬(readDouble stores.memory (di + 8) |||
                    readDouble stores.memory (di + 12) =
                  0) := by
              rw [length_eq_zero_iff]
              intro zero
              have byte := zero 0 (by omega)
              have far :
                  512 ≤
                    (di + BitVec.ofNat 16 (8 + 0) - smapEntries).toNat := by
                rw [collecting.pointer, full]
                bv_omega
              rw [collecting.outside _ far] at byte
              exact filled _ far byte
            have unlisted : entriesOf [answer] = [] := by
              rw [entriesOf_cons,
                if_neg (Answer.not_nonZero_of_carry carried)]
              rfl
            rw [nextEntry_last smapEntries last, unstored,
              Option.some.injEq] at ended
            rw [← ended, Collecting.readHalf_done, start, if_neg fits.1,
              if_neg behind, unlisted, List.append_nil, full,
              collecting.counted, full]
            show BitVec.ofNat 16 21 + 1 ≠ BitVec.ofNat 16 21
            decide

end Runs

/-! ## `get_memory_map` -/

section MemoryMaps

variable
  {smapEntries : BitVec 16}
  {memory : LowMemory}

/-- A first answer that signals the end is taken for an error. -/
theorem getMemoryMap_first
    {answer : Answer}
    (last : answer.carry = true ∨ answer.ebx = 0)
    (rest : List Answer) :
    getMemoryMap smapEntries memory (answer :: rest) =
      some
        (done smapEntries
          (int15 (beforeFirst smapEntries memory) (smapEntries + 2) answer)
          0) := by
  rw [getMemoryMap]
  split
  · rfl
  · rename_i stored
    split
    · rfl
    · exact if_pos (last.resolve_left stored)

/-- Otherwise the first answer is taken like the others. -/
theorem getMemoryMap_loop
    {answer : Answer}
    (legal : answer.Legal)
    (goesOn : ¬(answer.carry = true ∨ answer.ebx = 0))
    (rest : List Answer) :
    getMemoryMap smapEntries memory (answer :: rest) =
      nextEntry smapEntries (answer :: rest)
        (beforeFirst smapEntries memory) (smapEntries + 2) 0 := by
  rw [not_or, Bool.not_eq_true] at goesOn
  obtain ⟨stored, continues⟩ := goesOn
  have carried : ¬answer.carry = true := by
    rw [stored]
    exact Bool.noConfusion
  rw [getMemoryMap, if_neg carried, if_neg (not_not.mpr (legal stored).1),
    if_neg continues]
  rfl

end MemoryMaps

/-- The answers whose memory map is collected. -/
structure Handled (answers : List Answer) : Prop where
  fits : Fits 0 answers
  quiet : ∀ answer ∈ answers.tail, answer.carry = true → answer.ebx = 0
  several : ∀ answer, answers = [answer] → answer.nonZero = false

section Claims

variable
  {smapEntries : BitVec 16}
  {answers : List Answer}

/-- The memory maps of these answers are collected. -/
theorem collectsMap_of_handled
    (bios : AnswersOfBios answers)
    (handled : Handled answers) :
    CollectsMap smapEntries answers := by
  intro memory zeroed
  obtain ⟨legal, ends⟩ := bios
  have first := Collecting.first zeroed
  cases answers with
  | nil =>
      exact ends.elim
  | cons answer rest =>
      by_cases last : answer.carry = true ∨ answer.ebx = 0
      · obtain rfl := ends.rest_eq_nil last
        have none : ¬answer.nonZero = true := by
          rw [handled.several answer rfl]
          exact Bool.noConfusion
        have after :=
          first.answer (legal answer (List.mem_singleton_self answer))
            (Or.inr (Nat.zero_le 20))
        rw [if_neg none] at after
        have bp := after.counted
        have unlisted : entriesOf [answer] = [] ++ [] := by
          rw [entriesOf_cons, if_neg none]
          rfl
        rw [bp, ← unlisted] at after
        have collected := after.done
        rw [unlisted] at collected
        exact ⟨_, getMemoryMap_first last [], collected⟩
      · have quiet :
            ∀ other ∈ answer :: rest,
              other.carry = true → other.ebx = 0 := by
          rw [List.forall_mem_cons]
          exact ⟨fun carried => (last (Or.inl carried)).elim,
            handled.quiet⟩
        obtain ⟨stores, di, bp, ended, collected⟩ :=
          nextEntry_collects first legal ends handled.fits quiet
        rw [List.nil_append] at collected
        refine ⟨_, ?_, collected.done⟩
        rw [getMemoryMap_loop (legal answer List.mem_cons_self) last]
        exact ended

/-- A memory that is 0 in the room for the map only. -/
def zeroedRoom (smapEntries : BitVec 16) : LowMemory :=
  fun other => if (other - smapEntries).toNat < 512 then 0 else 1

/-- The room is 0. -/
theorem zeroedRoom_inside
    (smapEntries : BitVec 16)
    {offset : Nat}
    (inside : offset < 512) :
    zeroedRoom smapEntries (smapEntries + BitVec.ofNat 16 offset) = 0 := by
  refine if_pos ?_
  bv_omega

/-- What `get_memory_map` leaves behind in such a memory. -/
theorem CollectsMap.zeroedRoom
    (collects : CollectsMap smapEntries answers) :
    ∃ stores,
      getMemoryMap smapEntries (zeroedRoom smapEntries) answers =
        some stores ∧
      MapCollected smapEntries answers stores :=
  collects _ fun _ => zeroedRoom_inside smapEntries

/-- Answers that do not fit are not collected. -/
theorem fits_of_collectsMap
    (bios : AnswersOfBios answers)
    (collects : CollectsMap smapEntries answers) :
    Fits 0 answers := by
  obtain ⟨legal, ends⟩ := bios
  by_contra overfull
  cases answers with
  | nil =>
      exact overfull trivial
  | cons answer rest =>
      by_cases last : answer.carry = true ∨ answer.ebx = 0
      · rw [ends.rest_eq_nil last] at overfull
        exact overfull ⟨Or.inr (Nat.zero_le 20), trivial⟩
      · obtain ⟨stores, ended, collected⟩ := collects.zeroedRoom
        rw [getMemoryMap_loop (legal answer List.mem_cons_self) last]
          at ended
        have first :=
          Collecting.first fun _ => zeroedRoom_inside smapEntries
        have filled (other : BitVec 16)
            (far : 512 ≤ (other - smapEntries).toNat) :
            HobbyOS.zeroedRoom smapEntries other ≠ 0 := by
          rw [HobbyOS.zeroedRoom, if_neg (Nat.not_lt_of_le far)]
          decide
        rcases nextEntry_overruns filled first legal ends overfull ended
          with ⟨range, made, outside⟩ | miscounted
        · exact Nat.not_lt_of_le (collected.inside range made) outside
        · apply miscounted
          apply BitVec.eq_of_toNat_eq
          have counted := collected.counted
          have small := (readHalf stores.memory smapEntries).isLt
          rw [List.nil_append, BitVec.toNat_ofNat, counted,
            Nat.mod_eq_of_lt (by omega)]

/-- A carry that comes later without `ebx` 0 does not end the loop. -/
theorem quiet_of_collectsMap
    (bios : AnswersOfBios answers)
    (collects : CollectsMap smapEntries answers) :
    ∀ answer ∈ answers.tail, answer.carry = true → answer.ebx = 0 := by
  obtain ⟨legal, ends⟩ := bios
  intro late member carried
  by_contra goesOn
  cases answers with
  | nil =>
      exact ends
  | cons answer rest =>
      have notLast : ¬(answer.carry = true ∨ answer.ebx = 0) := by
        intro last
        rw [ends.rest_eq_nil last] at member
        simp at member
      obtain ⟨stores, ended, _⟩ := collects.zeroedRoom
      rw [getMemoryMap_loop (legal answer List.mem_cons_self) notLast,
        nextEntry_endless] at ended
      · simp at ended
      · rw [List.forall_mem_cons]
        exact ⟨fun zero => notLast (Or.inr zero),
          (ends.tail notLast).goesOn member carried goesOn⟩

/-- A single entry of non-zero length is not collected. -/
theorem several_of_collectsMap
    (bios : AnswersOfBios answers)
    (collects : CollectsMap smapEntries answers) :
    ∀ answer, answers = [answer] → answer.nonZero = false := by
  rintro answer rfl
  by_contra some_
  rw [Bool.not_eq_false] at some_
  obtain ⟨stores, ended, collected⟩ := collects.zeroedRoom
  have counted := collected.counted
  rw [getMemoryMap_first bios.2, Option.some.injEq] at ended
  rw [← ended, Collecting.readHalf_done, entriesOf_cons, if_pos some_]
    at counted
  exact Nat.zero_ne_one counted

/-- The memory map is collected exactly for the answers that are handled. -/
theorem getMemoryMap_collects_iff
    (bios : AnswersOfBios answers) :
    CollectsMap smapEntries answers ↔ Handled answers := by
  constructor
  · intro collects
    exact
      { fits := fits_of_collectsMap bios collects
        quiet := quiet_of_collectsMap bios collects
        several := several_of_collectsMap bios collects }
  · exact collectsMap_of_handled bios

end Claims

/-! ## Two entries, and 22 entries -/

/-- An entry of 20 bytes and non-zero length, with the next continuation. -/
def fullEntry (ebx : BitVec 32) : Answer where
  carry := false
  eax := pams
  ebx := ebx
  ecx := 20
  record := fun _ => 1

/-- Entries with one that signals the end. -/
theorem endsLast_replicate (count : Nat) :
    EndsLast (List.replicate count (fullEntry 1) ++ [fullEntry 0]) := by
  induction count with
  | zero =>
      exact Or.inr rfl
  | succ count inductionHypothesis =>
      rw [List.replicate_succ, List.cons_append]
      cases rest :
          List.replicate count (fullEntry 1) ++ [fullEntry 0] with
      | nil =>
          simp at rest
      | cons next others =>
          rw [rest] at inductionHypothesis
          exact ⟨rfl, by decide, inductionHypothesis⟩

/-- These are answers the BIOS may give. -/
theorem answersOfBios_replicate (count : Nat) :
    AnswersOfBios
      (List.replicate count (fullEntry 1) ++ [fullEntry 0]) := by
  have legal (ebx : BitVec 32) : (fullEntry ebx).Legal := fun _ =>
    ⟨rfl, Or.inr ⟨by show 20 ≤ 20; omega, by show 20 ≤ 24; omega⟩⟩
  refine ⟨?_, endsLast_replicate count⟩
  intro answer member
  rcases List.mem_append.mp member with early | last
  · rw [List.eq_of_mem_replicate early]
    exact legal 1
  · rw [List.mem_singleton.mp last]
    exact legal 0

/-- No more than 21 entries fit. -/
theorem not_fits_replicate
    {stored count : Nat}
    (many : 20 < stored + count) :
    ¬Fits stored
      (List.replicate count (fullEntry 1) ++ [fullEntry 0]) := by
  have size : ¬(20 : BitVec 32).setWidth 16 = (0 : BitVec 16) := by
    decide
  induction count generalizing stored with
  | zero =>
      rintro ⟨empty | small, _⟩
      · exact size empty
      · omega
  | succ count inductionHypothesis =>
      rw [List.replicate_succ, List.cons_append]
      rintro ⟨_, rest⟩
      refine inductionHypothesis ?_ rest
      have some_ : (fullEntry 1).nonZero = true := by decide
      rw [if_pos some_]
      omega

/-- Two entries of non-zero length are collected. -/
theorem getMemoryMap_collects_iff_two :
    CollectsMap 0x8800 [fullEntry 1, fullEntry 0] :=
  (getMemoryMap_collects_iff (answersOfBios_replicate 1)).mpr
    { fits := by
        refine ⟨Or.inr (by omega), Or.inr ?_, trivial⟩
        decide
      quiet := by
        intro answer member _
        rw [List.mem_singleton.mp member]
        rfl
      several := by
        intro answer single
        simp at single }

/-- The 22nd entry goes behind the room for the memory map. -/
theorem getMemoryMap_collects_fails :
    ¬∀ (smapEntries : BitVec 16)
        (answers : List Answer),
      AnswersOfBios answers →
      CollectsMap smapEntries answers := by
  intro collects
  have bios := answersOfBios_replicate 21
  exact not_fits_replicate (show 20 < 0 + 21 by omega)
    (fits_of_collectsMap bios (collects 0x8800 _ bios))

end HobbyOS
