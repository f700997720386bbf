import HobbyOS.Boot.FindMode
import HobbyOS.Library.LinearSearch

namespace HobbyOS

open Library FindMode

/-!
# The selected video mode

The loop visits the listed modes up to the first wanted one.  At each of them
the height is divided by 9, and the quotient has to fit in a byte.  So the loop
selects the first wanted mode exactly if no height in front of it is 2304 or
more.
-/

/-- Modes at an offset of a segment, with 0xFFFF behind the last one. -/
def ModeList (word : BitVec 16 → BitVec 16) :
    BitVec 16 → List (BitVec 16) → Prop
  | offset, [] => word offset = 0xFFFF
  | offset, mode :: modes =>
      word offset = mode ∧
        mode ≠ 0xFFFF ∧ ModeList word (offset + 2) modes

/-- The information that the loop gets for a mode. -/
def modeInfo (int10 : ModeAnswers) (mode : BitVec 16) : ModeInfoBlock :=
  (int10 (mode ||| 0x4000)).2

/-- The BIOS knows all listed modes. -/
def Answered (int10 : ModeAnswers) (modes : List (BitVec 16)) : Prop :=
  ∀ mode ∈ modes, (int10 (mode ||| 0x4000)).1 = 0x4F

/-- The wanted mode, if one is listed. -/
def firstWanted
    (int10 : ModeAnswers)
    (modes : List (BitVec 16)) :
    Option (BitVec 16) :=
  modes.find? fun mode => Wanted (modeInfo int10 mode)

/-- The modes in front of the first wanted one. -/
def inFront
    (int10 : ModeAnswers)
    (modes : List (BitVec 16)) :
    List (BitVec 16) :=
  modes.takeWhile fun mode => !decide (Wanted (modeInfo int10 mode))

/-- A height whose ninth does not fit in a byte. -/
def TooHigh (block : ModeInfoBlock) : Prop :=
  2304 ≤ block.yResolution.toNat

instance (block : ModeInfoBlock) : Decidable (TooHigh block) :=
  inferInstanceAs (Decidable (_ ≤ _))

/-- The exit for a mode that was found, or none. -/
def exitFor : Option (BitVec 16) → ModeExit
  | none => .endOfModes
  | some mode => .loadKernel mode

/-- The exit of a search whose visits may fail. -/
def exitOf : Option (Option (BitVec 16)) → ModeExit
  | none => .divideError
  | some found => exitFor found

/-- A wanted mode is not too high. -/
theorem not_tooHigh_of_wanted
    {block : ModeInfoBlock}
    (wanted : Wanted block) :
    ¬TooHigh block := by
  rw [TooHigh, wanted.2.1]
  decide

/-- A mode passes the filter unless it is too high. -/
theorem filterResolution_cases (block : ModeInfoBlock) (cpu : Cpu) :
    if TooHigh block then
      filterResolution block cpu = none
    else
      ∃ next, filterResolution block cpu = some next := by
  have passes := filterResolution_isSome_iff block cpu
  split
  · rename_i high
    rw [← Option.not_isSome_iff_eq_none, passes]
    exact Nat.not_lt.mpr high
  · rename_i low
    exact Option.isSome_iff_exists.mp (passes.mpr (Nat.lt_of_not_le low))

section Runs

variable
  {word : BitVec 16 → BitVec 16 → BitVec 16}
  {int10 : ModeAnswers}
  {segment offset : BitVec 16}
  {search : ModeSearch}

/-- One step at a listed mode. -/
theorem body_cases
    (before : Before segment offset search)
    (listed : word segment offset ≠ 0xFFFF)
    (answered : (int10 (word segment offset ||| 0x4000)).1 = 0x4F) :
    if TooHigh (modeInfo int10 (word segment offset)) then
      body word int10 search = .error .divideError
    else if Wanted (modeInfo int10 (word segment offset)) then
      body word int10 search = .error (.loadKernel (word segment offset))
    else
      ∃ next,
        body word int10 search = .ok next ∧
          Before segment (offset + 2) next := by
  obtain ⟨asked, saved, behind, mode, info, stepped⟩ :=
    body_listed before listed answered
  have filtered := filterResolution_cases asked.modeInfoBlock asked.cpu
  rw [modeInfo, stepped, ← info]
  split
  · rename_i high
    rw [if_pos high] at filtered
    rw [filtered]
  · rename_i low
    rw [if_neg low] at filtered
    obtain ⟨cpu, filtered⟩ := filtered
    rw [filtered]
    dsimp only
    split
    · rename_i wanted
      rw [← mode]
      exact notResolution_of_wanted wanted
    · rename_i other
      rw [← behind]
      exact notResolution_of_not_wanted saved other

/-- The loop visits the listed modes up to the first wanted one. -/
theorem loop_eq_findVisiting
    {modes : List (BitVec 16)}
    (list : ModeList (word segment) offset modes)
    (answered : Answered int10 modes)
    (before : Before segment offset search)
    {fuel : Nat}
    (enough : modes.length < fuel) :
    FindMode.loop word int10 fuel search =
      some
        (exitOf
          (findVisiting (fun mode => TooHigh (modeInfo int10 mode))
            (fun mode => Wanted (modeInfo int10 mode)) modes)) := by
  induction modes generalizing offset search fuel with
  | nil =>
      obtain ⟨fuel, rfl⟩ :=
        Nat.exists_eq_succ_of_ne_zero (Nat.ne_zero_of_lt enough)
      rw [FindMode.loop, body_end before list]
      rfl
  | cons mode modes inductionHypothesis =>
      obtain ⟨fuel, rfl⟩ :=
        Nat.exists_eq_succ_of_ne_zero (Nat.ne_zero_of_lt enough)
      obtain ⟨rfl, listed, rest⟩ := list
      rw [Answered, List.forall_mem_cons] at answered
      have stepped := body_cases before listed answered.1
      rw [FindMode.loop, findVisiting]
      simp only [decide_eq_true_eq]
      by_cases high : TooHigh (modeInfo int10 (word segment offset))
      · rw [if_pos high] at stepped ⊢
        rw [stepped]
        rfl
      · rw [if_neg high] at stepped ⊢
        by_cases wanted : Wanted (modeInfo int10 (word segment offset))
        · rw [if_pos wanted] at stepped ⊢
          rw [stepped]
          rfl
        · rw [if_neg wanted] at stepped ⊢
          obtain ⟨next, stepped, beforeNext⟩ := stepped
          rw [stepped]
          exact
            inductionHypothesis rest answered.2 beforeNext
              (Nat.lt_of_succ_lt_succ enough)

end Runs

/-- The lines in front of the loop prepare its first step. -/
theorem before_start (videoModePointer : BitVec 32) (search : ModeSearch) :
    Before (videoModePointer.extractLsb' 16 16)
      (videoModePointer.extractLsb' 0 16)
      (FindMode.start videoModePointer search) :=
  ⟨rfl, rfl, rfl⟩

/-- Different results of a search are different exits. -/
theorem exitOf_eq_exitFor_iff
    {result : Option (Option (BitVec 16))}
    {found : Option (BitVec 16)} :
    exitOf result = exitFor found ↔ result = some found := by
  cases result with
  | none =>
      cases found <;> simp [exitOf, exitFor]
  | some other =>
      cases found <;> cases other <;> simp [exitOf, exitFor]

/-- No visit fails exactly if no mode in front of the wanted one is too high. -/
theorem findVisiting_eq_firstWanted_iff
    (int10 : ModeAnswers)
    (modes : List (BitVec 16)) :
    findVisiting (fun mode => TooHigh (modeInfo int10 mode))
        (fun mode => Wanted (modeInfo int10 mode)) modes =
      some (firstWanted int10 modes) ↔
      ∀ mode ∈ inFront int10 modes,
        (modeInfo int10 mode).yResolution.toNat < 2304 := by
  rw [firstWanted, findVisiting_eq_find_iff, inFront]
  · refine forall₂_congr fun mode _ => ?_
    rw [decide_eq_true_eq, TooHigh, Nat.not_le]
  · intro mode wanted
    simp only [decide_eq_true_eq] at wanted ⊢
    exact not_tooHigh_of_wanted wanted

/-- The loop selects the first wanted mode unless a mode before is too high. -/
theorem findMode_selects_iff
    {word : BitVec 16 → BitVec 16 → BitVec 16}
    {int10 : ModeAnswers}
    {videoModePointer : BitVec 32}
    {modes : List (BitVec 16)}
    (list :
      ModeList (word (videoModePointer.extractLsb' 16 16))
        (videoModePointer.extractLsb' 0 16) modes)
    (answered : Answered int10 modes)
    (search : ModeSearch) :
    ((∀ fuel > modes.length,
        findMode word int10 videoModePointer fuel search =
          some (exitFor (firstWanted int10 modes))) ∧
      ∀ cpu,
        ∃ text,
          printDec cpu =
            some { cpu with screen := cpu.screen ++ text }) ↔
      ∀ mode ∈ inFront int10 modes,
        (modeInfo int10 mode).yResolution.toNat < 2304 := by
  have runs (fuel : Nat) (enough : fuel > modes.length) :=
    loop_eq_findVisiting list answered
      (before_start videoModePointer search) enough
  rw [and_iff_left printDec_eq, ← findVisiting_eq_firstWanted_iff,
    ← exitOf_eq_exitFor_iff]
  constructor
  · intro selects
    have run := runs _ (Nat.lt_succ_self _)
    have selected := selects _ (Nat.lt_succ_self _)
    rw [findMode, run] at selected
    exact Option.some.inj selected
  · intro same fuel enough
    rw [findMode, runs fuel enough, same]

/-! ## Two lists -/

/-- A list of two modes at 0xC000:0x0100. -/
def listedWord (first : BitVec 16) (_ offset : BitVec 16) : BitVec 16 :=
  if offset = 0x0100 then
    first
  else if offset = 0x0102 then
    0x0144
  else
    0xFFFF

/-- The mode of 1280 by 720 pixels, one of 3840 by 2400 and others. -/
def listedAnswers (cx : BitVec 16) : BitVec 16 × ModeInfoBlock :=
  if cx = 0x4144 then
    (0x4F, { mode640x480 with
      bytesPerScanline := 5120
      xResolution := 1280
      yResolution := 720 })
  else if cx = 0x4160 then
    (0x4F, { mode640x480 with
      bytesPerScanline := 15360
      xResolution := 3840
      yResolution := 2400 })
  else
    (0x4F, mode640x480)

/-- The pointer to the list. -/
def listedPointer : BitVec 32 := 0xC0000100

/-- The two modes are listed. -/
theorem modeList_listedWord
    {first : BitVec 16}
    (listed : first ≠ 0xFFFF) :
    ModeList (listedWord first (listedPointer.extractLsb' 16 16))
      (listedPointer.extractLsb' 0 16) [first, 0x0144] :=
  ⟨rfl, listed, rfl, by decide, rfl⟩

/-- All modes are known. -/
theorem answered_listedAnswers (modes : List (BitVec 16)) :
    Answered listedAnswers modes := by
  intro mode _
  unfold listedAnswers
  split
  · rfl
  · split <;> rfl

/-- The registers and the variables before the search. -/
def zeroSearch : ModeSearch where
  cpu := ⟨0, 0, 0, 0, 0, 0, [], []⟩
  offset := 0
  tSegment := 0
  mode := 0
  modeInfoBlock := ⟨0, 0, 0, 0, 0⟩

/-- A mode of 640 by 480 pixels in front of the wanted one. -/
theorem findMode_selects_iff_behind640x480 :
    findMode (listedWord 0x0112) listedAnswers listedPointer 3 zeroSearch =
      some (.loadKernel 0x0144) := by
  have front : inFront listedAnswers [0x0112, 0x0144] = [0x0112] := by
    decide
  have low :
      ∀ mode ∈ inFront listedAnswers [0x0112, 0x0144],
        (modeInfo listedAnswers mode).yResolution.toNat < 2304 := by
    rw [front, List.forall_mem_singleton]
    decide
  have found : firstWanted listedAnswers [0x0112, 0x0144] = some 0x0144 := by
    decide
  have selects :=
    ((findMode_selects_iff (modeList_listedWord (by decide))
      (answered_listedAnswers [0x0112, 0x0144]) zeroSearch).mpr low).1
      3 (by decide)
  rwa [found] at selects

/-- A mode of 3840 by 2400 pixels in front of the wanted one. -/
theorem findMode_selects_fails :
    ModeList (listedWord 0x0160 (listedPointer.extractLsb' 16 16))
        (listedPointer.extractLsb' 0 16) [0x0160, 0x0144] ∧
      Answered listedAnswers [0x0160, 0x0144] ∧
      firstWanted listedAnswers [0x0160, 0x0144] = some 0x0144 ∧
      ∀ search,
        ∀ fuel > 2,
          findMode (listedWord 0x0160) listedAnswers listedPointer fuel
              search =
            some .divideError := by
  have list := @modeList_listedWord 0x0160 (by decide)
  have answered := answered_listedAnswers [0x0160, 0x0144]
  refine ⟨list, answered, by decide, fun search fuel enough => ?_⟩
  have raised :
      findVisiting (fun mode => TooHigh (modeInfo listedAnswers mode))
          (fun mode => Wanted (modeInfo listedAnswers mode))
          [0x0160, 0x0144] =
        none := by
    decide
  rw [findMode,
    loop_eq_findVisiting list answered (before_start listedPointer search)
      enough, raised]
  rfl

end HobbyOS
