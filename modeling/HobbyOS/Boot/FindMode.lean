import HobbyOS.Boot.PrintDec
import HobbyOS.Video.Screen

namespace HobbyOS

/-!
# The search for the video mode

`.find_mode` of `load_kernel.asm`, which goes through the modes that the BIOS
lists, prints some of their resolutions and ends at the first one with the
wanted resolution.  The list does not lie in the variables that the loop
stores to.  Calls of `int 0x10` preserve the registers that they return
nothing in.
-/

/-- How the loop ends. -/
inductive ModeExit where
  | loadKernel (mode : BitVec 16) : ModeExit
  | endOfModes : ModeExit
  | error : ModeExit
  | divideError : ModeExit
  deriving DecidableEq

/-- `ax` and the mode information after the function 0x4F01 for `cx`. -/
abbrev ModeAnswers := BitVec 16 → BitVec 16 × ModeInfoBlock

/-- The registers and the variables of the loop. -/
structure ModeSearch where
  cpu : Cpu
  offset : BitVec 16
  tSegment : BitVec 16
  mode : BitVec 16
  modeInfoBlock : ModeInfoBlock

namespace FindMode

/-- `width`. -/
def width : BitVec 16 := 1280

/-- `height`. -/
def height : BitVec 16 := 720

/-- `bpp`. -/
def bpp : Byte := 32

/-- `mov ax, value`. -/
def setAx (search : ModeSearch) (value : BitVec 16) : ModeSearch :=
  { search with cpu := { search.cpu with ax := value } }

@[simp] theorem setAx_ax (search : ModeSearch) (value : BitVec 16) :
    (setAx search value).cpu.ax = value :=
  rfl

@[simp] theorem setAx_mode (search : ModeSearch) (value : BitVec 16) :
    (setAx search value).mode = search.mode :=
  rfl

@[simp] theorem setAx_modeInfoBlock
    (search : ModeSearch)
    (value : BitVec 16) :
    (setAx search value).modeInfoBlock = search.modeInfoBlock :=
  rfl

/-- The lines in front of `.find_mode`, with the pointer to the list. -/
def start (videoModePointer : BitVec 32) (search : ModeSearch) :
    ModeSearch :=
  let search := setAx search (videoModePointer.extractLsb' 0 16)
  let search := { search with offset := search.cpu.ax }
  let search := setAx search (videoModePointer.extractLsb' 16 16)
  let search := { search with tSegment := search.cpu.ax }
  { search with
    cpu := { search.cpu with fs := search.cpu.ax, si := search.offset } }

/-- Print a resolution and the bits of a pixel. -/
def printMode (block : ModeInfoBlock) (cpu : Cpu) : Option Cpu := do
  let cpu ← printDec { cpu with dx := block.xResolution }
  let cpu := { cpu with ax := 0x0E78 }.teletype
  let cpu ← printDec { cpu with dx := block.yResolution }
  let cpu := { cpu with ax := 0x0E20 }.teletype
  let cpu ← printDec { cpu with dx := block.bitsPerPixel.signExtend 16 }
  let cpu := { cpu with ax := 0x0E0A }.teletype
  return { cpu with ax := 0x0E0D }.teletype

/-- From the load of `x_resolution` to `.not_resolution`. -/
def filterResolution (block : ModeInfoBlock) (cpu : Cpu) : Option Cpu :=
  let cpu := { cpu with dx := block.xResolution >>> 4 }
  if cpu.dx.slt 0 then
    some cpu
  else do
    let cpu := { cpu with ax := block.yResolution }.setCl 9
    let cpu ← cpu.divByte cpu.cl
    if cpu.ah ≠ 0 then
      return cpu
    else
      printMode block cpu

/-- `.next_mode`. -/
def nextMode (search : ModeSearch) : ModeSearch :=
  let search := setAx search search.tSegment
  { search with
    cpu := { search.cpu with fs := search.cpu.ax, si := search.offset } }

/-- `.not_resolution`.  The load of `bpp` as a word takes a byte of `offset`. -/
def notResolution (search : ModeSearch) : Except ModeExit ModeSearch :=
  let search := setAx search width
  if search.cpu.ax ≠ search.modeInfoBlock.xResolution then
    .ok (nextMode search)
  else
    let search := setAx search height
    if search.cpu.ax ≠ search.modeInfoBlock.yResolution then
      .ok (nextMode search)
    else
      let search := setAx search (search.offset.extractLsb' 0 8 ++ bpp)
      if search.cpu.al ≠ search.modeInfoBlock.bitsPerPixel then
        .ok (nextMode search)
      else
        .error (.loadKernel search.mode)

/-- Load the next mode of the list. -/
def nextListed
    (word : BitVec 16 → BitVec 16 → BitVec 16)
    (search : ModeSearch) :
    ModeSearch :=
  let cpu := { search.cpu with dx := word search.cpu.fs search.cpu.si }
  let cpu := { cpu with si := cpu.si + 2 }
  { search with cpu, offset := cpu.si, mode := cpu.dx }

/-- The call of `int 0x10` for the mode. -/
def getModeInfo (int10 : ModeAnswers) (search : ModeSearch) : ModeSearch :=
  let cpu := { search.cpu with ax := 0x4F01 }
  let cpu := { cpu with cx := search.mode }
  let cpu := { cpu with cx := cpu.cx ||| 0x4000 }
  { search with
    cpu := { cpu with ax := (int10 cpu.cx).1 }
    modeInfoBlock := (int10 cpu.cx).2 }

/--
The body of the loop, where `word` has the words of the memory by segment and
offset.
-/
def body
    (word : BitVec 16 → BitVec 16 → BitVec 16)
    (int10 : ModeAnswers)
    (search : ModeSearch) :
    Except ModeExit ModeSearch :=
  let search := nextListed word search
  if search.cpu.dx = 0xFFFF then
    .error .endOfModes
  else
    let search := getModeInfo int10 search
    if search.cpu.ax ≠ 0x4F then
      .error .error
    else
      match filterResolution search.modeInfoBlock search.cpu with
      | none => .error .divideError
      | some cpu => notResolution { search with cpu }

/-- The loop. -/
def loop
    (word : BitVec 16 → BitVec 16 → BitVec 16)
    (int10 : ModeAnswers) :
    Nat → ModeSearch → Option ModeExit
  | 0, _ => none
  | fuel + 1, search =>
      match body word int10 search with
      | .error exit => some exit
      | .ok search => loop word int10 fuel search

end FindMode

/-- `.find_mode`, with the lines in front of it. -/
def findMode
    (word : BitVec 16 → BitVec 16 → BitVec 16)
    (int10 : ModeAnswers)
    (videoModePointer : BitVec 32)
    (fuel : Nat)
    (search : ModeSearch) :
    Option ModeExit :=
  FindMode.loop word int10 fuel (FindMode.start videoModePointer search)

/-! ## One mode -/

namespace FindMode

/-- The mode is printed without an error. -/
theorem printMode_prints (block : ModeInfoBlock) (cpu : Cpu) :
    ∃ next, printMode block cpu = some next := by
  unfold printMode
  obtain ⟨x, printedX⟩ := printDec_eq { cpu with dx := block.xResolution }
  simp only [printedX, Option.bind_eq_bind, Option.bind_some]
  obtain ⟨y, printedY⟩ := printDec_eq _
  rw [printedY, Option.bind_some]
  obtain ⟨bits, printedBits⟩ := printDec_eq _
  rw [printedBits, Option.bind_some]
  exact ⟨_, rfl⟩

/-- The quotient of a height by 9 has to fit in a byte. -/
theorem divByte_nine
    (block : ModeInfoBlock)
    (cpu : Cpu) :
    (({ cpu with ax := block.yResolution }.setCl 9).divByte
        ({ cpu with ax := block.yResolution }.setCl 9).cl).isSome ↔
      block.yResolution.toNat < 2304 := by
  have nine : ({ cpu with ax := block.yResolution }.setCl 9).cl = 9 :=
    BitVec.extractLsb'_append_eq_right
  have nineNat : (9 : Byte).toNat = 9 := rfl
  have dividend :
      ({ cpu with ax := block.yResolution }.setCl 9).ax =
        block.yResolution :=
    rfl
  rw [nine, Cpu.divByte, if_neg (by decide), nineNat, dividend]
  split
  · simp only [Option.isSome_some, true_iff]
    omega
  · simp only [Option.isSome_none, Bool.false_eq_true, false_iff]
    omega

/-- No shifted width is negative. -/
theorem not_slt_ushiftRight (value : BitVec 16) :
    (value >>> 4).slt 0 = false := by
  have bounded := value.isLt
  have small : (value >>> 4).toNat < 2 ^ 15 := by
    rw [BitVec.toNat_ushiftRight, Nat.shiftRight_eq_div_pow]
    omega
  have sign : (value >>> 4).msb = false := by
    rw [BitVec.msb_eq_false_iff_two_mul_lt]
    omega
  exact BitVec.slt_zero_eq_msb.trans sign

/-- A mode passes the filter unless the division raises an error. -/
theorem filterResolution_isSome_iff
    (block : ModeInfoBlock)
    (cpu : Cpu) :
    (filterResolution block cpu).isSome ↔
      block.yResolution.toNat < 2304 := by
  rw [← divByte_nine block { cpu with dx := block.xResolution >>> 4 },
    filterResolution]
  dsimp only
  rw [not_slt_ushiftRight, if_neg Bool.false_ne_true, Option.bind_eq_bind]
  cases
    Cpu.divByte
      ({ cpu with
          ax := block.yResolution
          dx := block.xResolution >>> 4 }.setCl 9) _ with
  | none =>
      rfl
  | some divided =>
      rw [Option.bind_some]
      split
      · rfl
      · obtain ⟨next, printed⟩ := printMode_prints block divided
        rw [printed]
        rfl

/-- The mode that the loop looks for. -/
def Wanted (block : ModeInfoBlock) : Prop :=
  block.xResolution = 1280 ∧
    block.yResolution = 720 ∧ block.bitsPerPixel = 32

instance (block : ModeInfoBlock) : Decidable (Wanted block) :=
  inferInstanceAs (Decidable (_ ∧ _ ∧ _))

/-- The search in front of the list from `offset` on. -/
structure Before
    (segment offset : BitVec 16)
    (search : ModeSearch) :
    Prop where
  saved : search.tSegment = segment
  fs : search.cpu.fs = segment
  si : search.cpu.si = offset

/-- The next mode is looked up behind the last one. -/
theorem before_nextMode
    {segment : BitVec 16}
    {search : ModeSearch}
    (saved : search.tSegment = segment) :
    Before segment search.offset (nextMode search) :=
  ⟨saved, saved, rfl⟩

/-- The byte that is compared is `bpp`. -/
theorem al_bpp (high : Byte) (search : ModeSearch) :
    (setAx search (high ++ bpp)).cpu.al = bpp :=
  BitVec.extractLsb'_append_eq_right

/-- With the wanted mode the kernel is loaded. -/
theorem notResolution_of_wanted
    {search : ModeSearch}
    (wanted : Wanted search.modeInfoBlock) :
    notResolution search = .error (.loadKernel search.mode) := by
  obtain ⟨x, y, bits⟩ := wanted
  unfold notResolution
  simp only [al_bpp, setAx_ax, setAx_modeInfoBlock, setAx_mode, x, y, bits]
  rfl

/-- With another mode the search goes on. -/
theorem notResolution_of_not_wanted
    {segment : BitVec 16}
    {search : ModeSearch}
    (saved : search.tSegment = segment)
    (other : ¬Wanted search.modeInfoBlock) :
    ∃ next,
      notResolution search = .ok next ∧
        Before segment search.offset next := by
  unfold notResolution
  simp only [al_bpp, setAx_ax, setAx_modeInfoBlock]
  by_cases x : width ≠ search.modeInfoBlock.xResolution
  · rw [if_pos x]
    exact ⟨_, rfl, before_nextMode saved⟩
  · rw [if_neg x]
    by_cases y : height ≠ search.modeInfoBlock.yResolution
    · rw [if_pos y]
      exact ⟨_, rfl, before_nextMode saved⟩
    · rw [if_neg y]
      by_cases bits : bpp ≠ search.modeInfoBlock.bitsPerPixel
      · rw [if_pos bits]
        exact ⟨_, rfl, before_nextMode saved⟩
      · refine (other ⟨?_, ?_, ?_⟩).elim
        · exact (not_not.mp x).symm
        · exact (not_not.mp y).symm
        · exact (not_not.mp bits).symm

section Bodies

variable
  {word : BitVec 16 → BitVec 16 → BitVec 16}
  {int10 : ModeAnswers}
  {segment offset : BitVec 16}
  {search : ModeSearch}

/-- The end of the list ends the search. -/
theorem body_end
    (before : Before segment offset search)
    (ended : word segment offset = 0xFFFF) :
    body word int10 search = .error .endOfModes := by
  have loaded : (nextListed word search).cpu.dx = 0xFFFF := by
    rw [← ended, ← before.fs, ← before.si]
    rfl
  rw [body]
  exact if_pos loaded

/-- The information of a listed mode is filtered. -/
theorem body_listed
    (before : Before segment offset search)
    (listed : word segment offset ≠ 0xFFFF)
    (answered : (int10 (word segment offset ||| 0x4000)).1 = 0x4F) :
    ∃ asked : ModeSearch,
      asked.tSegment = segment ∧
        asked.offset = offset + 2 ∧
        asked.mode = word segment offset ∧
        asked.modeInfoBlock = (int10 (word segment offset ||| 0x4000)).2 ∧
        body word int10 search =
          match filterResolution asked.modeInfoBlock asked.cpu with
          | none => .error .divideError
          | some cpu => notResolution { asked with cpu } := by
  have loaded : (nextListed word search).cpu.dx = word segment offset := by
    rw [← before.fs, ← before.si]
    rfl
  have mode : (nextListed word search).mode = word segment offset := loaded
  have success :
      (getModeInfo int10 (nextListed word search)).cpu.ax = 0x4F := by
    rw [← answered, ← mode]
    rfl
  refine
    ⟨getModeInfo int10 (nextListed word search), before.saved, ?_, mode, ?_,
      ?_⟩
  · rw [← before.si]
    rfl
  · rw [← mode]
    rfl
  · rw [body]
    dsimp only
    rw [if_neg (show (nextListed word search).cpu.dx ≠ 0xFFFF by
      rwa [loaded]), if_neg (not_not.mpr success)]

end Bodies

end FindMode

end HobbyOS
