import HobbyOS.Stddef

namespace HobbyOS

/-!
# Printing decimal numbers

The registers of the boot code, the divisions with the error that they raise,
and `print_dec` of `_FAT16.asm`.  Calls of `int 0x10` with `ah` 0x0E put `al`
on the screen and preserve the registers.
-/

/-- The registers, the stack and what is on the screen. -/
structure Cpu where
  ax : BitVec 16
  bx : BitVec 16
  cx : BitVec 16
  dx : BitVec 16
  si : BitVec 16
  fs : BitVec 16
  stack : List (BitVec 16)
  screen : List Byte

namespace Cpu

variable (cpu : Cpu)

/-- `al`. -/
def al : Byte :=
  cpu.ax.extractLsb' 0 8

/-- `ah`. -/
def ah : Byte :=
  cpu.ax.extractLsb' 8 8

/-- `bl`. -/
def bl : Byte :=
  cpu.bx.extractLsb' 0 8

/-- `cl`. -/
def cl : Byte :=
  cpu.cx.extractLsb' 0 8

/-- `mov al, value`. -/
def setAl (value : Byte) : Cpu :=
  { cpu with ax := cpu.ah ++ value }

/-- `mov ah, value`. -/
def setAh (value : Byte) : Cpu :=
  { cpu with ax := value ++ cpu.al }

/-- `mov bl, value`. -/
def setBl (value : Byte) : Cpu :=
  { cpu with bx := cpu.bx.extractLsb' 8 8 ++ value }

/-- `mov cl, value`. -/
def setCl (value : Byte) : Cpu :=
  { cpu with cx := cpu.cx.extractLsb' 8 8 ++ value }

/-- `push value`. -/
def push (value : BitVec 16) : Cpu :=
  { cpu with stack := value :: cpu.stack }

/-- The word that `pop` takes from the stack. -/
def top : BitVec 16 :=
  cpu.stack.headD 0

/-- The rest of `pop`. -/
def dropTop : Cpu :=
  { cpu with stack := cpu.stack.tail }

/-- `div` by a byte, without result if the quotient does not fit in `al`. -/
def divByte (divisor : Byte) : Option Cpu :=
  if divisor = 0 then
    none
  else if cpu.ax.toNat / divisor.toNat < 2 ^ 8 then
    some
      { cpu with
        ax :=
          BitVec.ofNat 8 (cpu.ax.toNat % divisor.toNat) ++
            BitVec.ofNat 8 (cpu.ax.toNat / divisor.toNat) }
  else
    none

/-- `div` by a word, without result if the quotient does not fit in `ax`. -/
def divWord (divisor : BitVec 16) : Option Cpu :=
  let dividend := (cpu.dx ++ cpu.ax).toNat
  if divisor = 0 then
    none
  else if dividend / divisor.toNat < 2 ^ 16 then
    some
      { cpu with
        ax := BitVec.ofNat 16 (dividend / divisor.toNat)
        dx := BitVec.ofNat 16 (dividend % divisor.toNat) }
  else
    none

/-- `int 0x10` with `ah` 0x0E. -/
def teletype : Cpu :=
  { cpu with screen := cpu.screen ++ [cpu.al] }

/-- A single word can always be divided. -/
theorem divWord_of_dx_zero
    {cpu : Cpu}
    {divisor : BitVec 16}
    (single : cpu.dx = 0)
    (nonzero : divisor ≠ 0) :
    cpu.divWord divisor =
      some { cpu with ax := cpu.ax / divisor, dx := cpu.ax % divisor } := by
  have dividend : (cpu.dx ++ cpu.ax).toNat = cpu.ax.toNat := by
    rw [single, BitVec.toNat_append]
    simp
  have fits : cpu.ax.toNat / divisor.toNat < 2 ^ 16 :=
    Nat.lt_of_le_of_lt (Nat.div_le_self _ _) cpu.ax.isLt
  have quotient :
      BitVec.ofNat 16 (cpu.ax.toNat / divisor.toNat) = cpu.ax / divisor := by
    refine BitVec.eq_of_toNat_eq ?_
    rw [BitVec.toNat_ofNat, BitVec.toNat_udiv, Nat.mod_eq_of_lt fits]
  have remainder :
      BitVec.ofNat 16 (cpu.ax.toNat % divisor.toNat) = cpu.ax % divisor := by
    refine BitVec.eq_of_toNat_eq ?_
    rw [BitVec.toNat_ofNat, BitVec.toNat_umod, Nat.mod_eq_of_lt]
    exact Nat.lt_of_le_of_lt (Nat.mod_le _ _) cpu.ax.isLt
  rw [divWord, dividend, if_neg nonzero, if_pos fits, quotient, remainder]

/-- Nothing can be divided by zero. -/
theorem divWord_zero (cpu : Cpu) : cpu.divWord 0 = none := by
  rw [divWord]
  exact if_pos rfl

end Cpu

/-! ## `print_dec` -/

namespace PrintDec

/-- `.sig_found`, up to `.no_sig`. -/
def sigFound (cpu : Cpu) : Cpu :=
  (cpu.setAl (cpu.al + 0x30)).teletype

/-- From `mov ah, 0x0E` to `.no_sig`, which skips zeros in front. -/
def significant (cpu : Cpu) : Cpu :=
  let cpu := cpu.setAh 0x0E
  if cpu.bl ≠ 0 then
    sigFound cpu
  else if cpu.al = 0 then
    cpu
  else
    sigFound (cpu.setBl 1)

/-- The body of `.loop`, up to its test. -/
def digit (cpu : Cpu) : Option Cpu := do
  let cpu := { cpu with dx := 0 }
  let cpu ← cpu.divWord cpu.cx
  let cpu := cpu.push cpu.dx
  let cpu := significant cpu
  let cpu := { cpu with dx := 0 }
  let cpu := { cpu with ax := cpu.cx }
  let cpu := { cpu with cx := 10 }
  let cpu ← cpu.divWord cpu.cx
  let cpu := { cpu with cx := cpu.ax }
  return { cpu with ax := cpu.top }.dropTop

/-- A digit is printed or not. -/
theorem significant_eq (cpu : Cpu) :
    ∃ ax bx text,
      significant cpu =
        { cpu with ax, bx, screen := cpu.screen ++ text } := by
  unfold significant
  dsimp only
  split
  · exact ⟨_, _, _, rfl⟩
  · split
    · refine ⟨(cpu.setAh 0x0E).ax, cpu.bx, [], ?_⟩
      rw [List.append_nil]
      rfl
    · exact ⟨_, _, _, rfl⟩

/-- A step leaves the remainder in `ax` and the next power of ten in `cx`. -/
theorem digit_eq
    {cpu : Cpu}
    (nonzero : cpu.cx ≠ 0) :
    ∃ bx dx text,
      digit cpu =
        some
          { cpu with
            ax := cpu.ax % cpu.cx
            bx
            cx := cpu.cx / 10
            dx
            screen := cpu.screen ++ text } := by
  have divided :
      { cpu with dx := 0 }.divWord cpu.cx =
        some { cpu with ax := cpu.ax / cpu.cx, dx := cpu.ax % cpu.cx } :=
    Cpu.divWord_of_dx_zero rfl nonzero
  obtain ⟨ax, bx, text, printed⟩ :=
    significant_eq
      ({ cpu with ax := cpu.ax / cpu.cx, dx := cpu.ax % cpu.cx }.push
        (cpu.ax % cpu.cx))
  refine ⟨bx, cpu.cx % 10, text, ?_⟩
  rw [digit]
  simp only [divided, Option.bind_eq_bind, Option.bind_some, printed]
  rw [Cpu.divWord_of_dx_zero rfl (by decide)]
  rfl

/-- The power of ten gets smaller. -/
theorem cx_of_digit
    {cpu next : Cpu}
    (printed : digit cpu = some next) :
    next.cx.toNat < cpu.cx.toNat := by
  by_cases zero : cpu.cx = 0
  · have raised : { cpu with dx := 0 }.divWord cpu.cx = none := by
      rw [zero]
      exact Cpu.divWord_zero _
    rw [digit, Option.bind_eq_bind, raised] at printed
    cases printed
  · obtain ⟨bx, dx, text, stepped⟩ := digit_eq zero
    rw [stepped, Option.some.injEq] at printed
    subst printed
    have ten : (10 : BitVec 16).toNat = 10 := rfl
    have positive : cpu.cx.toNat ≠ 0 := fun same =>
      zero (BitVec.eq_of_toNat_eq same)
    dsimp only
    rw [BitVec.toNat_udiv, ten]
    omega

/-- `.loop`. -/
def loop (cpu : Cpu) : Option Cpu :=
  match _ : digit cpu with
  | none => none
  | some next => if next.cx ≠ 0 then loop next else some next
termination_by cpu.cx.toNat
decreasing_by exact cx_of_digit ‹_›

/-- The loop goes on behind a digit unless `cx` has become 0. -/
theorem loop_of_digit
    {cpu next : Cpu}
    (printed : digit cpu = some next) :
    loop cpu = if next.cx ≠ 0 then loop next else some next := by
  rw [loop]
  split
  · rename_i raised
    rw [printed] at raised
    cases raised
  · rename_i other printedOther
    rw [printed, Option.some.injEq] at printedOther
    rw [printedOther]

/-- The loop ends, and changes the working registers and the screen only. -/
theorem loop_eq
    {cpu : Cpu}
    (nonzero : cpu.cx ≠ 0) :
    ∃ ax bx cx dx text,
      loop cpu =
        some
          { cpu with ax, bx, cx, dx, screen := cpu.screen ++ text } := by
  induction bound : cpu.cx.toNat using Nat.strongRecOn generalizing cpu with
  | ind bound inductionHypothesis =>
      obtain ⟨bx, dx, text, printed⟩ := digit_eq nonzero
      have smaller := cx_of_digit printed
      rw [loop_of_digit printed]
      by_cases last : cpu.cx / 10 = 0
      · rw [if_neg (not_not.mpr last)]
        exact ⟨_, _, _, _, _, rfl⟩
      · rw [if_pos last]
        obtain ⟨ax, bx, cx, dx, more, ended⟩ :=
          inductionHypothesis _ (bound ▸ smaller) last rfl
        refine ⟨ax, bx, cx, dx, text ++ more, ?_⟩
        rw [ended, ← List.append_assoc]

/-- `print_dec`, up to `.loop`. -/
def enter (cpu : Cpu) : Cpu :=
  let cpu := (((cpu.push cpu.ax).push cpu.cx).push cpu.bx).push cpu.dx
  let cpu := cpu.setBl 0
  let cpu := { cpu with ax := cpu.dx }
  { cpu with cx := 10000 }

/-- The lines behind `.loop`. -/
def leave (cpu : Cpu) : Cpu :=
  let cpu := { cpu with dx := cpu.top }.dropTop
  let cpu := { cpu with bx := cpu.top }.dropTop
  let cpu := { cpu with cx := cpu.top }.dropTop
  { cpu with ax := cpu.top }.dropTop

end PrintDec

/-- `print_dec`. -/
def printDec (cpu : Cpu) : Option Cpu :=
  (PrintDec.loop (PrintDec.enter cpu)).map PrintDec.leave

/-- `print_dec` does not raise an error and preserves the registers. -/
theorem printDec_eq (cpu : Cpu) :
    ∃ text,
      printDec cpu =
        some { cpu with screen := cpu.screen ++ text } := by
  have first : (PrintDec.enter cpu).cx ≠ 0 :=
    show (10000 : BitVec 16) ≠ 0 by decide
  obtain ⟨ax, bx, cx, dx, text, ended⟩ := PrintDec.loop_eq first
  refine ⟨text, ?_⟩
  rw [printDec, ended]
  rfl

end HobbyOS
