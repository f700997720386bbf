import HobbyOS.Library.LastWrite
import HobbyOS.Stddef

namespace HobbyOS

open Library

/-!
# The keyboard handler

`kbh` of `ps2.c`, which is called for every interrupt of the keyboard, with
the key codes of `scancodes.h`.  The bytes of the data port are given as a
list, from which each `inb` takes the first one.
-/

/-- `KEY_LEFTCONTROL`. -/
def keyLeftControl : Byte := 29

/-- `KEY_LEFTSHIFT`. -/
def keyLeftShift : Byte := 42

/-- `KEY_RIGHTSHIFT`. -/
def keyRightShift : Byte := 54

/-- `KEY_ALTERNATE`. -/
def keyAlternate : Byte := 0xE0

/-- `KEY_RELEASED`. -/
def keyReleased : Byte := 0x80

/-- `scancode_to_ascii`, with the terminating null. -/
def scancodeToAscii : List Char :=
  ['\x00', '\x00', '1', '2', '3', '4', '5', '6', '7', '8', '9', '0', '-',
    '=', '\x08', '\t', 'q', 'w', 'e', 'r', 't', 'y', 'u', 'i', 'o', 'p',
    '[', ']', '\n', '\x00', 'a', 's', 'd', 'f', 'g', 'h', 'j', 'k', 'l',
    ';', '\x27', '\x60', '\x00', '\x5c', 'z', 'x', 'c', 'v', 'b', 'n',
    'm', ',', '.', '/', '\x00', '\x00', '\x00', ' ', '\x00']

/-- `scancode_to_ascii_shifted`, with the terminating null. -/
def scancodeToAsciiShifted : List Char :=
  ['\x00', '\x00', '!', '@', '#', '$', '%', '^', '&', '*', '(', ')', '_',
    '+', '\x08', '\t', 'Q', 'W', 'E', 'R', 'T', 'Y', 'U', 'I', 'O', 'P',
    '\x7b', '\x7d', '\r', '\x00', 'A', 'S', 'D', 'F', 'G', 'H', 'J', 'K',
    'L', ':', '\x22', '~', '\x00', '|', 'Z', 'X', 'C', 'V', 'B', 'N', 'M',
    '<', '>', '?', '\x00', '\x00', '\x00', ' ', '\x00']

/-- `KeyEvent_t`, with no `ascii` where it is read behind the table. -/
structure KeyEvent where
  ascii : Option Char
  scancode : Byte
  keypressed : Bool
  shifted : Bool
  control : Bool

/--
The variables of `ps2.c`, and the event that the last call built for a
registered handler.
-/
structure Keyboard where
  keymap : Byte → Bool
  shiftActive : Bool
  controlActive : Bool
  event : Option KeyEvent

/-- No key is held. -/
def Keyboard.released : Keyboard where
  keymap := fun _ => false
  shiftActive := false
  controlActive := false
  event := none

/-- `key_pressed`. -/
def keyPressed (keyboard : Keyboard) (key : Byte) : Bool :=
  keyboard.keymap key

/-- The key of a scancode. -/
def keyOf (al : Byte) : Byte :=
  al &&& ~~~keyReleased

/-- The scancode is one of a key that is pressed. -/
def isMake (al : Byte) : Bool :=
  al &&& keyReleased = 0

/-- The test for the shift keys. -/
def testsShift (al : Byte) : Bool :=
  al &&& keyLeftShift = keyLeftShift || al &&& keyRightShift = keyRightShift

/-- The test for the left control key. -/
def testsControl (al : Byte) : Bool :=
  al &&& keyLeftControl = keyLeftControl

/-- `kbh` behind the test for `KEY_ALTERNATE`. -/
def handleCode (keyboard : Keyboard) (al : Byte) : Keyboard :=
  let keymap := Function.update keyboard.keymap (keyOf al) (isMake al)
  let shiftActive :=
    if testsShift al then isMake al else keyboard.shiftActive
  let controlActive :=
    if testsControl al then isMake al else keyboard.controlActive
  let table :=
    if shiftActive then scancodeToAsciiShifted else scancodeToAscii
  { keymap := keymap
    shiftActive := shiftActive
    controlActive := controlActive
    event :=
      some
        { ascii := table[(keyOf al).toNat]?
          scancode := al
          keypressed := al &&& keyReleased ≠ keyReleased
          shifted := shiftActive
          control := controlActive } }

/-- `kbh`, with the rest of the bytes; it waits for a byte that is missing. -/
def kbh (keyboard : Keyboard) : List Byte → Option (Keyboard × List Byte)
  | [] => none
  | al :: port =>
      if al = keyAlternate then
        match port with
        | [] => none
        | _ :: port => some ({ keyboard with event := none }, port)
      else
        some (handleCode keyboard al, port)

/-! ## The bytes of one call -/

/-- What one call reads: `0xE0` and its successor, or a plain code. -/
inductive PortRead where
  | alternate (successor : Byte) : PortRead
  | code (al : Byte) (plain : al ≠ keyAlternate) : PortRead

/-- The bytes that are read. -/
def PortRead.bytes : PortRead → List Byte
  | .alternate successor => [keyAlternate, successor]
  | .code al _ => [al]

/-- The plain code that is read, if any. -/
def PortRead.code? : PortRead → Option Byte
  | .alternate _ => none
  | .code al _ => some al

/-- One call of `kbh`, which reads these bytes. -/
def Call (read : PortRead) (before after : Keyboard) : Prop :=
  kbh before read.bytes = some (after, [])

/-- A call that reads a plain code handles it. -/
theorem call_code_iff
    {al : Byte}
    {plain : al ≠ keyAlternate}
    {before after : Keyboard} :
    Call (.code al plain) before after ↔ after = handleCode before al := by
  rw [Call, PortRead.bytes, kbh, if_neg plain, Option.some.injEq,
    Prod.mk.injEq]
  exact ⟨fun same => same.1.symm, fun same => ⟨same.symm, rfl⟩⟩

/-- A call that reads `0xE0` skips its successor. -/
theorem call_alternate_iff
    {successor : Byte}
    {before after : Keyboard} :
    Call (.alternate successor) before after ↔
      after = { before with event := none } := by
  rw [Call, PortRead.bytes, kbh, if_pos rfl, Option.some.injEq,
    Prod.mk.injEq]
  exact ⟨fun same => same.1.symm, fun same => ⟨same.symm, rfl⟩⟩

/-- A call reads the same bytes whatever comes behind them. -/
theorem Call.kbh_append
    {read : PortRead}
    {before after : Keyboard}
    (call : Call read before after)
    (port : List Byte) :
    kbh before (read.bytes ++ port) = some (after, port) := by
  cases read with
  | alternate successor =>
      rw [call_alternate_iff.mp call]
      show kbh before (keyAlternate :: successor :: port) = _
      rw [kbh, if_pos rfl]
  | code al plain =>
      rw [call_code_iff.mp call]
      exact if_neg plain

/-- Every call ends, in one state. -/
theorem call_existsUnique (read : PortRead) (before : Keyboard) :
    ∃! after, Call read before after := by
  cases read with
  | alternate successor =>
      exact ⟨_, call_alternate_iff.mpr rfl, fun _ => call_alternate_iff.mp⟩
  | code al plain =>
      exact ⟨_, call_code_iff.mpr rfl, fun _ => call_code_iff.mp⟩

/-- A stream is read by calls, but for a last `0xE0` without successor. -/
theorem exists_reads (stream : List Byte) :
    ∃ (reads : List PortRead) (rest : List Byte),
      stream = reads.flatMap PortRead.bytes ++ rest ∧
        (rest = [] ∨ rest = [keyAlternate]) := by
  induction length : stream.length using Nat.strong_induction_on
    generalizing stream with
  | _ length inductionHypothesis =>
      match stream with
      | [] =>
          exact ⟨[], [], rfl, Or.inl rfl⟩
      | al :: stream =>
          by_cases alternate : al = keyAlternate
          · subst alternate
            match stream with
            | [] =>
                exact ⟨[], [keyAlternate], rfl, Or.inr rfl⟩
            | successor :: stream =>
                obtain ⟨reads, rest, split, waiting⟩ :=
                  inductionHypothesis stream.length
                    (by simp only [List.length_cons] at length; omega)
                    stream rfl
                exact ⟨.alternate successor :: reads, rest,
                  by rw [split]; rfl, waiting⟩
          · obtain ⟨reads, rest, split, waiting⟩ :=
              inductionHypothesis stream.length
                (by simp only [List.length_cons] at length; omega)
                stream rfl
            exact ⟨.code al alternate :: reads, rest, by rw [split]; rfl,
              waiting⟩

end HobbyOS
