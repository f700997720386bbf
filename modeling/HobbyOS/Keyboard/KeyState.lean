import Mathlib.Data.List.Induction
import HobbyOS.Keyboard.Kbh

namespace HobbyOS

open Library

/-!
# The keys that are held

The map of the keys follows the last code of each key.  The flags for shift
and control are set by mask tests that other keys pass as well, two shift keys
share one flag, and the tables for the characters end behind the space bar.
The flags and the events are right exactly as long as no call reads a code for
which this matters.
-/

/-- The plain codes that some calls read. -/
def plainCodes (reads : List PortRead) : List Byte :=
  reads.filterMap PortRead.code?

/-- The last plain code of a key is one that is pressed. -/
def held (reads : List PortRead) (key : Byte) : Bool :=
  lastValue keyOf isMake (fun _ => false) (plainCodes reads) key

/-- The left or the right shift key is held. -/
def shiftHeld (reads : List PortRead) : Bool :=
  held reads keyLeftShift || held reads keyRightShift

/--
After these calls, the keyboard is in the state that the keys are in, and the
event of the last call carries this state and a character of a table.
-/
structure Correct (reads : List PortRead) (keyboard : Keyboard) : Prop where
  pressed : ∀ key, keyPressed keyboard key = held reads key
  shift : keyboard.shiftActive = shiftHeld reads
  control : keyboard.controlActive = held reads keyLeftControl
  event :
    ∀ event ∈ keyboard.event,
      event.shifted = shiftHeld reads ∧
        event.control = held reads keyLeftControl ∧
        event.ascii.isSome

/-- The keyboard is correct after every call. -/
def CorrectThroughout (reads : List PortRead) : Prop :=
  ∀ front back keyboard,
    reads = front ++ back →
    Run Call Keyboard.released front keyboard →
    Correct front keyboard

/--
A code of the tables that does not change a flag wrongly: releasing a shift
key leaves no other one held, and another key that passes the test of a flag
is pressed or released as the flag is already.
-/
structure Unambiguous (al : Byte) (keyboard : Keyboard) : Prop where
  inTable : (keyOf al).toNat < scancodeToAscii.length
  leftShift :
    keyOf al = keyLeftShift →
    isMake al = false →
    keyPressed keyboard keyRightShift = false
  rightShift :
    keyOf al = keyRightShift →
    isMake al = false →
    keyPressed keyboard keyLeftShift = false
  otherShift :
    keyOf al ≠ keyLeftShift →
    keyOf al ≠ keyRightShift →
    testsShift al = true →
    keyboard.shiftActive = isMake al
  otherControl :
    keyOf al ≠ keyLeftControl →
    testsControl al = true →
    keyboard.controlActive = isMake al

/-- A call that reads `0xE0` or an unambiguous code. -/
def ReadsUnambiguous (read : PortRead) (keyboard : Keyboard) : Prop :=
  ∀ al ∈ read.code?, Unambiguous al keyboard

/-! ## One call -/

/-- The keys pass their own tests. -/
theorem tests_own (al : Byte) :
    (keyOf al = keyLeftShift → testsShift al = true) ∧
      (keyOf al = keyRightShift → testsShift al = true) ∧
      (keyOf al = keyLeftControl → testsControl al = true) := by
  revert al
  decide +kernel

/-- A further plain code is the last one of its key. -/
theorem held_code
    (reads : List PortRead)
    {al : Byte}
    (plain : al ≠ keyAlternate) :
    held (reads ++ [.code al plain]) =
      Function.update (held reads) (keyOf al) (isMake al) := by
  have codes :
      plainCodes (reads ++ [.code al plain]) = plainCodes reads ++ [al] :=
    List.filterMap_append
  unfold held
  rw [codes]
  exact lastValue_snoc keyOf isMake _ _ al

/-- The successor of `0xE0` does not count. -/
theorem held_alternate
    (reads : List PortRead)
    (successor : Byte) :
    held (reads ++ [.alternate successor]) = held reads := by
  have codes :
      plainCodes (reads ++ [.alternate successor]) = plainCodes reads := by
    rw [plainCodes, List.filterMap_append]
    exact List.append_nil _
  unfold held
  rw [codes]

/-- Both tables have one character for each key up to the space bar. -/
theorem length_scancodeToAsciiShifted :
    scancodeToAsciiShifted.length = scancodeToAscii.length :=
  rfl

section Calls

variable
  {reads : List PortRead}
  {keyboard : Keyboard}
  {al : Byte}

/-- The map of the keys is right after every code. -/
theorem Correct.keyPressed_handleCode
    (correct : Correct reads keyboard)
    (plain : al ≠ keyAlternate)
    (key : Byte) :
    keyPressed (handleCode keyboard al) key =
      held (reads ++ [.code al plain]) key := by
  have keymap : keyboard.keymap = held reads :=
    funext correct.pressed
  rw [held_code]
  show Function.update keyboard.keymap (keyOf al) (isMake al) key = _
  rw [keymap]

/-- When the shift flag is right after a code. -/
theorem Correct.shift_handleCode_iff
    (correct : Correct reads keyboard)
    (plain : al ≠ keyAlternate) :
    (handleCode keyboard al).shiftActive =
        shiftHeld (reads ++ [.code al plain]) ↔
      (keyOf al = keyLeftShift →
        isMake al = false →
        keyPressed keyboard keyRightShift = false) ∧
      (keyOf al = keyRightShift →
        isMake al = false →
        keyPressed keyboard keyLeftShift = false) ∧
      (keyOf al ≠ keyLeftShift →
        keyOf al ≠ keyRightShift →
        testsShift al = true →
        keyboard.shiftActive = isMake al) := by
  obtain ⟨ownLeft, ownRight, _⟩ := tests_own al
  have apart : keyLeftShift ≠ keyRightShift := by decide
  have before := correct.shift
  have flag :
      (handleCode keyboard al).shiftActive =
        if testsShift al then isMake al else keyboard.shiftActive :=
    rfl
  rw [flag, shiftHeld, held_code, correct.pressed, correct.pressed]
  by_cases left : keyOf al = keyLeftShift
  · rw [if_pos (ownLeft left), left, Function.update_self,
      Function.update_of_ne apart.symm]
    cases isMake al <;> cases held reads keyRightShift <;> simp [apart]
  · by_cases right : keyOf al = keyRightShift
    · rw [if_pos (ownRight right), right, Function.update_self,
        Function.update_of_ne apart]
      cases isMake al <;> cases held reads keyLeftShift <;>
        simp [apart.symm]
    · rw [Function.update_of_ne (Ne.symm left),
        Function.update_of_ne (Ne.symm right), ← shiftHeld, ← before]
      by_cases test : testsShift al = true
      · rw [if_pos test]
        constructor
        · intro same
          exact ⟨fun this => (left this).elim,
            fun this => (right this).elim, fun _ _ _ => same.symm⟩
        · rintro ⟨_, _, other⟩
          exact (other left right test).symm
      · rw [if_neg test]
        constructor
        · intro _
          exact ⟨fun this => (left this).elim,
            fun this => (right this).elim,
            fun _ _ passes => (test passes).elim⟩
        · intro _
          rfl

/-- When the control flag is right after a code. -/
theorem Correct.control_handleCode_iff
    (correct : Correct reads keyboard)
    (plain : al ≠ keyAlternate) :
    (handleCode keyboard al).controlActive =
        held (reads ++ [.code al plain]) keyLeftControl ↔
      (keyOf al ≠ keyLeftControl →
        testsControl al = true →
        keyboard.controlActive = isMake al) := by
  obtain ⟨_, _, own⟩ := tests_own al
  have before := correct.control
  have flag :
      (handleCode keyboard al).controlActive =
        if testsControl al then isMake al else keyboard.controlActive :=
    rfl
  rw [flag, held_code]
  by_cases this : keyOf al = keyLeftControl
  · rw [if_pos (own this), this, Function.update_self]
    simp
  · rw [Function.update_of_ne (Ne.symm this), ← before]
    by_cases test : testsControl al = true
    · rw [if_pos test]
      constructor
      · intro same _ _
        exact same.symm
      · intro other
        exact (other this test).symm
    · rw [if_neg test]
      constructor
      · intro _ _ passes
        exact (test passes).elim
      · intro _
        rfl

/-- The character of an event is one of a table for the keys of the tables. -/
theorem ascii_handleCode_iff (keyboard : Keyboard) (al : Byte) :
    (∀ event ∈ (handleCode keyboard al).event, event.ascii.isSome) ↔
      (keyOf al).toNat < scancodeToAscii.length := by
  have inTable (shifted : Bool) (index : Nat) :
      (if shifted then scancodeToAsciiShifted
          else scancodeToAscii)[index]?.isSome ↔
        index < scancodeToAscii.length := by
    rw [isSome_getElem?]
    cases shifted with
    | false =>
        rfl
    | true =>
        rw [← length_scancodeToAsciiShifted]
        rfl
  constructor
  · intro made
    exact (inTable _ _).mp (made _ rfl)
  · intro inside event made
    obtain rfl := Option.some.inj made
    exact (inTable _ _).mpr inside

/-- A code keeps the keyboard correct exactly when it is unambiguous. -/
theorem Correct.code_iff
    (correct : Correct reads keyboard)
    (plain : al ≠ keyAlternate) :
    Correct (reads ++ [.code al plain]) (handleCode keyboard al) ↔
      Unambiguous al keyboard := by
  have shift := correct.shift_handleCode_iff plain
  have control := correct.control_handleCode_iff plain
  have ascii := ascii_handleCode_iff keyboard al
  constructor
  · intro after
    obtain ⟨leftShift, rightShift, otherShift⟩ := shift.mp after.shift
    exact
      { inTable := ascii.mp fun event made => (after.event event made).2.2
        leftShift := leftShift
        rightShift := rightShift
        otherShift := otherShift
        otherControl := control.mp after.control }
  · intro unambiguous
    have shifted :=
      shift.mpr
        ⟨unambiguous.leftShift, unambiguous.rightShift,
          unambiguous.otherShift⟩
    have controlled := control.mpr unambiguous.otherControl
    refine ⟨correct.keyPressed_handleCode plain, shifted, controlled, ?_⟩
    intro event made
    refine ⟨?_, ?_, ascii.mpr unambiguous.inTable event made⟩
    · rw [← shifted]
      obtain rfl := Option.some.inj made
      rfl
    · rw [← controlled]
      obtain rfl := Option.some.inj made
      rfl

/-- `0xE0` and its successor keep the keyboard correct. -/
theorem Correct.alternate
    (correct : Correct reads keyboard)
    (successor : Byte) :
    Correct (reads ++ [.alternate successor])
      { keyboard with event := none } := by
  have same := held_alternate reads successor
  refine ⟨?_, ?_, ?_, ?_⟩
  · rw [same]
    exact correct.pressed
  · rw [shiftHeld, same]
    exact correct.shift
  · rw [same]
    exact correct.control
  · intro event made
    simp at made

/-- A call keeps the keyboard correct exactly when it reads no other code. -/
theorem Correct.call_iff
    (correct : Correct reads keyboard)
    {read : PortRead}
    {after : Keyboard}
    (call : Call read keyboard after) :
    Correct (reads ++ [read]) after ↔ ReadsUnambiguous read keyboard := by
  cases read with
  | alternate successor =>
      rw [call_alternate_iff.mp call]
      constructor
      · intro _ al none
        simp [PortRead.code?] at none
      · intro _
        exact correct.alternate successor
  | code al plain =>
      rw [call_code_iff.mp call, correct.code_iff plain]
      constructor
      · intro unambiguous other read
        obtain rfl := Option.some.inj read
        exact unambiguous
      · intro unambiguous
        exact unambiguous al rfl

end Calls

/-! ## Runs -/

/-- Before the first call, no key is held. -/
theorem correct_released : Correct [] Keyboard.released := by
  refine ⟨fun _ => rfl, rfl, rfl, ?_⟩
  intro event made
  simp [Keyboard.released] at made

/-- The calls end in one state. -/
theorem run_call_unique
    {start after other : Keyboard}
    {reads : List PortRead}
    (run : Run Call start reads after)
    (again : Run Call start reads other) :
    after = other := by
  refine Run.unique ?_ run again
  intro read before first second call callAgain
  exact (call_existsUnique read before).unique call callAgain

/-- The state after unambiguous calls, and after each call before. -/
theorem correctThroughout_of_guarded
    {reads : List PortRead}
    {final : Keyboard}
    (run :
      Run (Guarded ReadsUnambiguous Call) Keyboard.released reads final) :
    CorrectThroughout reads ∧ Run Call Keyboard.released reads final ∧
      Correct reads final := by
  induction run with
  | nil =>
      refine ⟨?_, .nil, correct_released⟩
      intro front back keyboard split start
      obtain ⟨rfl, _⟩ := List.append_eq_nil_iff.mp split.symm
      rw [← run_call_unique .nil start]
      exact correct_released
  | @snoc reads read before after _ stepped inductionHypothesis =>
      obtain ⟨throughout, earlier, correct⟩ := inductionHypothesis
      have now := (correct.call_iff stepped.2).mpr stepped.1
      have whole := earlier.snoc stepped.2
      refine ⟨?_, whole, now⟩
      intro front back keyboard split start
      rcases List.eq_nil_or_concat back with rfl | ⟨others, last, rfl⟩
      · rw [List.append_nil] at split
        subst split
        rw [← run_call_unique whole start]
        exact now
      · rw [List.concat_eq_append, ← List.append_assoc] at split
        obtain ⟨same, _⟩ := List.append_inj' split rfl
        exact throughout front others keyboard same start

/-- Every list of reads is one of calls. -/
theorem exists_run (reads : List PortRead) :
    ∃ final, Run Call Keyboard.released reads final := by
  induction reads using List.reverseRecOn with
  | nil =>
      exact ⟨_, .nil⟩
  | append_singleton reads read inductionHypothesis =>
      obtain ⟨before, run⟩ := inductionHypothesis
      obtain ⟨after, call, _⟩ := call_existsUnique read before
      exact ⟨after, run.snoc call⟩

/-- A keyboard that stays correct reads unambiguous codes. -/
theorem guarded_of_correctThroughout
    {reads : List PortRead}
    {final : Keyboard}
    (run : Run Call Keyboard.released reads final)
    (throughout : CorrectThroughout reads) :
    Run (Guarded ReadsUnambiguous Call) Keyboard.released reads final := by
  induction run with
  | nil =>
      exact .nil
  | @snoc reads read before after earlier stepped inductionHypothesis =>
      have here := throughout reads [read] before rfl earlier
      have behind :=
        throughout (reads ++ [read]) [] after (List.append_nil _).symm
          (earlier.snoc stepped)
      refine
        (inductionHypothesis ?_).snoc
          ⟨(here.call_iff stepped).mp behind, stepped⟩
      intro front back keyboard split start
      refine throughout front (back ++ [read]) keyboard ?_ start
      rw [split, List.append_assoc]

/--
The keyboard is correct after every call exactly when every call reads `0xE0`
or an unambiguous code.
-/
theorem kbh_correctThroughout_iff (reads : List PortRead) :
    CorrectThroughout reads ↔
      ∃ final,
        Run (Guarded ReadsUnambiguous Call) Keyboard.released reads
          final := by
  constructor
  · intro throughout
    obtain ⟨final, run⟩ := exists_run reads
    exact ⟨final, guarded_of_correctThroughout run throughout⟩
  · rintro ⟨final, run⟩
    exact (correctThroughout_of_guarded run).1

/-- The C key is pressed. -/
def pressesC : PortRead :=
  .code 0x2E (by decide)

/-- Pressing C sets the shift flag. -/
theorem kbh_correctThroughout_fails :
    ¬∀ reads, CorrectThroughout reads := by
  intro throughout
  have run :
      Run Call Keyboard.released ([] ++ [pressesC])
        (handleCode Keyboard.released 0x2E) :=
    Run.nil.snoc (call_code_iff.mpr rfl)
  have correct := throughout _ _ [] _ (List.append_nil _).symm run
  have shift :
      (handleCode Keyboard.released 0x2E).shiftActive ≠
        shiftHeld ([] ++ [pressesC]) := by
    decide
  exact shift correct.shift

end HobbyOS
