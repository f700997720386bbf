import Mathlib.Data.Fintype.Card
import HobbyOS.Keyboard.Delivery

namespace HobbyOS

open Library

/-!
# Interrupts that nobody ends

`keyboard_handler` ends its interrupt, `default_interrupt_handler` does not.
The kernel enables, disables and masks lines at any time, as
`pit_start_counter` does with the line of the timer.  An interrupt gate keeps
other interrupts out until the handler returns.
-/

/-- The machine, with the lines that a handler left without an end. -/
structure KernelSystem where
  interrupts : InterruptSystem
  running : Option Gate
  unended : List CascadedLine

/-- What happens, in any order. -/
inductive KernelEvent where
  | pic (event : PicEvent)
  | accept (line : CascadedLine)
  | iret

/-- A call of the kernel, or what a device does. -/
def IsOutside : PicEvent → Prop
  | .eoi _ | .accept _ => False
  | _ => True

/-- One step of the machine. -/
def KernelStep
    (idtr : Idtr)
    (keyboardHandler : PtrT) :
    KernelEvent → KernelSystem → KernelSystem → Prop
  | .pic event, before, after =>
      IsOutside event ∧
        ∃ pics,
          PicStep event before.interrupts.pics pics ∧
            after =
              { before with interrupts := { before.interrupts with pics } }
  | .accept line, before, after =>
      before.running = none ∧
        before.interrupts.pics.pending = some line ∧
          ∃ gate,
            dispatch idtr before.interrupts line = some gate ∧
              after =
                { interrupts :=
                    { before.interrupts with
                      pics := before.interrupts.pics.acknowledge line }
                  running := some gate
                  unended :=
                    if gate.offset = keyboardHandler then
                      before.unended
                    else
                      line :: before.unended }
  | .iret, before, after =>
      ∃ gate,
        before.running = some gate ∧
          after =
            { before with
              interrupts :=
                { before.interrupts with
                  pics :=
                    if gate.offset = keyboardHandler then
                      picPerform before.interrupts.pics (picEoi 1)
                    else
                      before.interrupts.pics }
              running := none }

/-- Nothing runs, and no line was left without an end. -/
def allEnded (interrupts : InterruptSystem) : KernelSystem where
  interrupts := interrupts
  running := none
  unended := []

/--
A line that was not ended silences every line that is not above it.  So at
most eight lines are left without an end.  As long as none of them is the
keyboard or above it, the keyboard's request is what the controllers deliver,
or a request above it is.
-/
structure Silences (state : KernelSystem) : Prop where
  above :
    ∀ line,
      state.interrupts.pics.pending = some line →
      ∀ other ∈ state.unended, firstLine line < firstLine other
  bounded : state.unended.length ≤ 8
  keyboard :
    state.running = none →
    requested state.interrupts.pics = true →
    picMasked state.interrupts.pics keyboardLine = false →
    (∀ other ∈ state.unended, firstLine keyboardLine < firstLine other) →
      ∃ line,
        state.interrupts.pics.pending = some line ∧
          (line = keyboardLine ∨ firstLine line < firstLine keyboardLine)

/-! ## Steps -/

/-- The lines in service. -/
def KernelSystem.served
    (keyboardHandler : PtrT)
    (state : KernelSystem) :
    List CascadedLine :=
  match state.running with
  | some gate =>
      if gate.offset = keyboardHandler then
        keyboardLine :: state.unended
      else
        state.unended
  | none => state.unended

/-- What every step keeps. -/
structure KernelInvariant
    (idtr : Idtr)
    (handlers : IdtHandlers)
    (keyboardHandler : PtrT)
    (state : KernelSystem) :
    Prop where
  realizes :
    RealizesMap idtr 0x20 (0x20 + 8)
      { masks := picMasked state.interrupts.pics
        handlers := (keyboardMap handlers keyboardHandler).handlers }
      state.interrupts
  inService :
    InService ⟨state.interrupts.pics, state.served keyboardHandler⟩

section Steps

variable
  {idtr : Idtr}
  {handlers : IdtHandlers}
  {keyboardHandler : PtrT}
  {before after : KernelSystem}

/-- The table stays behind every step of the controllers. -/
theorem KernelInvariant.realizes_step
    {pics : CascadedControllers}
    (invariant : KernelInvariant idtr handlers keyboardHandler before)
    (event : PicEvent)
    (stepped : PicStep event before.interrupts.pics pics) :
    RealizesMap idtr 0x20 (0x20 + 8)
      { masks := picMasked pics
        handlers := (keyboardMap handlers keyboardHandler).handlers }
      { before.interrupts with pics := pics } := by
  have programmed := invariant.realizes.programmed.step stepped
  exact
    ⟨⟨programmed.first, programmed.second, rfl⟩, invariant.realizes.table⟩

/-- The other lines have the handler that ends nothing. -/
theorem handlers_keyboardMap_of_ne
    (handlers : IdtHandlers)
    (keyboardHandler : PtrT)
    {line : CascadedLine}
    {vector : Fin 256}
    (number : vector.val = 0x20 + lineNumber line)
    (other : line ≠ keyboardLine) :
    (keyboardMap handlers keyboardHandler).handlers vector =
      handlers.defaultInterruptHandler := by
  have notKeyboard : vector ≠ 0x21 := by
    rintro rfl
    have one : lineNumber line = 1 := by
      have isKeyboard : (0x21 : Fin 256).val = 0x21 := rfl
      omega
    cases line with
    | master line =>
        exact other (congrArg CascadedLine.master (Fin.ext one))
    | slave line =>
        have behind : 8 + line.val = 1 := one
        omega
  dsimp only [keyboardMap]
  rw [Function.update_of_ne notKeyboard]
  exact initialHandler_default handlers (by omega)

/-- Only the keyboard reaches the handler of the keyboard. -/
theorem KernelInvariant.delivered
    {line : CascadedLine}
    {gate : Gate}
    (invariant : KernelInvariant idtr handlers keyboardHandler before)
    (other : handlers.defaultInterruptHandler ≠ keyboardHandler)
    (isPending : before.interrupts.pics.pending = some line)
    (taken : dispatch idtr before.interrupts line = some gate) :
    gate.offset = keyboardHandler ↔ line = keyboardLine := by
  obtain ⟨_, vector, number, reached⟩ :=
    (invariant.realizes.dispatches (by decide) (by decide)).delivered line
      isPending
  rw [taken, Option.some.injEq] at reached
  subst reached
  by_cases isKeyboard : line = keyboardLine
  · subst isKeyboard
    obtain rfl : vector = 0x21 := Fin.ext number
    exact iff_of_true (handlers_keyboardMap handlers keyboardHandler) rfl
  · refine iff_of_false ?_ isKeyboard
    intro same
    exact
      other
        ((handlers_keyboardMap_of_ne handlers keyboardHandler number
          isKeyboard).symm.trans same)

/-- A step outside of the handlers. -/
theorem KernelInvariant.pic
    {event : PicEvent}
    {pics : CascadedControllers}
    (invariant : KernelInvariant idtr handlers keyboardHandler before)
    (outside : IsOutside event)
    (stepped : PicStep event before.interrupts.pics pics) :
    KernelInvariant idtr handlers keyboardHandler
      { before with interrupts := { before.interrupts with pics } } where
  realizes := invariant.realizes_step event stepped
  inService := by
    have served :
        ServeStep event
          ⟨before.interrupts.pics, before.served keyboardHandler⟩
          ⟨pics, before.served keyboardHandler⟩ := by
      cases event with
      | eoi _ =>
          exact outside.elim
      | accept _ =>
          exact outside.elim
      | _ =>
          exact ⟨stepped, rfl⟩
    exact invariant.inService.step invariant.realizes.programmed served

/-- The processor enters a handler. -/
theorem KernelInvariant.accept
    {line : CascadedLine}
    {gate : Gate}
    (invariant : KernelInvariant idtr handlers keyboardHandler before)
    (other : handlers.defaultInterruptHandler ≠ keyboardHandler)
    (idle : before.running = none)
    (isPending : before.interrupts.pics.pending = some line)
    (taken : dispatch idtr before.interrupts line = some gate) :
    KernelInvariant idtr handlers keyboardHandler
      { interrupts :=
          { before.interrupts with
            pics := before.interrupts.pics.acknowledge line }
        running := some gate
        unended :=
          if gate.offset = keyboardHandler then
            before.unended
          else
            line :: before.unended } where
  realizes := invariant.realizes_step (.accept line) ⟨isPending, rfl⟩
  inService := by
    have inService := invariant.inService
    have delivered := invariant.delivered other isPending taken
    rw [KernelSystem.served, idle] at inService
    have accepted :=
      inService.step invariant.realizes.programmed
        (show ServeStep (.accept line) _ ⟨_, _⟩ from
          ⟨⟨isPending, rfl⟩, rfl⟩)
    dsimp only [KernelSystem.served]
    by_cases isKeyboard : gate.offset = keyboardHandler
    · obtain rfl := delivered.mp isKeyboard
      rw [if_pos isKeyboard, if_pos isKeyboard]
      exact accepted
    · rw [if_neg isKeyboard, if_neg isKeyboard]
      exact accepted

/-- The handler returns. -/
theorem KernelInvariant.iret
    {gate : Gate}
    (invariant : KernelInvariant idtr handlers keyboardHandler before)
    (running : before.running = some gate) :
    KernelInvariant idtr handlers keyboardHandler
      { before with
        interrupts :=
          { before.interrupts with
            pics :=
              if gate.offset = keyboardHandler then
                picPerform before.interrupts.pics (picEoi 1)
              else
                before.interrupts.pics }
        running := none } := by
  have inService := invariant.inService
  rw [KernelSystem.served, running] at inService
  dsimp only at inService
  by_cases isKeyboard : gate.offset = keyboardHandler
  · rw [if_pos isKeyboard] at inService ⊢
    exact
      { realizes := invariant.realizes_step (.eoi 1) rfl
        inService :=
          inService.step invariant.realizes.programmed
            (show ServeStep (.eoi 1) _ ⟨_, _⟩ from
              ⟨rfl, keyboardLine, picLine?_one, rfl⟩) }
  · rw [if_neg isKeyboard] at inService ⊢
    exact { realizes := invariant.realizes, inService := inService }

/-- Every step keeps the invariant. -/
theorem KernelInvariant.step
    {event : KernelEvent}
    (invariant : KernelInvariant idtr handlers keyboardHandler before)
    (other : handlers.defaultInterruptHandler ≠ keyboardHandler)
    (stepped : KernelStep idtr keyboardHandler event before after) :
    KernelInvariant idtr handlers keyboardHandler after := by
  cases event with
  | pic event =>
      obtain ⟨outside, pics, stepped, rfl⟩ := stepped
      exact invariant.pic outside stepped
  | accept line =>
      obtain ⟨idle, isPending, gate, taken, rfl⟩ := stepped
      exact invariant.accept other idle isPending taken
  | iret =>
      obtain ⟨gate, running, rfl⟩ := stepped
      exact invariant.iret running

/-- The lines without an end are among those in service. -/
theorem KernelSystem.unended_sublist
    (keyboardHandler : PtrT)
    (state : KernelSystem) :
    state.unended.Sublist (state.served keyboardHandler) := by
  unfold KernelSystem.served
  split
  · split
    · exact List.sublist_cons_self keyboardLine state.unended
    · exact List.Sublist.refl _
  · exact List.Sublist.refl _

/-- The lines in service are in front of each other at the first controller. -/
theorem InService.length_le
    {state : ServedLines}
    (inService : InService state) :
    state.served.length ≤ 8 := by
  have distinct : (state.served.map firstLine).Nodup :=
    List.pairwise_map.mpr (inService.nested.imp fun above => above.ne)
  have fits := distinct.length_le_card
  rw [List.length_map, Fintype.card_fin] at fits
  exact fits

/-- What is not ended silences what is below it. -/
theorem KernelInvariant.silences
    (invariant : KernelInvariant idtr handlers keyboardHandler before) :
    Silences before where
  above := by
    intro line isPending other member
    have waits := invariant.inService.waiting rfl isPending
    exact
      waits.above other
        ((KernelSystem.unended_sublist keyboardHandler before).mem member)
  bounded :=
    (KernelSystem.unended_sublist keyboardHandler before).length_le.trans
      invariant.inService.length_le
  keyboard := by
    intro idle wanted unmasked above
    have inService := invariant.inService
    rw [KernelSystem.served, idle] at inService
    have waits :
        Waiting (picMasked before.interrupts.pics)
          ⟨before.interrupts.pics, before.unended⟩ keyboardLine :=
      { requested := wanted
        unmasked := unmasked
        cascade := nofun
        above := above }
    obtain ⟨line, isPending⟩ :=
      Option.isSome_iff_exists.mp (waits.isSome_pending inService rfl)
    have deliverable :
        before.interrupts.pics.cascaded.Deliverable 1 :=
      (deliverable_cascaded_iff (by decide)).mpr
        ⟨wanted, unmasked, (inService.unblocked_iff 1).mpr above⟩
    refine ⟨line, isPending, ?_⟩
    rcases lt_or_eq_of_le (firstLine_le_of_pending isPending deliverable) with
      higher | same
    · exact Or.inr higher
    · cases line with
      | master line =>
          exact Or.inl (congrArg CascadedLine.master same)
      | slave line =>
          exact absurd (show cascadeLine = 1 from same) (by decide)

end Steps

/-- The invariant holds when `initialize_ps2` returns. -/
theorem kernelInvariant_initializeKeyboard
    {idt : PtrT}
    (placed : IdtPlaced idt)
    (irq7Handler : PtrT)
    (handlers : IdtHandlers)
    {keyboardHandler : PtrT}
    (present : keyboardHandler ≠ 0)
    (system : InterruptSystem) :
    KernelInvariant
      (initializeKeyboard idt irq7Handler handlers keyboardHandler system).2
      handlers keyboardHandler
      (allEnded
        (initializeKeyboard idt irq7Handler handlers keyboardHandler
          system).1) :=
  have start :=
    keyInvariant_initializeKeyboard placed irq7Handler handlers present system
      0
  { realizes :=
      ⟨⟨start.realizes.programmed.first, start.realizes.programmed.second,
          rfl⟩,
        start.realizes.table⟩
    inService := start.inService }

/-- A line that was not ended stays so. -/
theorem unended_suffix
    {idtr : Idtr}
    {keyboardHandler : PtrT}
    {events : List KernelEvent}
    {before after : KernelSystem}
    (ran : Run (KernelStep idtr keyboardHandler) before events after) :
    before.unended <:+ after.unended := by
  induction ran with
  | nil =>
      exact List.suffix_refl _
  | @snoc _ event _ _ _ stepped inductionHypothesis =>
      refine inductionHypothesis.trans ?_
      cases event with
      | pic event =>
          obtain ⟨_, pics, _, rfl⟩ := stepped
          exact List.suffix_refl _
      | accept line =>
          obtain ⟨_, _, gate, _, rfl⟩ := stepped
          dsimp only
          split
          · exact List.suffix_refl _
          · exact List.suffix_cons line _
      | iret =>
          obtain ⟨gate, _, rfl⟩ := stepped
          exact List.suffix_refl _

/--
From `initialize_ps2` on, with `pit_start_counter` and the other functions
that change masks in between: a line that `default_interrupt_handler` has
served silences every line that is not above it, for good.
-/
theorem unended_silences
    {idt irq7Handler keyboardHandler : PtrT}
    {handlers : IdtHandlers}
    {system : InterruptSystem}
    {earlier later : List KernelEvent}
    {middle final : KernelSystem}
    (placed : IdtPlaced idt)
    (present : keyboardHandler ≠ 0)
    (other : handlers.defaultInterruptHandler ≠ keyboardHandler)
    (ran :
      Run
        (KernelStep
          (initializeKeyboard idt irq7Handler handlers keyboardHandler
            system).2
          keyboardHandler)
        (allEnded
          (initializeKeyboard idt irq7Handler handlers keyboardHandler
            system).1)
        earlier middle)
    (goesOn :
      Run
        (KernelStep
          (initializeKeyboard idt irq7Handler handlers keyboardHandler
            system).2
          keyboardHandler)
        middle later final) :
    Silences final ∧ middle.unended <:+ final.unended := by
  have atMiddle :=
    ran.invariant _ (fun invariant => invariant.step other)
      (kernelInvariant_initializeKeyboard placed irq7Handler handlers present
        system)
  exact
    ⟨(goesOn.invariant _ (fun invariant => invariant.step other)
        atMiddle).silences,
      unended_suffix goesOn⟩

/-- A line that is delivered has a gate. -/
theorem KernelInvariant.exists_gate
    {idtr : Idtr}
    {handlers : IdtHandlers}
    {keyboardHandler : PtrT}
    {state : KernelSystem}
    (invariant : KernelInvariant idtr handlers keyboardHandler state)
    {line : CascadedLine}
    (isPending : state.interrupts.pics.pending = some line) :
    ∃ gate, dispatch idtr state.interrupts line = some gate := by
  obtain ⟨_, _, _, taken⟩ :=
    (invariant.realizes.dispatches (by decide) (by decide)).delivered line
      isPending
  exact ⟨_, taken⟩

/-- The timer is served and not ended, and then no key is. -/
theorem unended_silences_timer :
    ∃ final,
      (Silences final ∧ [.master 0] <:+ final.unended) ∧
        final.running = none ∧
          requested final.interrupts.pics = true ∧
            final.interrupts.pics.pending = none := by
  let powerOn : InterruptController := ⟨0, 0, 0, 0, 0, 0, .mask, false⟩
  let system : InterruptSystem := ⟨⟨powerOn, powerOn⟩, fun _ => 0⟩
  let made :=
    initializeKeyboard 0x20000 0x10300 twoHandlers 0x10200 system
  have wanted :=
    (Run.nil.snoc
      (show KernelStep made.2 0x10200 (.pic (.enableIrq 0))
          (allEnded made.1) _ from
        ⟨trivial, _, ⟨by decide, rfl⟩, rfl⟩)).snoc
      (show KernelStep made.2 0x10200 (.pic (.raise (.master 0))) _ _ from
        ⟨trivial, _, rfl, rfl⟩)
  have invariant :=
    wanted.invariant
      (KernelInvariant made.2 twoHandlers 0x10200)
      (fun invariant => invariant.step (by decide))
      (kernelInvariant_initializeKeyboard ⟨by decide, by decide⟩ 0x10300
        twoHandlers (by decide) system)
  obtain ⟨gate, taken⟩ :=
    invariant.exists_gate (show _ = some (.master 0) by decide)
  have notKeyboard : gate.offset ≠ 0x10200 := fun same =>
    absurd
      ((invariant.delivered (by decide) (by decide) taken).mp same)
      (by decide)
  have served :=
    (wanted.snoc
      (show KernelStep made.2 0x10200 (.accept (.master 0)) _ _ from
        ⟨rfl, by decide, gate, taken, rfl⟩)).snoc
      (show KernelStep made.2 0x10200 .iret _ _ from ⟨gate, rfl, rfl⟩)
  simp only [if_neg notKeyboard] at served
  exact
    ⟨_,
      unended_silences ⟨by decide, by decide⟩ (by decide) (by decide) served
        (Run.nil.snoc
          (show KernelStep made.2 0x10200 (.pic (.raise keyboardLine)) _ _
            from ⟨trivial, _, rfl, rfl⟩)),
      rfl, by decide, by decide⟩

end HobbyOS
