import HobbyOS.Interrupts.Exceptions
import HobbyOS.Interrupts.Nesting

namespace HobbyOS

open Library

/-!
# From a request to its handler

The controllers and the table together, as `entry` sets them up: a line that
is delivered reaches the handler that `pic_set_irq` was last given for it.
-/

/-- The controllers, and the memory that the table is in. -/
structure InterruptSystem where
  pics : CascadedControllers
  memory : Memory

/-- What happens to the controllers and to the table. -/
inductive SystemEvent where
  | pic (event : PicEvent)
  | setIrq (index : Byte) (handler : PtrT)
  | setVector (index : BitVec 32) (vect : PtrT)

/-- The call that is made. -/
def SystemEvent.call? (base0 : Byte) : SystemEvent → Option IdtCall
  | pic _ => none
  | setIrq index handler => some (picSetIrq base0 index handler)
  | setVector index vect => some (.setVector index vect)

/-- What happens to the controllers. -/
def SystemEvent.pic? : SystemEvent → Option PicEvent
  | pic event => some event
  | _ => none

/--
A step of the controllers, or a call that changes the table.  The index
`MAX_INTERRUPTS`, whose entry is behind the table, is not passed.
-/
def SystemStep
    (idt : PtrT)
    (base0 : Byte)
    (event : SystemEvent)
    (before after : InterruptSystem) :
    Prop :=
  match event with
  | .pic event =>
      PicStep event before.pics after.pics ∧ after.memory = before.memory
  | event =>
      after.pics = before.pics ∧
        ∃ call,
          event.call? base0 = some call ∧ ¬call.PassesEnd ∧
            after.memory = (call.apply idt ⟨before.memory, []⟩).memory

/-- `initialize_pic` and `initialize_idt`, as `entry` calls them. -/
def initializeInterrupts
    (idt : PtrT)
    (base0 base1 : Byte)
    (irq7Handler : PtrT)
    (handlers : IdtHandlers)
    (system : InterruptSystem) :
    InterruptSystem × Idtr :=
  let log :=
    (initializePicCall base0 irq7Handler).apply idt ⟨system.memory, []⟩
  let table := initializeIdt idt log 0x8 handlers
  ({ pics := picPerform system.pics (initializePic base0 base1)
     memory := table.1.memory },
    table.2)

/-- The gate through which the processor takes a line. -/
def dispatch
    (idtr : Idtr)
    (system : InterruptSystem)
    (line : CascadedLine) :
    Option Gate :=
  gates idtr system.memory (system.pics.vector line).toFin

/-! ## The table as a map -/

/-- The number of a line in `pic_set_irq`. -/
def lineNumber : CascadedLine → Nat
  | .master line => line.val
  | .slave line => 8 + line.val

/-- The lines that are masked, and the handlers of the vectors. -/
structure InterruptMap where
  masks : PicMasks
  handlers : Fin 256 → PtrT

/-- What an event does to the map. -/
def mapStep
    (base0 : Byte)
    (map : InterruptMap)
    (event : SystemEvent) :
    InterruptMap where
  masks :=
    match event.pic? with
    | some event => maskStep map.masks event
    | none => map.masks
  handlers :=
    match (event.call? base0).bind installation? with
    | some installed =>
        Function.update map.handlers installed.vector installed.handler
    | none => map.handlers

/-- Everything is masked, and every vector has its first handler. -/
def initialMap (handlers : IdtHandlers) : InterruptMap where
  masks := fun _ => true
  handlers := initialHandler handlers

/-- The system does what the map says. -/
structure RealizesMap
    (idtr : Idtr)
    (base0 base1 : Byte)
    (map : InterruptMap)
    (system : InterruptSystem) :
    Prop where
  programmed : PicProgrammed base0 base1 map.masks system.pics
  table :
    ∀ vector,
      gates idtr system.memory vector =
        some { selector := 0x8, offset := map.handlers vector }

/--
A line is delivered only if it is not masked, and then the processor takes the
handler of its number, counted from the base; an exception takes its own.
-/
structure Dispatches
    (idtr : Idtr)
    (base0 : Byte)
    (map : InterruptMap)
    (system : InterruptSystem) :
    Prop where
  delivered :
    ∀ line,
      system.pics.pending = some line →
      map.masks line = false ∧
        ∃ vector : Fin 256,
          vector.val = base0.toNat + lineNumber line ∧
            dispatch idtr system line =
              some { selector := 0x8, offset := map.handlers vector }
  exceptions :
    ∀ i : Fin 19,
      gates idtr system.memory (exceptionVector i) =
        some { selector := 0x8, offset := map.handlers (exceptionVector i) }

/-! ## Vectors of lines -/

/-- The vectors of a controller start at a base that is a multiple of eight. -/
theorem toNat_vector
    {base : Byte}
    {controller : InterruptController}
    (programmed : Programmed base controller)
    (aligned : base &&& 7 = 0)
    (line : Fin 8) :
    (controller.vector line).toNat = base.toNat + line.val := by
  have vectors :
      ∀ (base : Byte) (line : Fin 8),
        base &&& 7 = 0 →
        ((base &&& 0xF8) ||| BitVec.ofNat 8 line.val).toNat =
          base.toNat + line.val := by
    decide +kernel
  rw [InterruptController.vector, programmed.base]
  exact vectors base line aligned

/-- The vectors of both controllers, one behind the other. -/
theorem PicProgrammed.toNat_vector
    {base0 : Byte}
    {masks : PicMasks}
    {pics : CascadedControllers}
    (programmed : PicProgrammed base0 (base0 + 8) masks pics)
    (aligned : base0 &&& 7 = 0)
    (room : base0.toNat + 16 ≤ 256)
    (line : CascadedLine) :
    (pics.vector line).toNat = base0.toNat + lineNumber line := by
  have next : (base0 + 8).toNat = base0.toNat + 8 := by
    rw [BitVec.toNat_add]
    exact Nat.mod_eq_of_lt (show base0.toNat + 8 < 2 ^ 8 by omega)
  cases line with
  | master line =>
      exact HobbyOS.toNat_vector programmed.first aligned line
  | slave line =>
      have second : base0 + 8 &&& 7 = 0 := by
        have alignments :
            ∀ base : Byte, base &&& 7 = 0 → base + 8 &&& 7 = 0 := by
          decide +kernel
        exact alignments base0 aligned
      have vector := HobbyOS.toNat_vector programmed.second second line
      rw [next] at vector
      exact vector.trans (Nat.add_assoc _ _ _)

/-! ## Runs -/

section Runs

variable
  {idtr : Idtr}
  {base0 base1 : Byte}
  {map : InterruptMap}
  {before after : InterruptSystem}

/-- The calls of the map pass the flags and the selector of the kernel. -/
theorem SystemEvent.call_flags
    {event : SystemEvent}
    {call : IdtCall}
    (made : event.call? base0 = some call) :
    call.flags = vectorFlags ∧ call.selector = 0x8 := by
  cases event with
  | pic =>
      cases made
  | setIrq index handler =>
      obtain rfl := Option.some.inj made
      exact ⟨rfl, rfl⟩
  | setVector index vect =>
      obtain rfl := Option.some.inj made
      exact ⟨rfl, rfl⟩

/-- A call does to the gates what it does to the map. -/
theorem RealizesMap.call
    {call : IdtCall}
    (realizes : RealizesMap idtr base0 base1 map before)
    (placed : IdtPlaced idtr.base)
    (whole : 8 * 256 ≤ idtr.size.toNat + 1)
    (flags : call.flags = vectorFlags ∧ call.selector = 0x8)
    (stops : ¬call.PassesEnd)
    (vector : Fin 256) :
    gates idtr (call.apply idtr.base ⟨before.memory, []⟩).memory vector =
      some
        { selector := 0x8
          offset :=
            (match installation? call with
              | some installed =>
                  Function.update map.handlers installed.vector
                    installed.handler
              | none => map.handlers)
              vector } := by
  by_cases accepted : call.Accepted
  · have installs :
        installation? call =
          some
            { vector := ⟨call.index.toNat, accepted.1⟩
              handler := call.handler } :=
      dif_pos accepted
    rw [installs, accepted.gates placed whole flags.1, flags.2]
    dsimp only
    rw [Function.update_apply, Function.update_apply]
    split
    · rfl
    · exact realizes.table vector
  · have installs : installation? call = none := dif_neg accepted
    rw [installs, IdtCall.apply_of_not_accepted accepted stops]
    exact realizes.table vector

/-- The system follows the map. -/
theorem RealizesMap.step
    {event : SystemEvent}
    (realizes : RealizesMap idtr base0 base1 map before)
    (placed : IdtPlaced idtr.base)
    (whole : 8 * 256 ≤ idtr.size.toNat + 1)
    (stepped : SystemStep idtr.base base0 event before after) :
    RealizesMap idtr base0 base1 (mapStep base0 map event) after := by
  cases event with
  | pic event =>
      obtain ⟨stepped, memory⟩ := stepped
      refine ⟨realizes.programmed.step stepped, fun vector => ?_⟩
      rw [memory]
      exact realizes.table vector
  | setIrq index handler =>
      obtain ⟨pics, call, made, stops, memory⟩ := stepped
      have flags := SystemEvent.call_flags made
      obtain rfl := Option.some.inj made
      refine ⟨?_, fun vector => ?_⟩
      · rw [pics]
        exact realizes.programmed
      · rw [memory]
        exact realizes.call placed whole flags stops vector
  | setVector index vect =>
      obtain ⟨pics, call, made, stops, memory⟩ := stepped
      have flags := SystemEvent.call_flags made
      obtain rfl := Option.some.inj made
      refine ⟨?_, fun vector => ?_⟩
      · rw [pics]
        exact realizes.programmed
      · rw [memory]
        exact realizes.call placed whole flags stops vector

/-- The steps of a run, one after the other. -/
theorem RealizesMap.run
    {events : List SystemEvent}
    (realizes : RealizesMap idtr base0 base1 map before)
    (placed : IdtPlaced idtr.base)
    (whole : 8 * 256 ≤ idtr.size.toNat + 1)
    (ran : Run (SystemStep idtr.base base0) before events after) :
    RealizesMap idtr base0 base1 (events.foldl (mapStep base0) map) after := by
  induction ran with
  | nil =>
      exact realizes
  | snoc _ stepped inductionHypothesis =>
      rw [List.foldl_append]
      exact inductionHypothesis.step placed whole stepped

/-- What `entry` sets up is the first map. -/
theorem realizesMap_initializeInterrupts
    {idt : PtrT}
    (placed : IdtPlaced idt)
    (base0 base1 : Byte)
    (irq7Handler : PtrT)
    (handlers : IdtHandlers)
    (system : InterruptSystem) :
    RealizesMap
      (initializeInterrupts idt base0 base1 irq7Handler handlers system).2
      base0 base1 (initialMap handlers)
      (initializeInterrupts idt base0 base1 irq7Handler handlers
        system).1 := by
  have table :=
    gates_initializeIdt placed
      ((initializePicCall base0 irq7Handler).apply idt ⟨system.memory, []⟩)
      0x8 handlers
  dsimp only [initializeInterrupts]
  -- the loops of `initialize_idt` are not unfolded any more
  generalize initializeIdt idt _ 0x8 handlers = made at table ⊢
  exact ⟨programmed_initializePic base0 base1 system.pics, table⟩

/-- Lines that are delivered reach their handlers. -/
theorem RealizesMap.dispatches
    (realizes : RealizesMap idtr base0 (base0 + 8) map before)
    (aligned : base0 &&& 7 = 0)
    (room : base0.toNat + 16 ≤ 256) :
    Dispatches idtr base0 map before where
  delivered := by
    intro line isPending
    exact
      ⟨(realizes.programmed.serves.delivers line isPending).1,
        (before.pics.vector line).toFin,
        realizes.programmed.toNat_vector aligned room line,
        realizes.table _⟩
  exceptions := fun _ => realizes.table _

end Runs

/--
From `entry` on: whatever the controllers and the table held before, a line
that is delivered reaches the handler that was last given to its number.
-/
theorem initializeInterrupts_dispatches
    {idt : PtrT}
    {base0 : Byte}
    {irq7Handler : PtrT}
    {handlers : IdtHandlers}
    {system final : InterruptSystem}
    {events : List SystemEvent}
    (placed : IdtPlaced idt)
    (aligned : base0 &&& 7 = 0)
    (room : base0.toNat + 16 ≤ 256)
    (ran :
      Run (SystemStep idt base0)
        (initializeInterrupts idt base0 (base0 + 8) irq7Handler handlers
          system).1
        events final) :
    Dispatches
      (initializeInterrupts idt base0 (base0 + 8) irq7Handler handlers
        system).2
      base0 (events.foldl (mapStep base0) (initialMap handlers)) final :=
  ((realizesMap_initializeInterrupts placed base0 (base0 + 8) irq7Handler
      handlers system).run placed
    (show 8 * 256 ≤ (2047 : BitVec 16).toNat + 1 by decide) ran).dispatches
    aligned room

/-- One handler for the exceptions, and one for the rest. -/
def twoHandlers : IdtHandlers where
  errorHandlers := fun _ => 0x10100
  defaultInterruptHandler := 0x10180
  errorsPresent := fun _ => by decide
  defaultPresent := by decide

/-- A handler can be installed at any time. -/
theorem systemStep_setIrq
    {idt : PtrT}
    {base0 index : Byte}
    {handler : PtrT}
    (before : InterruptSystem)
    (stops : ¬(picSetIrq base0 index handler).PassesEnd) :
    SystemStep idt base0 (.setIrq index handler) before
      { pics := before.pics
        memory :=
          ((picSetIrq base0 index handler).apply idt
            ⟨before.memory, []⟩).memory } :=
  ⟨rfl, _, rfl, stops, rfl⟩

/-- The handler of the keyboard is installed, and its line requested. -/
theorem initializeInterrupts_dispatches_keyboard :
    ∃ (idtr : Idtr) (final : InterruptSystem),
      Dispatches idtr 0x20
        ([.setIrq 1 0x10200, .pic (.enableIrq 1),
            .pic (.raise (.master 1))].foldl
          (mapStep 0x20) (initialMap twoHandlers))
        final := by
  let powerOn : InterruptController := ⟨0, 0, 0, 0, 0, 0, .mask, false⟩
  have installed :=
    Run.nil.snoc
      (@systemStep_setIrq 0x20000 0x20 1 0x10200
        (initializeInterrupts 0x20000 0x20 (0x20 + 8) 0x10300 twoHandlers
          ⟨⟨powerOn, powerOn⟩, fun _ => 0⟩).1
        (by decide))
  have requested :=
    (installed.snoc
      (show SystemStep _ 0x20 (.pic (.enableIrq 1)) _ ⟨_, _⟩ from
        ⟨⟨by decide, rfl⟩, rfl⟩)).snoc
      (show SystemStep _ 0x20 (.pic (.raise (.master 1))) _ ⟨_, _⟩ from
        ⟨rfl, rfl⟩)
  exact
    ⟨_, _,
      initializeInterrupts_dispatches ⟨by decide, by decide⟩ (by decide)
        (by decide) requested⟩

end HobbyOS
