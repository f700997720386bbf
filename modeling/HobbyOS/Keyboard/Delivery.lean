import HobbyOS.Interrupts.Dispatch
import HobbyOS.Keyboard.Kbh

namespace HobbyOS

open Library

/-!
# From a key to the keyboard handler

The keyboard, its controller, the interrupt controllers and the processor,
after `initialize_ps2` has installed `keyboard_handler` and enabled its line.
The keyboard sends bytes at any time, and its controller puts one after the
other into the output buffer and requests an interrupt for each.  A read from
an empty buffer returns the last byte again.  Whether a request that was not
delivered is withdrawn when its byte is read depends on the machine.
-/

/--
Where the processor is: in the loop of `entry`, in `kbh` with the bytes that
were read so far, behind it, or in another handler.
-/
inductive HandlerPoint where
  | idle
  | reading (bytes : List Byte)
  | handled
  | elsewhere

/-- A byte that was read, and whether the buffer was full. -/
structure PortByte where
  value : Byte
  fresh : Bool

/-- The machine, with what the keyboard has sent and what was read. -/
structure KeySystem where
  interrupts : InterruptSystem
  output : Option Byte
  last : Byte
  queue : List Byte
  point : HandlerPoint
  keyboard : Keyboard
  sent : List Byte
  port : List PortByte
  calls : List (List Byte)

/-- What happens, in any order. -/
inductive DeliveryEvent where
  | press (byte : Byte)
  | fill
  | request (line : CascadedLine)
  | accept (line : CascadedLine)
  | read (withdraws : Bool)
  | eoi

/-- The number of the keyboard's line is one of the first controller. -/
theorem keyboardNumber_lt : 1 < 8 := by
  decide

/-- The line of the keyboard. -/
def keyboardLine : CascadedLine := .master ⟨1, keyboardNumber_lt⟩

/-- The controllers are changed. -/
def KeySystem.withPics
    (state : KeySystem)
    (pics : CascadedControllers) :
    KeySystem :=
  { state with interrupts := { state.interrupts with pics := pics } }

/-- The controllers of a state. -/
abbrev KeySystem.pics (state : KeySystem) : CascadedControllers :=
  state.interrupts.pics

/-- One `inb` of `kbh`, and the rest of it if that was the last one. -/
def readPort
    (before : KeySystem)
    (bytes : List Byte)
    (withdraws : Bool) :
    KeySystem :=
  let value := before.output.getD before.last
  let bytes := bytes ++ [value]
  let after :=
    { before.withPics
        (if withdraws then before.pics.lower keyboardLine else before.pics) with
      output := none
      last := value
      port := before.port ++ [PortByte.mk value before.output.isSome] }
  match kbh before.keyboard bytes with
  | some (keyboard, _) =>
      { after with
        point := .handled
        keyboard := keyboard
        calls := before.calls ++ [bytes] }
  | none => { after with point := .reading bytes }

/-- One step of the machine. -/
def KeyStep
    (idtr : Idtr)
    (keyboardHandler : PtrT) :
    DeliveryEvent → KeySystem → KeySystem → Prop
  | .press byte, before, after =>
      after =
        { before with
          queue := before.queue ++ [byte]
          sent := before.sent ++ [byte] }
  | .fill, before, after =>
      before.output = none ∧
        ∃ byte rest,
          before.queue = byte :: rest ∧
            after =
              { before.withPics (before.pics.raise keyboardLine) with
                output := some byte
                queue := rest }
  | .request line, before, after =>
      line ≠ keyboardLine ∧ after = before.withPics (before.pics.raise line)
  | .accept line, before, after =>
      before.point = .idle ∧
        before.pics.pending = some line ∧
          ∃ gate,
            dispatch idtr before.interrupts line = some gate ∧
              after =
                { before.withPics (before.pics.acknowledge line) with
                  point :=
                    if gate.offset = keyboardHandler then
                      .reading []
                    else
                      .elsewhere }
  | .read withdraws, before, after =>
      ∃ bytes,
        before.point = .reading bytes ∧ after = readPort before bytes withdraws
  | .eoi, before, after =>
      before.point = .handled ∧
        after =
          { before.withPics (picPerform before.pics (picEoi 1)) with
            point := .idle }

/-- The bytes of the keyboard that were read. -/
def freshBytes (port : List PortByte) : List Byte :=
  (port.filter PortByte.fresh).map PortByte.value

/-- The bytes of the call that is under way. -/
def HandlerPoint.bytes : HandlerPoint → List Byte
  | .reading bytes => bytes
  | _ => []

/-- The lines that are served. -/
def HandlerPoint.served : HandlerPoint → List CascadedLine
  | .idle => []
  | _ => [keyboardLine]

/--
Every byte of the keyboard is read once and in order, by calls of `kbh` that
do what they do on their own; nothing but the keyboard is served, and as long
as the handler does not run nothing is in service.  A keyboard that sends no
`0xE0` has each of its bytes handled by one call.
-/
structure KeysDelivered (state : KeySystem) : Prop where
  notElsewhere : state.point ≠ .elsewhere
  inService : InService ⟨state.pics, state.point.served⟩
  inOrder :
    state.sent = freshBytes state.port ++ state.output.toList ++ state.queue
  inCalls :
    state.port.map PortByte.value = state.calls.flatten ++ state.point.bytes
  handled :
    ∃ reads : List PortRead,
      state.calls = reads.map PortRead.bytes ∧
        Run Call Keyboard.released reads state.keyboard
  plain :
    keyAlternate ∉ state.sent →
      state.sent =
        state.calls.flatten ++ state.output.toList ++ state.queue

/-! ## The request of the keyboard -/

/-- The request of the keyboard. -/
def requested (pics : CascadedControllers) : Bool :=
  pics.master.requests.getLsbD 1

section Requests

variable {pics : CascadedControllers}

/-- The keyboard requests an interrupt. -/
theorem requested_raise : requested (pics.raise keyboardLine) = true := by
  have raised := @requests_raise pics.master 1 1
  rw [decide_eq_true rfl, Bool.or_true] at raised
  exact raised

/-- Another device requests an interrupt. -/
theorem requested_raise_of_ne
    {line : CascadedLine}
    (other : line ≠ keyboardLine) :
    requested (pics.raise line) = requested pics := by
  cases line with
  | master line =>
      have notKeyboard : line ≠ 1 :=
        fun same => other (congrArg CascadedLine.master same)
      have raised := @requests_raise pics.master line 1
      rw [decide_eq_false notKeyboard, Bool.or_false] at raised
      exact raised
  | slave line =>
      rfl

/-- The request is withdrawn. -/
theorem requested_lower : requested (pics.lower keyboardLine) = false := by
  have lowered := @requests_lower pics.master 1 1
  rw [decide_eq_false (not_not_intro rfl), Bool.and_false] at lowered
  exact lowered

/-- The request is delivered. -/
theorem requested_acknowledge :
    requested (pics.acknowledge keyboardLine) = false :=
  requested_lower

/-- The end of an interrupt leaves the request. -/
theorem requested_eoi :
    requested (picPerform pics (picEoi 1)) = requested pics :=
  rfl

end Requests

/-! ## Set up -/

/-- Only the line of the keyboard is enabled, and has its handler. -/
def keyboardMap
    (handlers : IdtHandlers)
    (keyboardHandler : PtrT) :
    InterruptMap where
  masks := fun line => decide (line ≠ keyboardLine)
  handlers := Function.update (initialHandler handlers) 0x21 keyboardHandler

/-- The handler of the keyboard. -/
theorem handlers_keyboardMap
    (handlers : IdtHandlers)
    (keyboardHandler : PtrT) :
    (keyboardMap handlers keyboardHandler).handlers 0x21 = keyboardHandler := by
  dsimp only [keyboardMap]
  rw [Function.update_self]

/--
The calls of `entry` and of `initialize_ps2`: `initialize_pic`,
`initialize_idt`, `pic_set_irq` and `pic_enable_irq`.
-/
def initializeKeyboard
    (idt irq7Handler : PtrT)
    (handlers : IdtHandlers)
    (keyboardHandler : PtrT)
    (system : InterruptSystem) :
    InterruptSystem × Idtr :=
  let made :=
    initializeInterrupts idt 0x20 (0x20 + 8) irq7Handler handlers system
  let log :=
    (picSetIrq 0x20 1 keyboardHandler).apply idt ⟨made.1.memory, []⟩
  ({ pics := picPerform made.1.pics (picEnableIrq (picInb made.1.pics) 1)
     memory := log.memory },
    made.2)

/-- Nothing was sent, and no key is held. -/
def noKeys (interrupts : InterruptSystem) (last : Byte) : KeySystem where
  interrupts := interrupts
  output := none
  last := last
  queue := []
  point := .idle
  keyboard := Keyboard.released
  sent := []
  port := []
  calls := []

/-- The line of the keyboard is the second one. -/
theorem picLine?_one : picLine? 1 = some keyboardLine :=
  rfl

/-- What the calls do to the first map. -/
theorem mapStep_keyboard
    (handlers : IdtHandlers)
    {keyboardHandler : PtrT}
    (present : keyboardHandler ≠ 0) :
    mapStep 0x20
        (mapStep 0x20 (initialMap handlers) (.setIrq 1 keyboardHandler))
        (.pic (.enableIrq 1)) =
      keyboardMap handlers keyboardHandler := by
  have accepted : (picSetIrq 0x20 1 keyboardHandler).Accepted :=
    ⟨show (0x21 : BitVec 32).toNat < 256 by decide, present⟩
  have installs :
      (SystemEvent.call? 0x20 (.setIrq 1 keyboardHandler)).bind
          installation? =
        some { vector := 0x21, handler := keyboardHandler } :=
    dif_pos accepted
  have masks :
      setMasked (fun _ => true) 1 false =
        fun line => decide (line ≠ keyboardLine) := by
    funext line
    simp only [setMasked, picLine?_one, Option.some.injEq]
    by_cases same : keyboardLine = line
    · rw [if_pos same, decide_eq_false (not_not_intro same.symm)]
    · rw [if_neg same, decide_eq_true (Ne.symm same)]
  rw [mapStep, mapStep, installs]
  exact congrArg (InterruptMap.mk · _) masks

/-- The calls set up the map of the keyboard. -/
theorem realizesMap_initializeKeyboard
    {idt : PtrT}
    (placed : IdtPlaced idt)
    (irq7Handler : PtrT)
    (handlers : IdtHandlers)
    {keyboardHandler : PtrT}
    (present : keyboardHandler ≠ 0)
    (system : InterruptSystem) :
    RealizesMap
      (initializeKeyboard idt irq7Handler handlers keyboardHandler system).2
      0x20 (0x20 + 8) (keyboardMap handlers keyboardHandler)
      (initializeKeyboard idt irq7Handler handlers keyboardHandler
        system).1 := by
  have first :=
    realizesMap_initializeInterrupts placed 0x20 (0x20 + 8) irq7Handler
      handlers system
  have base :
      (initializeInterrupts idt 0x20 (0x20 + 8) irq7Handler handlers
          system).2 =
        { size := 2047, base := idt } :=
    rfl
  dsimp only [initializeKeyboard]
  rw [base] at first ⊢
  generalize
    (initializeInterrupts idt 0x20 (0x20 + 8) irq7Handler handlers system).1 =
      made at first ⊢
  have index : (picSetIrq 0x20 1 keyboardHandler).index = 0x21 := rfl
  have stops : ¬(picSetIrq 0x20 1 keyboardHandler).PassesEnd := by
    rintro ⟨passes, _⟩
    rw [index] at passes
    exact absurd passes (by decide)
  have whole : 8 * 256 ≤ (2047 : BitVec 16).toNat + 1 := by decide
  have installed :=
    first.step placed whole
      (@systemStep_setIrq idt 0x20 1 keyboardHandler made stops)
  have enabled :=
    installed.step placed whole
      (show SystemStep idt 0x20 (.pic (.enableIrq 1)) _ ⟨_, _⟩ from
        ⟨⟨by decide, rfl⟩, rfl⟩)
  rw [mapStep_keyboard handlers present] at enabled
  exact enabled

/-! ## Steps -/

/-- What holds as long as the keyboard has sent no `0xE0`. -/
structure PlainKeys (state : KeySystem) : Prop where
  fresh : ∀ byte ∈ state.port, byte.fresh = true
  full :
    requested state.pics = true ∨ state.point = .reading [] →
      state.output.isSome = true
  once : requested state.pics = true → state.point ≠ .reading []
  first : ∀ bytes, state.point = .reading bytes → bytes = []

/-- What every step keeps. -/
structure KeyInvariant
    (idtr : Idtr)
    (handlers : IdtHandlers)
    (keyboardHandler : PtrT)
    (state : KeySystem) :
    Prop where
  realizes :
    RealizesMap idtr 0x20 (0x20 + 8) (keyboardMap handlers keyboardHandler)
      state.interrupts
  notElsewhere : state.point ≠ .elsewhere
  inService : InService ⟨state.pics, state.point.served⟩
  inOrder :
    state.sent = freshBytes state.port ++ state.output.toList ++ state.queue
  inCalls :
    state.port.map PortByte.value = state.calls.flatten ++ state.point.bytes
  handled :
    ∃ reads : List PortRead,
      state.calls = reads.map PortRead.bytes ∧
        Run Call Keyboard.released reads state.keyboard
  waiting :
    ∀ bytes,
      state.point = .reading bytes → bytes = [] ∨ bytes = [keyAlternate]
  signalled :
    state.output.isSome = true →
      requested state.pics = true ∨ state.point = .reading []
  plain : keyAlternate ∉ state.sent → PlainKeys state

section Steps

variable
  {idtr : Idtr}
  {handlers : IdtHandlers}
  {keyboardHandler : PtrT}
  {before after : KeySystem}

/-- A step of the controllers that leaves the masks. -/
theorem RealizesMap.withPics
    {base0 base1 : Byte}
    {map : InterruptMap}
    {interrupts : InterruptSystem}
    {pics : CascadedControllers}
    (realizes : RealizesMap idtr base0 base1 map interrupts)
    (event : PicEvent)
    (stepped : PicStep event interrupts.pics pics)
    (kept : maskStep map.masks event = map.masks) :
    RealizesMap idtr base0 base1 map { interrupts with pics := pics } := by
  have programmed := realizes.programmed.step stepped
  rw [kept] at programmed
  exact ⟨programmed, realizes.table⟩

/-- The keyboard sends a byte. -/
theorem KeyInvariant.press
    (invariant : KeyInvariant idtr handlers keyboardHandler before)
    (byte : Byte) :
    KeyInvariant idtr handlers keyboardHandler
      { before with
        queue := before.queue ++ [byte]
        sent := before.sent ++ [byte] } :=
  { invariant with
    inOrder := by
      dsimp only
      rw [invariant.inOrder, List.append_assoc _ before.queue]
    plain := fun absent =>
      have earlier :=
        invariant.plain fun member =>
          absent (List.mem_append_left _ member)
      { earlier with } }

/-- A byte reaches the output buffer. -/
theorem KeyInvariant.fill
    {byte : Byte}
    {rest : List Byte}
    (invariant : KeyInvariant idtr handlers keyboardHandler before)
    (empty : before.output = none)
    (queued : before.queue = byte :: rest) :
    KeyInvariant idtr handlers keyboardHandler
      { before.withPics (before.pics.raise keyboardLine) with
        output := some byte
        queue := rest } where
  realizes := invariant.realizes.withPics (.raise keyboardLine) rfl rfl
  notElsewhere := invariant.notElsewhere
  inService :=
    invariant.inService.step invariant.realizes.programmed
      (show ServeStep (.raise keyboardLine) _ ⟨_, _⟩ from ⟨rfl, rfl⟩)
  inOrder := by
    have inOrder := invariant.inOrder
    rw [empty, queued] at inOrder
    dsimp only [KeySystem.withPics]
    rw [inOrder]
    simp
  inCalls := invariant.inCalls
  handled := invariant.handled
  waiting := invariant.waiting
  signalled := fun _ => Or.inl requested_raise
  plain := by
    intro absent
    have earlier := invariant.plain absent
    have notReading : before.point ≠ .reading [] := by
      intro reading
      have full := earlier.full (Or.inr reading)
      rw [empty] at full
      exact Bool.false_ne_true full
    exact
      { fresh := earlier.fresh
        full := fun _ => rfl
        once := fun _ => notReading
        first := earlier.first }

/-- Another device requests an interrupt. -/
theorem KeyInvariant.request
    {line : CascadedLine}
    (invariant : KeyInvariant idtr handlers keyboardHandler before)
    (other : line ≠ keyboardLine) :
    KeyInvariant idtr handlers keyboardHandler
      (before.withPics (before.pics.raise line)) :=
  have kept : requested (before.pics.raise line) = requested before.pics :=
    requested_raise_of_ne other
  { invariant with
    realizes := invariant.realizes.withPics (.raise line) rfl rfl
    inService :=
      invariant.inService.step invariant.realizes.programmed
        (show ServeStep (.raise line) _ ⟨_, _⟩ from ⟨rfl, rfl⟩)
    signalled := fun full => by
      have signalled := invariant.signalled full
      rw [← kept] at signalled
      exact signalled
    plain := fun absent => by
      have earlier := invariant.plain absent
      obtain ⟨fresh, full, once, first⟩ := earlier
      rw [← kept] at full once
      exact ⟨fresh, full, once, first⟩ }

/-- Only the keyboard is delivered, and reaches its handler. -/
theorem KeyInvariant.delivered
    {line : CascadedLine}
    {gate : Gate}
    (invariant : KeyInvariant idtr handlers keyboardHandler before)
    (isPending : before.pics.pending = some line)
    (taken : dispatch idtr before.interrupts line = some gate) :
    line = keyboardLine ∧ gate.offset = keyboardHandler := by
  have dispatches :=
    (invariant.realizes.dispatches (by decide) (by decide)).delivered line
      isPending
  obtain ⟨unmasked, vector, number, reached⟩ := dispatches
  have isKeyboard : line = keyboardLine := by
    by_contra other
    have masked : decide (line ≠ keyboardLine) = false := unmasked
    rw [decide_eq_true other] at masked
    cases masked
  subst isKeyboard
  have vectorIs : vector = 0x21 := Fin.ext number
  rw [taken, Option.some.injEq] at reached
  subst reached vectorIs
  exact ⟨rfl, handlers_keyboardMap handlers keyboardHandler⟩

/-- The processor can take the keyboard's request. -/
theorem KeyInvariant.accepts
    (invariant : KeyInvariant idtr handlers keyboardHandler before)
    (idle : before.point = .idle)
    (isPending : before.pics.pending = some keyboardLine) :
    KeyStep idtr keyboardHandler (.accept keyboardLine) before
      { before.withPics (before.pics.acknowledge keyboardLine) with
        point := .reading [] } := by
  obtain ⟨_, _, _, taken⟩ :=
    (invariant.realizes.dispatches (by decide) (by decide)).delivered
      keyboardLine isPending
  have offset := (invariant.delivered isPending taken).2
  exact ⟨idle, isPending, _, taken, by rw [if_pos offset]⟩

/-- The processor enters the handler. -/
theorem KeyInvariant.accept
    {line : CascadedLine}
    {gate : Gate}
    (invariant : KeyInvariant idtr handlers keyboardHandler before)
    (idle : before.point = .idle)
    (isPending : before.pics.pending = some line)
    (taken : dispatch idtr before.interrupts line = some gate) :
    KeyInvariant idtr handlers keyboardHandler
      { before.withPics (before.pics.acknowledge line) with
        point :=
          if gate.offset = keyboardHandler then
            .reading []
          else
            .elsewhere } := by
  obtain ⟨rfl, offset⟩ := invariant.delivered isPending taken
  rw [if_pos offset]
  have inService := invariant.inService
  rw [idle] at inService
  exact
    { realizes :=
        invariant.realizes.withPics (.accept keyboardLine) ⟨isPending, rfl⟩ rfl
      notElsewhere := nofun
      inService :=
        inService.step invariant.realizes.programmed
          (show ServeStep (.accept keyboardLine) _ ⟨_, _⟩ from
            ⟨⟨isPending, rfl⟩, rfl⟩)
      inOrder := invariant.inOrder
      inCalls := by
        have inCalls := invariant.inCalls
        rw [idle] at inCalls
        exact inCalls
      handled := invariant.handled
      waiting := fun bytes same => Or.inl (HandlerPoint.reading.inj same).symm
      signalled := fun _ => Or.inr rfl
      plain := fun absent => by
        have earlier := invariant.plain absent
        have wanted : requested before.pics = true :=
          (deliverable_of_pending_master isPending).2.1
        exact
          { fresh := earlier.fresh
            full := fun _ => earlier.full (Or.inl wanted)
            once := fun again =>
              absurd ((@requested_acknowledge before.pics).symm.trans again)
                Bool.false_ne_true
            first := fun bytes same => (HandlerPoint.reading.inj same).symm } }

/-- The handler ends its interrupt. -/
theorem KeyInvariant.eoi
    (invariant : KeyInvariant idtr handlers keyboardHandler before)
    (handled : before.point = .handled) :
    KeyInvariant idtr handlers keyboardHandler
      { before.withPics (picPerform before.pics (picEoi 1)) with
        point := .idle } := by
  have inService := invariant.inService
  rw [handled] at inService
  exact
    { realizes := invariant.realizes.withPics (.eoi 1) rfl rfl
      notElsewhere := nofun
      inService :=
        inService.step invariant.realizes.programmed
          (show ServeStep (.eoi 1) _ ⟨_, _⟩ from
            ⟨rfl, keyboardLine, picLine?_one, rfl⟩)
      inOrder := invariant.inOrder
      inCalls := by
        have inCalls := invariant.inCalls
        rw [handled] at inCalls
        exact inCalls
      handled := invariant.handled
      waiting := nofun
      signalled := fun full => by
        rcases invariant.signalled full with signalled | reading
        · exact Or.inl signalled
        · rw [handled] at reading
          cases reading
      plain := fun absent => by
        have earlier := invariant.plain absent
        exact
          { fresh := earlier.fresh
            full := fun wanted => by
              rcases wanted with signalled | reading
              · exact earlier.full (Or.inl signalled)
              · cases reading
            once := nofun
            first := nofun } }

/-- What one `inb` does before `kbh` goes on. -/
def afterRead (before : KeySystem) (withdraws : Bool) : KeySystem :=
  { before.withPics
      (if withdraws then before.pics.lower keyboardLine else before.pics) with
    output := none
    last := before.output.getD before.last
    port :=
      before.port ++
        [PortByte.mk (before.output.getD before.last) before.output.isSome] }

/-- A byte that completes a call. -/
theorem readPort_of_kbh_some
    {bytes port : List Byte}
    {keyboard : Keyboard}
    (withdraws : Bool)
    (completed :
      kbh before.keyboard (bytes ++ [before.output.getD before.last]) =
        some (keyboard, port)) :
    readPort before bytes withdraws =
      { afterRead before withdraws with
        point := .handled
        keyboard := keyboard
        calls :=
          before.calls ++ [bytes ++ [before.output.getD before.last]] } := by
  rw [readPort, completed]
  rfl

/-- A byte that does not. -/
theorem readPort_of_kbh_none
    {bytes : List Byte}
    (withdraws : Bool)
    (waits :
      kbh before.keyboard (bytes ++ [before.output.getD before.last]) = none) :
    readPort before bytes withdraws =
      { afterRead before withdraws with
        point := .reading (bytes ++ [before.output.getD before.last]) } := by
  rw [readPort, waits]
  rfl

/-- A byte completes a call, or is the first one of two. -/
theorem kbh_read
    {bytes : List Byte}
    (waiting : bytes = [] ∨ bytes = [keyAlternate])
    (keyboard : Keyboard)
    (value : Byte) :
    (bytes ++ [value] = [keyAlternate] ∧
        kbh keyboard (bytes ++ [value]) = none) ∨
      ∃ (read : PortRead) (after : Keyboard),
        bytes ++ [value] = read.bytes ∧ Call read keyboard after := by
  rcases waiting with rfl | rfl
  · by_cases alternate : value = keyAlternate
    · subst alternate
      exact Or.inl ⟨rfl, rfl⟩
    · exact
        Or.inr
          ⟨.code value alternate, handleCode keyboard value, rfl,
            call_code_iff.mpr rfl⟩
  · exact
      Or.inr
        ⟨.alternate value, { keyboard with event := none }, rfl,
          call_alternate_iff.mpr rfl⟩

/-- What an `inb` does to the controllers. -/
theorem KeyInvariant.afterRead_interrupts
    (invariant : KeyInvariant idtr handlers keyboardHandler before)
    (withdraws : Bool) :
    RealizesMap idtr 0x20 (0x20 + 8) (keyboardMap handlers keyboardHandler)
        (afterRead before withdraws).interrupts ∧
      InService ⟨(afterRead before withdraws).pics, before.point.served⟩ := by
  cases withdraws with
  | false =>
      exact ⟨invariant.realizes, invariant.inService⟩
  | true =>
      exact
        ⟨invariant.realizes.withPics (.withdraw keyboardLine) rfl rfl,
          invariant.inService.step invariant.realizes.programmed
            (show ServeStep (.withdraw keyboardLine) _ ⟨_, _⟩ from
              ⟨rfl, rfl⟩)⟩

/-- No `inb` requests an interrupt. -/
theorem requested_afterRead
    {withdraws : Bool}
    (wanted : requested (afterRead before withdraws).pics = true) :
    requested before.pics = true := by
  cases withdraws with
  | false =>
      exact wanted
  | true =>
      exact
        absurd ((@requested_lower before.pics).symm.trans wanted)
          Bool.false_ne_true

/-- A byte of a full buffer is read for the first time. -/
theorem freshBytes_afterRead (withdraws : Bool) :
    freshBytes (afterRead before withdraws).port =
      freshBytes before.port ++ before.output.toList := by
  rw [afterRead, freshBytes, List.filter_append, List.map_append]
  refine congrArg (freshBytes before.port ++ ·) ?_
  cases before.output <;> rfl

/-- A plain keyboard is read once for each byte. -/
theorem PlainKeys.afterRead
    {bytes : List Byte}
    (plain : PlainKeys before)
    (reading : before.point = .reading bytes)
    (withdraws : Bool)
    {point : HandlerPoint}
    (next : ∀ bytes, point ≠ .reading bytes) :
    PlainKeys { HobbyOS.afterRead before withdraws with point := point } := by
  obtain rfl := plain.first bytes reading
  have full : before.output.isSome = true := plain.full (Or.inr reading)
  have notRequested :
      requested (HobbyOS.afterRead before withdraws).pics ≠ true :=
    fun wanted => plain.once (requested_afterRead wanted) reading
  exact
    { fresh := by
        intro byte member
        rcases List.mem_append.mp member with earlier | last
        · exact plain.fresh byte earlier
        · obtain rfl := List.mem_singleton.mp last
          exact full
      full := fun wanted =>
        wanted.elim (absurd · notRequested) (absurd · (next []))
      once := fun wanted => absurd wanted notRequested
      first := fun bytes same => absurd same (next bytes) }

/-- The handler reads a byte. -/
theorem KeyInvariant.read
    {bytes : List Byte}
    (invariant : KeyInvariant idtr handlers keyboardHandler before)
    (reading : before.point = .reading bytes)
    (withdraws : Bool) :
    KeyInvariant idtr handlers keyboardHandler
      (readPort before bytes withdraws) := by
  obtain ⟨realizes, inService⟩ := invariant.afterRead_interrupts withdraws
  have inOrder :
      before.sent =
        freshBytes (afterRead before withdraws).port ++
          (none : Option Byte).toList ++ before.queue := by
    rw [freshBytes_afterRead, invariant.inOrder, Option.toList_none,
      List.append_nil]
  have inCalls := invariant.inCalls
  rw [reading] at inCalls inService
  have values :
      (afterRead before withdraws).port.map PortByte.value =
        before.calls.flatten ++
          (bytes ++ [before.output.getD before.last]) := by
    rw [afterRead, List.map_append, inCalls, List.append_assoc]
    rfl
  obtain ⟨reads, listed, ran⟩ := invariant.handled
  rcases kbh_read (invariant.waiting bytes reading) before.keyboard
      (before.output.getD before.last) with
    ⟨alternate, waits⟩ | ⟨read, after, complete, call⟩
  · rw [readPort_of_kbh_none withdraws waits]
    exact
      { realizes := realizes
        notElsewhere := nofun
        inService := inService
        inOrder := inOrder
        inCalls := values
        handled := ⟨reads, listed, ran⟩
        waiting := fun bytes same =>
          Or.inr ((HandlerPoint.reading.inj same).symm.trans alternate)
        signalled := nofun
        plain := fun absent => by
          -- a full buffer holds a byte that was sent, which is not `0xE0`
          have plain := invariant.plain absent
          obtain rfl := plain.first bytes reading
          obtain ⟨byte, holds⟩ :=
            Option.isSome_iff_exists.mp (plain.full (Or.inr reading))
          rw [holds] at alternate
          obtain rfl : byte = keyAlternate := (List.cons.inj alternate).1
          refine absurd ?_ absent
          show keyAlternate ∈ before.sent
          rw [invariant.inOrder, holds]
          simp }
  · have completed :
        kbh before.keyboard (bytes ++ [before.output.getD before.last]) =
          some (after, []) := by
      rw [complete]
      exact call
    rw [readPort_of_kbh_some withdraws completed]
    exact
      { realizes := realizes
        notElsewhere := nofun
        inService := inService
        inOrder := inOrder
        inCalls := by
          dsimp only [HandlerPoint.bytes]
          rw [List.flatten_append, List.flatten_singleton, List.append_nil]
          exact values
        handled :=
          ⟨reads ++ [read],
            by rw [listed, List.map_append, complete]; rfl,
            ran.snoc call⟩
        waiting := nofun
        signalled := nofun
        plain := fun absent => by
          have next : ∀ bytes, HandlerPoint.handled ≠ .reading bytes := nofun
          have plain :=
            (invariant.plain absent).afterRead reading withdraws next
          exact ⟨plain.fresh, plain.full, plain.once, plain.first⟩ }

/-- Every step keeps the invariant. -/
theorem KeyInvariant.step
    {event : DeliveryEvent}
    (invariant : KeyInvariant idtr handlers keyboardHandler before)
    (stepped : KeyStep idtr keyboardHandler event before after) :
    KeyInvariant idtr handlers keyboardHandler after := by
  cases event with
  | press byte =>
      obtain rfl := stepped
      exact invariant.press byte
  | fill =>
      obtain ⟨empty, byte, rest, queued, rfl⟩ := stepped
      exact invariant.fill empty queued
  | request line =>
      obtain ⟨other, rfl⟩ := stepped
      exact invariant.request other
  | accept line =>
      obtain ⟨idle, isPending, gate, taken, rfl⟩ := stepped
      exact invariant.accept idle isPending taken
  | read withdraws =>
      obtain ⟨bytes, reading, rfl⟩ := stepped
      exact invariant.read reading withdraws
  | eoi =>
      obtain ⟨handled, rfl⟩ := stepped
      exact invariant.eoi handled

/-- A plain keyboard is read in calls of one byte. -/
theorem KeyInvariant.delivers
    (invariant : KeyInvariant idtr handlers keyboardHandler before) :
    KeysDelivered before where
  notElsewhere := invariant.notElsewhere
  inService := invariant.inService
  inOrder := invariant.inOrder
  inCalls := invariant.inCalls
  handled := invariant.handled
  plain := by
    intro absent
    have plain := invariant.plain absent
    have noBytes : before.point.bytes = [] := by
      cases point : before.point with
      | reading bytes =>
          exact plain.first bytes point
      | _ =>
          rfl
    have values := invariant.inCalls
    rw [noBytes, List.append_nil] at values
    have allFresh :
        freshBytes before.port = before.port.map PortByte.value := by
      rw [freshBytes, List.filter_eq_self.mpr plain.fresh]
    rw [← values, ← allFresh]
    exact invariant.inOrder

end Steps

/-- The controllers start without a request. -/
theorem requested_initializeKeyboard
    (idt irq7Handler : PtrT)
    (handlers : IdtHandlers)
    (keyboardHandler : PtrT)
    (system : InterruptSystem) :
    requested
        (initializeKeyboard idt irq7Handler handlers keyboardHandler
          system).1.pics =
      false := by
  have none :
      (initializeKeyboard idt irq7Handler handlers keyboardHandler
          system).1.pics.master.requests =
        0 :=
    rfl
  rw [requested, none]
  decide

/-- The invariant holds when `initialize_ps2` returns. -/
theorem keyInvariant_initializeKeyboard
    {idt : PtrT}
    (placed : IdtPlaced idt)
    (irq7Handler : PtrT)
    (handlers : IdtHandlers)
    {keyboardHandler : PtrT}
    (present : keyboardHandler ≠ 0)
    (system : InterruptSystem)
    (last : Byte) :
    KeyInvariant
      (initializeKeyboard idt irq7Handler handlers keyboardHandler system).2
      handlers keyboardHandler
      (noKeys
        (initializeKeyboard idt irq7Handler handlers keyboardHandler system).1
        last) where
  realizes :=
    realizesMap_initializeKeyboard placed irq7Handler handlers present system
  notElsewhere := nofun
  inService :=
    (inService_initializePic 0x20 (0x20 + 8) system.pics).step
      (programmed_initializePic 0x20 (0x20 + 8) system.pics)
      (show ServeStep (.enableIrq 1) _ ⟨_, _⟩ from ⟨⟨by decide, rfl⟩, rfl⟩)
  inOrder := rfl
  inCalls := rfl
  handled := ⟨[], rfl, .nil⟩
  waiting := nofun
  signalled := nofun
  plain := fun _ =>
    { fresh := nofun
      full := fun wanted =>
        wanted.elim
          (fun requests =>
            absurd
              ((requested_initializeKeyboard idt irq7Handler handlers
                keyboardHandler system).symm.trans requests)
              Bool.false_ne_true)
          nofun
      once := nofun
      first := nofun }

/--
In every interleaving of the keyboard, other devices, the controllers and the
processor, the bytes of the keyboard reach `kbh` once and in order.
-/
theorem keyboard_delivers
    {idt irq7Handler keyboardHandler : PtrT}
    {handlers : IdtHandlers}
    {system : InterruptSystem}
    {last : Byte}
    {events : List DeliveryEvent}
    {final : KeySystem}
    (placed : IdtPlaced idt)
    (present : keyboardHandler ≠ 0)
    (ran :
      Run
        (KeyStep
          (initializeKeyboard idt irq7Handler handlers keyboardHandler
            system).2
          keyboardHandler)
        (noKeys
          (initializeKeyboard idt irq7Handler handlers keyboardHandler
            system).1
          last)
        events final) :
    KeysDelivered final :=
  (ran.invariant _ (fun invariant => invariant.step)
    (keyInvariant_initializeKeyboard placed irq7Handler handlers present system
      last)).delivers

/-- The bytes of an arrow key are read by one call. -/
theorem keyboard_delivers_arrow :
    ∃ final,
      KeysDelivered final ∧
        final.calls = [[0xE0, 0x4D]] ∧
          final.point = .idle ∧ final.queue = [0x1E] := by
  let powerOn : InterruptController := ⟨0, 0, 0, 0, 0, 0, .mask, false⟩
  let system : InterruptSystem := ⟨⟨powerOn, powerOn⟩, fun _ => 0⟩
  let made :=
    initializeKeyboard 0x20000 0x10300 twoHandlers 0x10200 system
  have filled :=
    ((Run.nil.snoc
      (show KeyStep made.2 0x10200 (.press 0xE0) (noKeys made.1 0) _ from
        rfl)).snoc
      (show KeyStep made.2 0x10200 (.press 0x4D) _ _ from rfl)).snoc
      (show KeyStep made.2 0x10200 .fill _ _ from ⟨rfl, 0xE0, [0x4D], rfl, rfl⟩)
  have invariant :=
    filled.invariant (KeyInvariant made.2 twoHandlers 0x10200)
      (fun invariant => invariant.step)
      (keyInvariant_initializeKeyboard ⟨by decide, by decide⟩ 0x10300
        twoHandlers (by decide) system 0)
  have read :=
    ((((filled.snoc (invariant.accepts rfl (by decide))).snoc
      (show KeyStep made.2 0x10200 (.read false) _ _ from
        ⟨[], rfl, rfl⟩)).snoc
      (show KeyStep made.2 0x10200 .fill _ _ from
        ⟨rfl, 0x4D, [], rfl, rfl⟩)).snoc
      (show KeyStep made.2 0x10200 (.read true) _ _ from
        ⟨[0xE0], rfl, rfl⟩)).snoc
      (show KeyStep made.2 0x10200 (.press 0x1E) _ _ from rfl)
  have ended :=
    read.snoc (show KeyStep made.2 0x10200 .eoi _ _ from ⟨rfl, rfl⟩)
  exact
    ⟨_, keyboard_delivers ⟨by decide, by decide⟩ (by decide) ended, rfl, rfl,
      rfl⟩

end HobbyOS
