import HobbyOS.Interrupts.VectorStore

namespace HobbyOS

open Library

/-!
# The table that the processor reads

`initialize_idt`, with the handlers of `exceptions.c`, and what the processor
makes of an entry when it delivers a vector.
-/

/-- The addresses of `error_handlers` and `default_interrupt_handler`. -/
structure IdtHandlers where
  errorHandlers : Fin 19 → PtrT
  defaultInterruptHandler : PtrT
  errorsPresent : ∀ i, errorHandlers i ≠ 0
  defaultPresent : defaultInterruptHandler ≠ 0

/-- `IDTr_t`. -/
structure Idtr where
  size : BitVec 16
  base : PtrT

/-- `get_default_exception_handler`, for an index of the array. -/
def getDefaultExceptionHandler (handlers : IdtHandlers) (i : Fin 19) : PtrT :=
  handlers.errorHandlers i

/-- Fill a range. -/
def StoreLog.memset
    (log : StoreLog)
    (location : PtrT)
    (value : Byte)
    (length : SizeT) :
    StoreLog where
  memory := HobbyOS.memset log.memory location value length
  stores := log.stores ++ [(location, length.toNat)]

/-- The loop over the exceptions. -/
def installExceptions
    (idt : PtrT)
    (log : StoreLog)
    (codeSel : BitVec 16)
    (handlers : IdtHandlers) :
    StoreLog :=
  (List.finRange 19).foldl
    (fun log i =>
      (idtInstallHandler idt log (BitVec.ofNat 32 i.val) vectorFlags codeSel
        (getDefaultExceptionHandler handlers i)).2)
    log

/-- The loop over the other vectors. -/
def installDefaults
    (idt : PtrT)
    (log : StoreLog)
    (codeSel : BitVec 16)
    (handlers : IdtHandlers) :
    StoreLog :=
  (List.range' 19 (maxInterrupts.toNat - 19)).foldl
    (fun log i =>
      (idtInstallHandler idt log (BitVec.ofNat 32 i) vectorFlags codeSel
        handlers.defaultInterruptHandler).2)
    log

/-- `initialize_idt`, with the register that `lidt` loads. -/
def initializeIdt
    (idt : PtrT)
    (log : StoreLog)
    (codeSel : BitVec 16)
    (handlers : IdtHandlers) :
    StoreLog × Idtr :=
  let log := log.memset idt 0 (8 * maxInterrupts - 1)
  let log := installExceptions idt log codeSel handlers
  let log := installDefaults idt log codeSel handlers
  (log, { size := maxInterrupts.setWidth 16 * 8 - 1, base := idt })

/-! ## What the processor reads -/

/-- A gate through which an interrupt is delivered. -/
structure Gate where
  selector : BitVec 16
  offset : PtrT
  deriving DecidableEq

/-- An entry that is a 32-bit interrupt gate, and present. -/
def gateOf (memory : Memory) (entry : PtrT) : Option Gate :=
  let flags := memory (flagsField entry)
  if flags.getLsbD 7 = true ∧ flags &&& 0x1F = 0x0E then
    some
      { selector := readHalf memory (selectorField entry)
        offset := handlerOf memory entry }
  else
    none

/-- The gate of a vector, unless it is behind the table. -/
def gates (idtr : Idtr) (memory : Memory) (vector : Fin 256) : Option Gate :=
  if 8 * vector.val + 7 ≤ idtr.size.toNat then
    gateOf memory (idtEntry idtr.base (BitVec.ofNat 32 vector.val))
  else
    none

/-- The gate that an installation makes. -/
theorem gateOf_writeEntry
    (log : StoreLog)
    {entry : PtrT}
    (room : entry.toNat + 8 ≤ 2 ^ 32)
    (selector : BitVec 16)
    (handler : PtrT) :
    gateOf (writeEntry log entry vectorFlags selector handler).memory entry =
      some { selector, offset := handler } := by
  obtain ⟨low, selectorAt, _⟩ := toNat_fields room
  have flags :
      (writeEntry log entry vectorFlags selector handler).memory
          (flagsField entry) =
        0x8E := by
    simp [writeEntry, StoreLog.storeHalf, StoreLog.storeByte, writeHalf,
      writeByte, flagsField, reservedField, selectorField, baseLow,
      BitVec.add_assoc, vectorFlags]
  have stored :
      readHalf (writeEntry log entry vectorFlags selector handler).memory
          (selectorField entry) =
        selector := by
    refine
      (readHalf_of_agreeOutside (writeHalf_agreeOutside _ _ ?_) ?_
        (Or.inr ?_)).trans
        (readHalf_writeHalf_self _ _ _)
    all_goals omega
  rw [gateOf, flags, stored, handlerOf_writeEntry log room]
  rfl

/-- A gate apart from the stores of an installation stays. -/
theorem gateOf_of_agreeOutside
    {low high : Nat}
    {first second : Memory}
    (agree : AgreeOutside low high first second)
    {entry : PtrT}
    (room : entry.toNat + 8 ≤ 2 ^ 32)
    (apart : entry.toNat + 8 ≤ low ∨ high ≤ entry.toNat) :
    gateOf second entry = gateOf first entry := by
  obtain ⟨_, selectorAt, _, flagsAt, _⟩ := toNat_fields room
  rw [gateOf, gateOf, handlerOf_of_agreeOutside agree room apart,
    agree _ (by omega), readHalf_of_agreeOutside agree (by omega) (by omega)]

section Table

variable {idtr : Idtr}

/-- The entries of the table lie in the address space. -/
theorem IdtPlaced.entry_room
    {idt : PtrT}
    (placed : IdtPlaced idt)
    (vector : Fin 256) :
    (idtEntry idt (BitVec.ofNat 32 vector.val)).toNat =
        idt.toNat + 8 * vector.val ∧
      (idtEntry idt (BitVec.ofNat 32 vector.val)).toNat + 8 ≤ 2 ^ 32 := by
  have fits := placed.fits
  have inside := vector.isLt
  have value : (BitVec.ofNat 32 vector.val).toNat = vector.val :=
    Nat.mod_eq_of_lt (by omega)
  have address := @IdtPlaced.toNat_idtEntry idt placed
    (BitVec.ofNat 32 vector.val) (by omega)
  rw [value] at address
  exact ⟨address, by omega⟩

/-- An accepted call makes the gate of its vector, and no other. -/
theorem IdtCall.Accepted.gates
    (placed : IdtPlaced idtr.base)
    (whole : 8 * 256 ≤ idtr.size.toNat + 1)
    {call : IdtCall}
    (accepted : call.Accepted)
    (flags : call.flags = vectorFlags)
    (log : StoreLog) :
    gates idtr (call.apply idtr.base log).memory =
      Function.update (gates idtr log.memory)
        ⟨call.index.toNat, accepted.1⟩
        (some { selector := call.selector, offset := call.handler }) := by
  have index : BitVec.ofNat 32 call.index.toNat = call.index :=
    (BitVec.ofNat_toNat 32 _).trans (BitVec.setWidth_eq _)
  obtain ⟨callAt, callRoom⟩ :=
    placed.entry_room ⟨call.index.toNat, accepted.1⟩
  dsimp only at callAt callRoom
  rw [index] at callAt callRoom
  funext vector
  obtain ⟨vectorAt, vectorRoom⟩ := placed.entry_room vector
  have inside := vector.isLt
  have limit : 8 * vector.val + 7 ≤ idtr.size.toNat := by omega
  rw [HobbyOS.gates, if_pos limit, accepted.apply_eq, flags]
  by_cases same : vector = ⟨call.index.toNat, accepted.1⟩
  · subst same
    rw [Function.update_self, index, gateOf_writeEntry log callRoom]
  · have apart : vector.val ≠ call.index.toNat := fun equal =>
      same (Fin.ext equal)
    rw [Function.update_of_ne same, HobbyOS.gates, if_pos limit]
    exact
      gateOf_of_agreeOutside
        (writeEntry_agreeOutside log callRoom _ _ _) vectorRoom (by omega)

/-- A loop of installations makes the gates of its vectors. -/
theorem gates_foldl
    {Index : Type}
    (placed : IdtPlaced idtr.base)
    (whole : 8 * 256 ≤ idtr.size.toNat + 1)
    (codeSel : BitVec 16)
    {index : Index → Nat}
    {handler : Index → PtrT}
    {installed : Fin 256 → PtrT}
    {indices : List Index}
    (inside :
      ∀ i ∈ indices,
        ∃ below : index i < 256,
          handler i = installed ⟨index i, below⟩ ∧ handler i ≠ 0)
    (log : StoreLog) :
    gates idtr
        (indices.foldl
          (fun log i =>
            (idtInstallHandler idtr.base log (BitVec.ofNat 32 (index i))
              vectorFlags codeSel (handler i)).2)
          log).memory =
      fun vector =>
        if vector.val ∈ indices.map index then
          some { selector := codeSel, offset := installed vector }
        else
          gates idtr log.memory vector := by
  induction indices generalizing log with
  | nil =>
      rfl
  | cons i indices inductionHypothesis =>
      obtain ⟨below, target, present⟩ := inside i List.mem_cons_self
      have value : (BitVec.ofNat 32 (index i)).toNat = index i :=
        Nat.mod_eq_of_lt (by omega)
      let call : IdtCall :=
        .installHandler (BitVec.ofNat 32 (index i)) vectorFlags codeSel
          (handler i)
      have accepted : call.Accepted :=
        ⟨by
          show (BitVec.ofNat 32 (index i)).toNat < 256
          omega,
          present⟩
      have first := accepted.gates placed whole rfl log
      rw [List.foldl_cons,
        inductionHypothesis fun other member =>
          inside other (List.mem_cons_of_mem _ member)]
      funext vector
      simp only [List.map_cons, List.mem_cons]
      by_cases later : vector.val ∈ indices.map index
      · rw [if_pos later, if_pos (Or.inr later)]
      · rw [if_neg later]
        refine (congrFun first vector).trans ?_
        rw [Function.update_apply]
        by_cases here : vector.val = index i
        · have same : vector = ⟨index i, below⟩ := Fin.ext here
          have key : vector = ⟨call.index.toNat, accepted.1⟩ :=
            Fin.ext (here.trans value.symm)
          rw [if_pos key, if_pos (Or.inl here), same]
          exact
            congrArg
              (fun offset => some (Gate.mk codeSel offset)) target
        · have key : vector ≠ ⟨call.index.toNat, accepted.1⟩ := by
            intro same
            exact here ((congrArg Fin.val same).trans value)
          rw [if_neg key, if_neg (not_or.mpr ⟨here, later⟩)]

end Table

/-- The vector of an exception. -/
def exceptionVector (i : Fin 19) : Fin 256 :=
  Fin.castLE (Nat.le_add_right 19 237) i

/-- The handlers that `initialize_idt` installs. -/
def initialHandler (handlers : IdtHandlers) (vector : Fin 256) : PtrT :=
  if exception : vector.val < 19 then
    handlers.errorHandlers ⟨vector.val, exception⟩
  else
    handlers.defaultInterruptHandler

/-- The handler of an exception. -/
theorem initialHandler_exception (handlers : IdtHandlers) (i : Fin 19) :
    initialHandler handlers (exceptionVector i) =
      getDefaultExceptionHandler handlers i :=
  dif_pos i.isLt

/-- The handler of another vector. -/
theorem initialHandler_default
    (handlers : IdtHandlers)
    {vector : Fin 256}
    (notException : 19 ≤ vector.val) :
    initialHandler handlers vector = handlers.defaultInterruptHandler :=
  dif_neg (not_lt.mpr notException)

/-- `initialize_idt` makes every gate, whatever was in the table. -/
theorem gates_initializeIdt
    {idt : PtrT}
    (placed : IdtPlaced idt)
    (log : StoreLog)
    (codeSel : BitVec 16)
    (handlers : IdtHandlers)
    (vector : Fin 256) :
    gates (initializeIdt idt log codeSel handlers).2
        (initializeIdt idt log codeSel handlers).1.memory vector =
      some
        { selector := codeSel, offset := initialHandler handlers vector } := by
  let idtr : Idtr := { size := 2047, base := idt }
  have whole : 8 * 256 ≤ idtr.size.toNat + 1 :=
    show 8 * 256 ≤ (2047 : BitVec 16).toNat + 1 by decide
  have exceptions :=
    @gates_foldl idtr (Fin 19) placed whole codeSel Fin.val
      (getDefaultExceptionHandler handlers) (initialHandler handlers)
      (List.finRange 19)
      (fun i _ =>
        ⟨by omega, (initialHandler_exception handlers i).symm,
          handlers.errorsPresent i⟩)
      (log.memset idt 0 (8 * maxInterrupts - 1))
  have defaults :=
    @gates_foldl idtr Nat placed whole codeSel id
      (fun _ => handlers.defaultInterruptHandler) (initialHandler handlers)
      (List.range' 19 (maxInterrupts.toNat - 19))
      (fun i member => by
        obtain ⟨notException, below⟩ := List.mem_range'_1.mp member
        have size : 19 + (maxInterrupts.toNat - 19) = 256 := rfl
        have inside : i < 256 := by omega
        exact
          ⟨inside, (initialHandler_default handlers notException).symm,
            handlers.defaultPresent⟩)
      (installExceptions idt (log.memset idt 0 (8 * maxInterrupts - 1))
        codeSel handlers)
  refine (congrFun defaults vector).trans ?_
  by_cases exception : vector.val < 19
  · have notDefault :
        vector.val ∉ (List.range' 19 (maxInterrupts.toNat - 19)).map id := by
      rw [List.map_id, List.mem_range'_1]
      omega
    have listed : vector.val ∈ (List.finRange 19).map Fin.val :=
      List.mem_map.mpr ⟨⟨vector.val, exception⟩, List.mem_finRange _, rfl⟩
    rw [if_neg notDefault]
    refine (congrFun exceptions vector).trans ?_
    rw [if_pos listed]
  · have isDefault :
        vector.val ∈ (List.range' 19 (maxInterrupts.toNat - 19)).map id := by
      have size : maxInterrupts.toNat = 256 := rfl
      rw [List.map_id, List.mem_range'_1, size]
      omega
    rw [if_pos isDefault]

end HobbyOS
