import Mathlib.Data.List.Induction
import HobbyOS.Interrupts.Idt
import HobbyOS.Library.LastWrite

namespace HobbyOS

open Library

/-!
# The interrupt table as a store of handlers

The table is a map from vectors to handlers that is overwritten one vector at
a time: an accepted call stores its handler, which is read back until the next
accepted call for the vector.  The test of `idt_install_handler` lets the
index `MAX_INTERRUPTS` pass, whose entry is behind the table.
-/

/-- A call that may store a handler. -/
inductive IdtCall where
  | installHandler
      (index : BitVec 32)
      (flags selector : BitVec 16)
      (handler : PtrT)
  | setVector (index : BitVec 32) (vect : PtrT)

namespace IdtCall

/-- The index that is passed. -/
def index : IdtCall → BitVec 32
  | installHandler index _ _ _ => index
  | setVector index _ => index

/-- The handler that is passed. -/
def handler : IdtCall → PtrT
  | installHandler _ _ _ handler => handler
  | setVector _ vect => vect

/-- The flags that reach `idt_install_handler`. -/
def flags : IdtCall → BitVec 16
  | installHandler _ flags _ _ => flags
  | setVector _ _ => vectorFlags

/-- The selector that reaches `idt_install_handler`. -/
def selector : IdtCall → BitVec 16
  | installHandler _ _ selector _ => selector
  | setVector _ _ => 0x8

/-- Make the call. -/
def apply (idt : PtrT) (log : StoreLog) : IdtCall → StoreLog
  | installHandler index flags selector handler =>
      (idtInstallHandler idt log index flags selector handler).2
  | setVector index vect => idtSetVector idt log index vect

/-- A call for a vector of the table, with a handler. -/
def Accepted (call : IdtCall) : Prop :=
  call.index.toNat < 256 ∧ call.handler ≠ 0

instance (call : IdtCall) : Decidable call.Accepted :=
  inferInstanceAs (Decidable (_ ∧ _))

/-- A call that stores behind the table. -/
def PassesEnd (call : IdtCall) : Prop :=
  call.index = maxInterrupts ∧ call.handler ≠ 0

instance (call : IdtCall) : Decidable call.PassesEnd :=
  inferInstanceAs (Decidable (_ ∧ _))

end IdtCall

/-- Calls one after the other. -/
def runCalls (idt : PtrT) (memory : Memory) (calls : List IdtCall) : StoreLog :=
  calls.foldl (IdtCall.apply idt) { memory, stores := [] }

/-- A handler that is given to a vector. -/
structure Installation where
  vector : Fin 256
  handler : PtrT

/-- What an accepted call installs. -/
def installation? (call : IdtCall) : Option Installation :=
  if accepted : call.Accepted then
    some { vector := ⟨call.index.toNat, accepted.1⟩, handler := call.handler }
  else
    none

/-- The handlers of the vectors, as `idt_get_vector` returns them. -/
def vectors (idt : PtrT) (memory : Memory) (vector : Fin 256) : PtrT :=
  idtGetVector idt memory (BitVec.ofNat 32 vector.val)

/--
The calls store inside the table only, those for other indices or without a
handler leave it as it is, and every vector has the handler of the last
accepted call for it.
-/
structure StoresVectors
    (idt : PtrT)
    (memory : Memory)
    (calls : List IdtCall) :
    Prop where
  inside :
    ∀ store ∈ (runCalls idt memory calls).stores,
      idt.toNat ≤ store.1.toNat ∧
        store.1.toNat + store.2 ≤ idt.toNat + 8 * 256
  rejected :
    ∀ before call after,
      calls = before ++ call :: after →
      ¬call.Accepted →
      AgreeOn idt.toNat (idt.toNat + 8 * 256)
        (runCalls idt memory before).memory
        (runCalls idt memory (before ++ [call])).memory
  readsLast :
    vectors idt (runCalls idt memory calls).memory =
      lastValue Installation.vector Installation.handler
        (vectors idt memory) (calls.filterMap installation?)

/-! ## One call -/

section Calls

variable
  {idt : PtrT}
  {call : IdtCall}

/-- Both functions install a handler. -/
theorem IdtCall.apply_eq
    (idt : PtrT)
    (log : StoreLog)
    (call : IdtCall) :
    call.apply idt log =
      (idtInstallHandler idt log call.index call.flags call.selector
        call.handler).2 := by
  cases call with
  | installHandler =>
      rfl
  | setVector =>
      rfl

/-- The index of an accepted call passes the test. -/
theorem IdtCall.Accepted.not_above
    (accepted : call.Accepted) :
    ¬call.index > maxInterrupts := by
  have limit : maxInterrupts.toNat = 256 := rfl
  have inside := accepted.1
  intro above
  have behind := BitVec.lt_def.mp above
  omega

/-- An accepted call writes the entry of its vector. -/
theorem IdtCall.Accepted.apply_eq
    (accepted : call.Accepted)
    (log : StoreLog) :
    call.apply idt log =
      writeEntry log (idtEntry idt call.index) call.flags call.selector
        call.handler := by
  rw [IdtCall.apply_eq, idtInstallHandler, if_neg accepted.not_above,
    if_neg accepted.2]

/-- A call that is not accepted does nothing, or stores behind the table. -/
theorem IdtCall.apply_of_not_accepted
    (rejected : ¬call.Accepted)
    (stops : ¬call.PassesEnd)
    (log : StoreLog) :
    call.apply idt log = log := by
  rw [IdtCall.apply_eq, idtInstallHandler]
  split
  · rfl
  · rename_i notAbove
    split
    · rfl
    · rename_i notNull
      have limit : maxInterrupts.toNat = 256 := rfl
      have upTo := Nat.not_lt.mp fun less => notAbove (BitVec.lt_def.mpr less)
      have notInside : ¬call.index.toNat < 256 := fun inside =>
        rejected ⟨inside, notNull⟩
      have last : call.index = maxInterrupts :=
        BitVec.eq_of_toNat_eq (by omega)
      exact (stops ⟨last, notNull⟩).elim

/-- The stores to the fields of an entry. -/
def entryStores (entry : PtrT) : List (PtrT × Nat) :=
  [(baseHigh entry, 2), (flagsField entry, 1), (reservedField entry, 1),
    (selectorField entry, 2), (baseLow entry, 2)]

/-- The stores of a call. -/
def IdtCall.stores (idt : PtrT) (call : IdtCall) : List (PtrT × Nat) :=
  if call.Accepted ∨ call.PassesEnd then
    entryStores (idtEntry idt call.index)
  else
    []

/-- Each call adds its stores. -/
theorem IdtCall.apply_stores (log : StoreLog) :
    (call.apply idt log).stores = log.stores ++ call.stores idt := by
  have entry :
      (writeEntry log (idtEntry idt call.index) call.flags call.selector
          call.handler).stores =
        log.stores ++ entryStores (idtEntry idt call.index) := by
    simp only [writeEntry, StoreLog.storeHalf, StoreLog.storeByte,
      List.append_assoc, List.cons_append, List.nil_append, entryStores]
  rw [IdtCall.stores]
  by_cases accepted : call.Accepted
  · rw [accepted.apply_eq, if_pos (.inl accepted), entry]
  · by_cases passes : call.PassesEnd
    · have notAbove : ¬call.index > maxInterrupts := by
        rw [passes.1]
        decide
      rw [if_pos (.inr passes), IdtCall.apply_eq, idtInstallHandler,
        if_neg notAbove, if_neg passes.2, entry]
    · rw [IdtCall.apply_of_not_accepted accepted passes,
        if_neg (not_or.mpr ⟨accepted, passes⟩), List.append_nil]

/-- The stores of an accepted call lie in the table. -/
theorem IdtCall.Accepted.stores_inside
    (placed : IdtPlaced idt)
    (accepted : call.Accepted)
    {store : PtrT × Nat}
    (member : store ∈ call.stores idt) :
    idt.toNat ≤ store.1.toNat ∧
      store.1.toNat + store.2 ≤ idt.toNat + 8 * 256 := by
  have inside := accepted.1
  have fits := placed.fits
  have address := placed.toNat_idtEntry inside
  obtain ⟨low, selectorAt, reservedAt, flagsAt, high⟩ :=
    @toNat_fields (idtEntry idt call.index) (by omega)
  rw [IdtCall.stores, if_pos (.inl accepted)] at member
  simp only [entryStores, List.mem_cons, List.not_mem_nil, or_false] at member
  rcases member with rfl | rfl | rfl | rfl | rfl
  all_goals
    dsimp only
    omega

/-- A call that passes the end stores behind the table. -/
theorem IdtCall.PassesEnd.stores_behind
    (placed : IdtPlaced idt)
    (passes : call.PassesEnd) :
    ∃ store ∈ call.stores idt,
      ¬(idt.toNat ≤ store.1.toNat ∧
        store.1.toNat + store.2 ≤ idt.toNat + 8 * 256) := by
  have fits := placed.fits
  have bounded := idt.isLt
  refine ⟨(baseHigh (idtEntry idt call.index), 2), ?_, fun inside => ?_⟩
  · rw [IdtCall.stores, if_pos (.inr passes)]
    exact List.mem_cons_self
  · rw [passes.1] at inside
    dsimp only [baseHigh, idtEntry, maxInterrupts] at inside
    have offset : (8 * 256 : BitVec 32) = 2048 := rfl
    have six : (6 : BitVec 32).toNat = 6 := rfl
    have size : (2048 : BitVec 32).toNat = 2048 := rfl
    rw [offset, BitVec.toNat_add, BitVec.toNat_add, six, size] at inside
    omega

/-- An accepted call overwrites the handler of its vector. -/
theorem IdtCall.Accepted.overwrites
    (placed : IdtPlaced idt)
    (accepted : call.Accepted)
    (log : StoreLog) :
    vectors idt (call.apply idt log).memory =
      Function.update (vectors idt log.memory)
        ⟨call.index.toNat, accepted.1⟩ call.handler := by
  have fits := placed.fits
  have room {index : BitVec 32} (inside : index.toNat < 256) :
      (idtEntry idt index).toNat + 8 ≤ 2 ^ 32 := by
    rw [placed.toNat_idtEntry inside]
    omega
  funext vector
  have value : (BitVec.ofNat 32 vector.val).toNat = vector.val :=
    Nat.mod_eq_of_lt (by omega)
  have inside : (BitVec.ofNat 32 vector.val).toNat < 256 := by
    rw [value]
    exact vector.isLt
  rw [vectors, placed.idtGetVector_eq _ inside, accepted.apply_eq]
  by_cases same : vector = ⟨call.index.toNat, accepted.1⟩
  · subst same
    have index : BitVec.ofNat 32 call.index.toNat = call.index :=
      (BitVec.ofNat_toNat 32 _).trans (BitVec.setWidth_eq _)
    rw [Function.update_self, index,
      handlerOf_writeEntry log (room accepted.1)]
  · have apart : vector.val ≠ call.index.toNat := fun equal =>
      same (Fin.ext equal)
    rw [Function.update_of_ne same, vectors, placed.idtGetVector_eq _ inside]
    refine handlerOf_of_agreeOutside
      (writeEntry_agreeOutside log (room accepted.1) _ _ _) (room inside) ?_
    rw [placed.toNat_idtEntry inside, placed.toNat_idtEntry accepted.1, value]
    omega

end Calls

/-! ## Runs of calls -/

section Runs

variable
  {idt : PtrT}
  {memory : Memory}
  {calls : List IdtCall}

/-- One more call. -/
theorem runCalls_snoc (call : IdtCall) :
    runCalls idt memory (calls ++ [call]) =
      call.apply idt (runCalls idt memory calls) :=
  List.foldl_append

/-- The stores of a run are those of its calls. -/
theorem runCalls_stores :
    (runCalls idt memory calls).stores =
      calls.flatMap (IdtCall.stores idt) := by
  induction calls using List.reverseRecOn with
  | nil =>
      rfl
  | append_singleton calls call inductionHypothesis =>
      rw [runCalls_snoc, IdtCall.apply_stores, inductionHypothesis,
        List.flatMap_append, List.flatMap_singleton]

/-- Every vector has the handler of the last accepted call for it. -/
theorem vectors_runCalls
    (placed : IdtPlaced idt)
    (stop : ∀ call ∈ calls, ¬call.PassesEnd) :
    vectors idt (runCalls idt memory calls).memory =
      lastValue Installation.vector Installation.handler
        (vectors idt memory) (calls.filterMap installation?) := by
  induction calls using List.reverseRecOn with
  | nil =>
      rfl
  | append_singleton calls call inductionHypothesis =>
      have earlier :=
        inductionHypothesis fun other member =>
          stop other (List.mem_append_left _ member)
      have last :=
        stop call (List.mem_append_right _ (List.mem_singleton_self _))
      rw [runCalls_snoc, List.filterMap_append]
      by_cases accepted : call.Accepted
      · have installs :
            [call].filterMap installation? =
              [{ vector := ⟨call.index.toNat, accepted.1⟩
                 handler := call.handler }] := by
          rw [List.filterMap_cons, installation?, dif_pos accepted]
          rfl
        rw [accepted.overwrites placed, earlier, installs, lastValue_snoc]
      · have installs : [call].filterMap installation? = [] := by
          rw [List.filterMap_cons, installation?, dif_neg accepted]
          rfl
        rw [IdtCall.apply_of_not_accepted accepted last, earlier, installs,
          List.append_nil]

end Runs

/--
The table stores handlers as it should in exactly the runs without a call for
the index `MAX_INTERRUPTS` with a handler.
-/
theorem idt_storesVectors_iff
    {idt : PtrT}
    (placed : IdtPlaced idt)
    (memory : Memory)
    (calls : List IdtCall) :
    StoresVectors idt memory calls ↔
      ∀ call ∈ calls, ¬(call.index = maxInterrupts ∧ call.handler ≠ 0) := by
  constructor
  · intro stores call member passes
    obtain ⟨store, stored, behind⟩ :=
      IdtCall.PassesEnd.stores_behind placed passes
    refine behind (stores.inside store ?_)
    rw [runCalls_stores]
    exact List.mem_flatMap_of_mem member stored
  · intro stop
    refine ⟨fun store member => ?_, fun before call after split rejected => ?_,
      vectors_runCalls placed stop⟩
    · rw [runCalls_stores, List.mem_flatMap] at member
      obtain ⟨call, listed, stored⟩ := member
      have stops : ¬call.PassesEnd := stop call listed
      have accepted : call.Accepted := by
        by_contra rejected
        rw [IdtCall.stores, if_neg (not_or.mpr ⟨rejected, stops⟩)] at stored
        cases stored
      exact accepted.stores_inside placed stored
    · have stops : ¬call.PassesEnd :=
        stop call (by rw [split]; exact List.mem_append_cons_self)
      rw [runCalls_snoc, IdtCall.apply_of_not_accepted rejected stops]
      intro address _ _
      rfl

/-- A vector is set twice, and an index beyond the table is refused. -/
theorem idt_storesVectors_iff_keyboard :
    StoresVectors 0x20000 (fun _ => 0)
      [.setVector 0x21 0x10100, .installHandler 0x120 0x8E 0x8 0x10200,
        .setVector 0x21 0x10300] :=
  (idt_storesVectors_iff ⟨by decide, by decide⟩ _ _).mpr (by decide)

/-- The handler of vector 256 is stored behind the table. -/
theorem idt_storesVectors_fails :
    ¬∀ (idt : PtrT) (memory : Memory) (calls : List IdtCall),
      IdtPlaced idt → StoresVectors idt memory calls := by
  intro stores
  have inside :=
    (stores 0x20000 (fun _ => 0) [.setVector 256 0x10100]
      ⟨by decide, by decide⟩).inside
  revert inside
  decide

end HobbyOS
