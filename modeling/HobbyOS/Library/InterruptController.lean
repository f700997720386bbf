import Mathlib.Data.BitVec
import Mathlib.Data.List.FinRange

namespace HobbyOS.Library

/-!
# Priority interrupt controllers

A controller with eight request lines, of the kind of the 8259A.  It is
programmed by bytes at two ports: initialization words restart it, and
operation words set its mask, end an interrupt, and select what is read back.
The lowest line that is requested, and that neither the mask nor a line in
service holds back, is delivered.  Rotating priorities are left out.
-/

/-- What the next byte at the data port is. -/
inductive DataWord where
  | vector (single expectsMode : Bool)
  | cascade (expectsMode : Bool)
  | mode
  | mask
  deriving DecidableEq

/-- The registers of a controller. -/
structure InterruptController where
  requests : BitVec 8
  inService : BitVec 8
  mask : BitVec 8
  base : BitVec 8
  cascade : BitVec 8
  mode : BitVec 8
  next : DataWord
  readsService : Bool

/-- The bit of a line. -/
def lineBit (line : Fin 8) : BitVec 8 :=
  1 <<< line.val

namespace InterruptController

variable (controller : InterruptController)

/-- The highest priority in service is ended. -/
def endOfInterrupt : InterruptController :=
  { controller with
    inService := controller.inService &&& (controller.inService - 1) }

/-- A byte at the command port. -/
def writeCommand (value : BitVec 8) : InterruptController :=
  if value.getLsbD 4 then
    { requests := 0
      inService := 0
      mask := 0
      base := controller.base
      cascade := controller.cascade
      mode := 0
      next := .vector (value.getLsbD 1) (value.getLsbD 0)
      readsService := false }
  else if value.getLsbD 3 then
    if value.getLsbD 1 then
      { controller with readsService := value.getLsbD 0 }
    else
      controller
  else if value >>> 5 = 1 then
    controller.endOfInterrupt
  else if value >>> 5 = 3 then
    { controller with
      inService :=
        controller.inService &&& ~~~((1 : BitVec 8) <<< (value &&& 7)) }
  else
    controller

/-- A byte at the data port. -/
def writeData (value : BitVec 8) : InterruptController :=
  match controller.next with
  | .vector single expectsMode =>
      { controller with
        base := value &&& 0xF8
        next :=
          if single then
            if expectsMode then .mode else .mask
          else
            .cascade expectsMode }
  | .cascade expectsMode =>
      { controller with
        cascade := value
        next := if expectsMode then .mode else .mask }
  | .mode => { controller with mode := value, next := .mask }
  | .mask => { controller with mask := value }

/-- What is read from the command port. -/
def readCommand : BitVec 8 :=
  if controller.readsService then
    controller.inService
  else
    controller.requests

/-- What is read from the data port. -/
def readData : BitVec 8 :=
  controller.mask

/-- A device requests an interrupt. -/
def raise (line : Fin 8) : InterruptController :=
  { controller with requests := controller.requests ||| lineBit line }

/-- A device takes back a request that was not delivered. -/
def lower (line : Fin 8) : InterruptController :=
  { controller with requests := controller.requests &&& ~~~lineBit line }

/-- No line of the same or a higher priority is in service. -/
def Unblocked (line : Fin 8) : Prop :=
  ∀ other ≤ line, controller.inService.getLsbD other.val = false

instance (line : Fin 8) : Decidable (controller.Unblocked line) :=
  inferInstanceAs (Decidable (∀ other ≤ line, _ = _))

/-- A line that can be delivered. -/
def Deliverable (line : Fin 8) : Prop :=
  controller.requests.getLsbD line.val = true ∧
    controller.mask.getLsbD line.val = false ∧
      controller.Unblocked line

instance (line : Fin 8) : Decidable (controller.Deliverable line) :=
  inferInstanceAs (Decidable (_ ∧ _ ∧ _))

/-- The line that is delivered next. -/
def pending : Option (Fin 8) :=
  (List.finRange 8).find? fun line => controller.Deliverable line

/-- A line is delivered: with automatic ends it does not stay in service. -/
def acknowledge (line : Fin 8) : InterruptController :=
  { controller.lower line with
    inService :=
      if controller.mode.getLsbD 1 then
        controller.inService
      else
        controller.inService ||| lineBit line }

/-- The vector of a line. -/
def vector (line : Fin 8) : BitVec 8 :=
  controller.base ||| BitVec.ofNat 8 line.val

end InterruptController

/-! ## One controller -/

section Controller

variable
  {controller : InterruptController}
  {line : Fin 8}

/-- The bits of the lines. -/
theorem getLsbD_lineBit (line other : Fin 8) :
    (lineBit line).getLsbD other.val = decide (line = other) := by
  revert line other
  decide

/-- A request is added. -/
theorem requests_raise (line other : Fin 8) :
    (controller.raise line).requests.getLsbD other.val =
      (controller.requests.getLsbD other.val || decide (line = other)) := by
  rw [InterruptController.raise, BitVec.getLsbD_or, getLsbD_lineBit]

/-- A request is taken away. -/
theorem requests_lower (line other : Fin 8) :
    (controller.lower line).requests.getLsbD other.val =
      (controller.requests.getLsbD other.val &&
        decide (line ≠ other)) := by
  rw [InterruptController.lower, BitVec.getLsbD_and, BitVec.getLsbD_not,
    getLsbD_lineBit, decide_eq_true other.isLt, Bool.true_and]
  simp

/-- The first of eight lines with a property. -/
theorem find?_finRange_eq_some_iff
    {holds : Fin 8 → Bool} :
    (List.finRange 8).find? holds = some line ↔
      holds line = true ∧ ∀ other < line, holds other = false := by
  rw [List.find?_eq_some_iff_getElem]
  refine and_congr_right fun _ => ?_
  constructor
  · rintro ⟨index, inside, here, earlier⟩ other before
    rw [List.getElem_finRange] at here
    have number : line.val = index := by
      rw [← here]
      rfl
    have passed := earlier other.val (by omega)
    rw [List.getElem_finRange, Bool.not_eq_true'] at passed
    exact passed
  · intro earlier
    have inside : line.val < (List.finRange 8).length := by
      rw [List.length_finRange]
      exact line.isLt
    refine ⟨line.val, inside, ?_, fun other before => ?_⟩
    · rw [List.getElem_finRange]
      rfl
    · rw [List.getElem_finRange, Bool.not_eq_true']
      exact earlier _ before

/-- The line that is delivered next is the first that can be delivered. -/
theorem pending_eq_some_iff :
    controller.pending = some line ↔
      controller.Deliverable line ∧
        ∀ other < line, ¬controller.Deliverable other := by
  rw [InterruptController.pending, find?_finRange_eq_some_iff,
    decide_eq_true_iff]
  refine and_congr_right fun _ => forall_congr' fun other => ?_
  rw [decide_eq_false_iff_not]

/-- Nothing is delivered if no line can be. -/
theorem pending_eq_none_iff :
    controller.pending = none ↔ ∀ line, ¬controller.Deliverable line := by
  rw [InterruptController.pending, List.find?_eq_none]
  simp

/-- The line that is ended is the first one in service. -/
theorem inService_endOfInterrupt
    (served : controller.inService.getLsbD line.val = true)
    (highest :
      ∀ other < line, controller.inService.getLsbD other.val = false)
    (other : Fin 8) :
    controller.endOfInterrupt.inService.getLsbD other.val =
      (controller.inService.getLsbD other.val &&
        decide (line ≠ other)) := by
  have ended :
      ∀ (inService : BitVec 8) (line : Fin 8),
        inService.getLsbD line.val = true →
          (∀ other < line, inService.getLsbD other.val = false) →
            inService &&& (inService - 1) =
              inService &&& ~~~lineBit line := by
    decide +kernel
  rw [InterruptController.endOfInterrupt, ended _ line served highest,
    BitVec.getLsbD_and, BitVec.getLsbD_not, getLsbD_lineBit,
    decide_eq_true other.isLt, Bool.true_and, decide_not]

/-- A line that is delivered is in service. -/
theorem inService_acknowledge
    (manual : controller.mode.getLsbD 1 = false)
    (line other : Fin 8) :
    (controller.acknowledge line).inService.getLsbD other.val =
      (controller.inService.getLsbD other.val || decide (line = other)) := by
  rw [InterruptController.acknowledge, manual, if_neg Bool.false_ne_true,
    BitVec.getLsbD_or, getLsbD_lineBit]

/-- Something is delivered if a line can be. -/
theorem pending_isSome_iff :
    controller.pending.isSome = true ↔ ∃ line, controller.Deliverable line := by
  rw [← Option.ne_none_iff_isSome, ne_eq, pending_eq_none_iff,
    not_forall_not]

end Controller

/-! ## Two controllers -/

/-- A line of two controllers. -/
inductive CascadedLine where
  | master (line : Fin 8)
  | slave (line : Fin 8)
  deriving DecidableEq

/-- Two controllers, the second one at a line of the first. -/
structure CascadedControllers where
  master : InterruptController
  slave : InterruptController

/-- The line of the first controller that the second one is at. -/
def cascadeLine : Fin 8 := 2

namespace CascadedControllers

variable (controllers : CascadedControllers)

/-- The first controller, with the request of the second one. -/
def cascaded : InterruptController :=
  if controllers.slave.pending.isSome then
    controllers.master.raise cascadeLine
  else
    controllers.master.lower cascadeLine

/-- The line that is delivered next. -/
def pending : Option CascadedLine :=
  match controllers.cascaded.pending with
  | none => none
  | some line =>
      if line = cascadeLine then
        controllers.slave.pending.map CascadedLine.slave
      else
        some (.master line)

/-- A line is delivered. -/
def acknowledge : CascadedLine → CascadedControllers
  | .master line =>
      { controllers with master := controllers.master.acknowledge line }
  | .slave line =>
      { master := controllers.master.acknowledge cascadeLine
        slave := controllers.slave.acknowledge line }

/-- A device requests an interrupt. -/
def raise : CascadedLine → CascadedControllers
  | .master line =>
      { controllers with master := controllers.master.raise line }
  | .slave line =>
      { controllers with slave := controllers.slave.raise line }

/-- A device takes back a request that was not delivered. -/
def lower : CascadedLine → CascadedControllers
  | .master line =>
      { controllers with master := controllers.master.lower line }
  | .slave line =>
      { controllers with slave := controllers.slave.lower line }

/-- The vector of a line. -/
def vector : CascadedLine → BitVec 8
  | .master line => controllers.master.vector line
  | .slave line => controllers.slave.vector line

end CascadedControllers

section Cascaded

variable
  {controllers : CascadedControllers}
  {line : Fin 8}

/-- Whether the other lines can be delivered does not depend on the second. -/
theorem deliverable_cascaded_iff (other : line ≠ cascadeLine) :
    controllers.cascaded.Deliverable line ↔
      controllers.master.Deliverable line := by
  unfold InterruptController.Deliverable CascadedControllers.cascaded
  split
  · rw [requests_raise, decide_eq_false (Ne.symm other), Bool.or_false]
    rfl
  · rw [requests_lower, decide_eq_true (Ne.symm other), Bool.and_true]
    rfl

/-- The line of the second controller is requested if that has a line. -/
theorem deliverable_cascadeLine_iff :
    controllers.cascaded.Deliverable cascadeLine ↔
      controllers.slave.pending.isSome = true ∧
        controllers.master.mask.getLsbD cascadeLine.val = false ∧
          controllers.master.Unblocked cascadeLine := by
  unfold InterruptController.Deliverable CascadedControllers.cascaded
  split
  · rename_i isSome
    rw [requests_raise, decide_eq_true rfl, Bool.or_true]
    exact and_congr_left fun _ => iff_of_true rfl isSome
  · rename_i isNone
    rw [requests_lower, decide_eq_false (not_not_intro rfl),
      Bool.and_false]
    exact and_congr_left fun _ => iff_of_false Bool.false_ne_true isNone

/-- A line of the first controller that is delivered can be delivered. -/
theorem deliverable_of_pending_master
    (isPending : controllers.pending = some (.master line)) :
    line ≠ cascadeLine ∧ controllers.master.Deliverable line := by
  rw [CascadedControllers.pending] at isPending
  split at isPending
  · exact absurd isPending (by simp)
  · rename_i first isFirst
    split at isPending
    · simp at isPending
    · rename_i other
      obtain rfl : first = line := by
        simpa using isPending
      exact
        ⟨other,
          (deliverable_cascaded_iff other).mp
            (pending_eq_some_iff.mp isFirst).1⟩

/-- A line of the second controller is delivered through the first one. -/
theorem deliverable_of_pending_slave
    (isPending : controllers.pending = some (.slave line)) :
    controllers.slave.Deliverable line ∧
      controllers.master.mask.getLsbD cascadeLine.val = false ∧
        controllers.master.Unblocked cascadeLine := by
  rw [CascadedControllers.pending] at isPending
  split at isPending
  · exact absurd isPending (by simp)
  · rename_i first isFirst
    split at isPending
    · rename_i here
      subst here
      obtain ⟨_, isSlave, same⟩ := Option.map_eq_some_iff.mp isPending
      obtain rfl := CascadedLine.slave.inj same
      exact
        ⟨(pending_eq_some_iff.mp isSlave).1,
          (deliverable_cascadeLine_iff.mp
            (pending_eq_some_iff.mp isFirst).1).2⟩
    · simp at isPending

/-- Something is delivered if a line of one of them can be. -/
theorem cascaded_pending_isSome_iff :
    controllers.pending.isSome = true ↔
      (∃ line ≠ cascadeLine, controllers.master.Deliverable line) ∨
        (∃ line, controllers.slave.Deliverable line) ∧
          controllers.master.mask.getLsbD cascadeLine.val = false ∧
            controllers.master.Unblocked cascadeLine := by
  have first :
      controllers.pending.isSome = controllers.cascaded.pending.isSome := by
    rw [CascadedControllers.pending]
    split
    · rename_i isNone
      rw [isNone]
      rfl
    · rename_i isFirst
      split
      · rename_i here
        subst here
        have slave :=
          (deliverable_cascadeLine_iff.mp
            (pending_eq_some_iff.mp isFirst).1).1
        rw [isFirst, Option.isSome_map, slave]
        rfl
      · rw [isFirst]
        rfl
  rw [first, ← @pending_isSome_iff controllers.slave,
    ← deliverable_cascadeLine_iff, pending_isSome_iff]
  constructor
  · rintro ⟨line, deliverable⟩
    by_cases here : line = cascadeLine
    · subst here
      exact Or.inr deliverable
    · exact Or.inl ⟨line, here, (deliverable_cascaded_iff here).mp deliverable⟩
  · rintro (⟨line, other, deliverable⟩ | deliverable)
    · exact ⟨line, (deliverable_cascaded_iff other).mpr deliverable⟩
    · exact ⟨cascadeLine, deliverable⟩

end Cascaded

end HobbyOS.Library
