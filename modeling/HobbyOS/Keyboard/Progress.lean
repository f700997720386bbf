import HobbyOS.Keyboard.Delivery

namespace HobbyOS

open Library

/-!
# No byte of the keyboard stays behind

Between two bytes of the keyboard the machine makes few steps, and it does not
come to rest before the processor is back in its loop with every byte read.
-/

/-- A step that is not the keyboard's or another device's. -/
def DeliveryEvent.serves : DeliveryEvent → Bool
  | .fill | .accept _ | .read _ | .eoi => true
  | .press _ | .request _ => false

/-- The steps that are left in the handler. -/
def HandlerPoint.stepsLeft : HandlerPoint → Nat
  | .idle | .elsewhere => 0
  | .reading bytes => 3 - bytes.length
  | .handled => 1

/-- The steps that are left, at most, if the keyboard sends nothing more. -/
def KeySystem.stepsLeft (state : KeySystem) : Nat :=
  5 * state.queue.length + 4 * (requested state.pics).toNat +
    state.point.stepsLeft

/--
The machine has made at most five steps for each byte, and is at rest only if
every byte was read and its handler has returned.
-/
structure KeysProgress
    (idtr : Idtr)
    (keyboardHandler : PtrT)
    (events : List DeliveryEvent)
    (state : KeySystem) :
    Prop where
  bounded : events.countP DeliveryEvent.serves ≤ 5 * state.sent.length
  atRest :
    (∀ event after,
        event.serves = true →
        ¬KeyStep idtr keyboardHandler event state after) →
      state.point = .idle ∧ state.sent = freshBytes state.port

section Steps

variable
  {idtr : Idtr}
  {handlers : IdtHandlers}
  {keyboardHandler : PtrT}
  {before after : KeySystem}

/-- The processor can always take the keyboard's request. -/
theorem KeyInvariant.can_accept
    (invariant : KeyInvariant idtr handlers keyboardHandler before)
    (idle : before.point = .idle)
    (wanted : requested before.pics = true) :
    ∃ after,
      KeyStep idtr keyboardHandler (.accept keyboardLine) before after := by
  have inService := invariant.inService
  rw [idle] at inService
  have waits :
      Waiting (keyboardMap handlers keyboardHandler).masks
        ⟨before.pics, HandlerPoint.idle.served⟩ keyboardLine :=
    { requested := wanted
      unmasked :=
        show decide (keyboardLine ≠ keyboardLine) = false from
          decide_eq_false (not_not_intro rfl)
      cascade := nofun
      above := nofun }
  obtain ⟨line, isPending⟩ :=
    Option.isSome_iff_exists.mp
      (waits.isSome_pending inService invariant.realizes.programmed.masked)
  obtain ⟨_, _, _, taken⟩ :=
    (invariant.realizes.dispatches (by decide) (by decide)).delivered line
      isPending
  obtain ⟨rfl, _⟩ := invariant.delivered isPending taken
  exact ⟨_, invariant.accepts idle isPending⟩

/-- The machine rests with everything read. -/
theorem KeyInvariant.atRest
    (invariant : KeyInvariant idtr handlers keyboardHandler before)
    (rests :
      ∀ event after,
        event.serves = true →
        ¬KeyStep idtr keyboardHandler event before after) :
    before.point = .idle ∧ before.sent = freshBytes before.port := by
  have idle : before.point = .idle := by
    cases point : before.point with
    | idle =>
        rfl
    | reading bytes =>
        exact (rests (.read false) _ rfl ⟨bytes, point, rfl⟩).elim
    | handled =>
        exact (rests .eoi _ rfl ⟨point, rfl⟩).elim
    | elsewhere =>
        exact (invariant.notElsewhere point).elim
  have empty : before.output = none := by
    by_contra full
    rcases invariant.signalled (Option.isSome_iff_ne_none.mpr full) with
      wanted | reading
    · obtain ⟨after, accepted⟩ := invariant.can_accept idle wanted
      exact rests _ after rfl accepted
    · rw [idle] at reading
      cases reading
  have noQueue : before.queue = [] := by
    cases queued : before.queue with
    | nil =>
        rfl
    | cons byte rest =>
        exact (rests .fill _ rfl ⟨empty, byte, rest, queued, rfl⟩).elim
  have inOrder := invariant.inOrder
  rw [empty, noQueue, Option.toList_none, List.append_nil,
    List.append_nil] at inOrder
  exact ⟨idle, inOrder⟩

/-- A read is followed by fewer steps of the handler. -/
theorem stepsLeft_readPort
    {bytes : List Byte}
    (invariant : KeyInvariant idtr handlers keyboardHandler before)
    (reading : before.point = .reading bytes)
    (withdraws : Bool) :
    (readPort before bytes withdraws).stepsLeft + 1 ≤ before.stepsLeft := by
  have request :
      (requested (afterRead before withdraws).pics).toNat ≤
        (requested before.pics).toNat :=
    Bool.toNat_le_toNat requested_afterRead
  have waiting := invariant.waiting bytes reading
  have short : bytes.length ≤ 1 := by
    rcases waiting with rfl | rfl
    · exact Nat.zero_le 1
    · exact Nat.le_refl 1
  rcases kbh_read waiting before.keyboard
      (before.output.getD before.last) with
    ⟨alternate, waits⟩ | ⟨read, after, complete, call⟩
  · rw [readPort_of_kbh_none withdraws waits]
    show
      5 * before.queue.length +
              4 * (requested (afterRead before withdraws).pics).toNat +
            (3 - (bytes ++ [before.output.getD before.last]).length) +
          1 ≤
        5 * before.queue.length + 4 * (requested before.pics).toNat +
          before.point.stepsLeft
    rw [reading, HandlerPoint.stepsLeft, List.length_append,
      List.length_singleton]
    omega
  · have completed :
        kbh before.keyboard (bytes ++ [before.output.getD before.last]) =
          some (after, []) := by
      rw [complete]
      exact call
    rw [readPort_of_kbh_some withdraws completed]
    show
      5 * before.queue.length +
              4 * (requested (afterRead before withdraws).pics).toNat +
            1 +
          1 ≤
        5 * before.queue.length + 4 * (requested before.pics).toNat +
          before.point.stepsLeft
    rw [reading, HandlerPoint.stepsLeft]
    omega

/-- A step for a byte leaves fewer, and a byte of the keyboard adds five. -/
theorem stepsLeft_step
    {event : DeliveryEvent}
    (invariant : KeyInvariant idtr handlers keyboardHandler before)
    (stepped : KeyStep idtr keyboardHandler event before after) :
    after.stepsLeft + event.serves.toNat + 5 * before.sent.length ≤
      before.stepsLeft + 5 * after.sent.length := by
  unfold KeySystem.stepsLeft
  cases event with
  | press byte =>
      obtain rfl := stepped
      show
        5 * (before.queue ++ [byte]).length +
                4 * (requested before.pics).toNat + before.point.stepsLeft +
              0 + 5 * before.sent.length ≤
          5 * before.queue.length + 4 * (requested before.pics).toNat +
            before.point.stepsLeft + 5 * (before.sent ++ [byte]).length
      rw [List.length_append, List.length_append, List.length_singleton]
      omega
  | fill =>
      obtain ⟨empty, byte, rest, queued, rfl⟩ := stepped
      show
        5 * rest.length +
                4 * (requested (before.pics.raise keyboardLine)).toNat +
              before.point.stepsLeft + 1 + 5 * before.sent.length ≤
          5 * before.queue.length + 4 * (requested before.pics).toNat +
            before.point.stepsLeft + 5 * before.sent.length
      rw [queued, List.length_cons, requested_raise, Bool.toNat_true]
      omega
  | request line =>
      obtain ⟨other, rfl⟩ := stepped
      show
        5 * before.queue.length +
                4 * (requested (before.pics.raise line)).toNat +
              before.point.stepsLeft + 0 + 5 * before.sent.length ≤
          5 * before.queue.length + 4 * (requested before.pics).toNat +
            before.point.stepsLeft + 5 * before.sent.length
      rw [requested_raise_of_ne other, Nat.add_zero]
  | accept line =>
      obtain ⟨idle, isPending, gate, taken, rfl⟩ := stepped
      obtain ⟨rfl, offset⟩ := invariant.delivered isPending taken
      have wanted : requested before.pics = true :=
        (deliverable_of_pending_master isPending).2.1
      rw [if_pos offset, idle]
      show
        5 * before.queue.length +
                4 * (requested (before.pics.acknowledge keyboardLine)).toNat +
              3 + 1 + 5 * before.sent.length ≤
          5 * before.queue.length + 4 * (requested before.pics).toNat + 0 +
            5 * before.sent.length
      rw [requested_acknowledge, wanted, Bool.toNat_true, Bool.toNat_false]
  | read withdraws =>
      obtain ⟨bytes, reading, rfl⟩ := stepped
      have left := stepsLeft_readPort invariant reading withdraws
      have sent : (readPort before bytes withdraws).sent = before.sent := by
        rw [readPort]
        split <;> rfl
      rw [sent]
      exact Nat.add_le_add_right left _
  | eoi =>
      obtain ⟨handled, rfl⟩ := stepped
      rw [handled]
      show
        5 * before.queue.length +
                4 * (requested (picPerform before.pics (picEoi 1))).toNat +
              0 + 1 + 5 * before.sent.length ≤
          5 * before.queue.length + 4 * (requested before.pics).toNat + 1 +
            5 * before.sent.length
      rw [requested_eoi]

end Steps

/-- The steps of a run, one after the other. -/
theorem KeyInvariant.run
    {idtr : Idtr}
    {handlers : IdtHandlers}
    {keyboardHandler : PtrT}
    {events : List DeliveryEvent}
    {before after : KeySystem}
    (invariant : KeyInvariant idtr handlers keyboardHandler before)
    (ran : Run (KeyStep idtr keyboardHandler) before events after) :
    KeyInvariant idtr handlers keyboardHandler after ∧
      after.stepsLeft + events.countP DeliveryEvent.serves +
          5 * before.sent.length ≤
        before.stepsLeft + 5 * after.sent.length := by
  induction ran with
  | nil =>
      exact ⟨invariant, by rw [List.countP_nil]; omega⟩
  | snoc _ stepped inductionHypothesis =>
      obtain ⟨middle, steps⟩ := inductionHypothesis
      have left := stepsLeft_step middle stepped
      have counted (event : DeliveryEvent) :
          (if event.serves = true then 1 else 0) = event.serves.toNat := by
        cases event.serves <;> rfl
      refine ⟨middle.step stepped, ?_⟩
      rw [List.countP_append, List.countP_singleton, counted]
      omega

/--
In every run the machine needs at most five steps for each byte of the
keyboard, and does not rest before all of them were read.
-/
theorem keyboard_progresses
    {idt irq7Handler keyboardHandler : PtrT}
    {handlers : IdtHandlers}
    {system : InterruptSystem}
    {last : Byte}
    {events : List DeliveryEvent}
    {final : KeySystem}
    (placed : IdtPlaced idt)
    (present : keyboardHandler ≠ 0)
    (ran :
      Run
        (KeyStep
          (initializeKeyboard idt irq7Handler handlers keyboardHandler
            system).2
          keyboardHandler)
        (noKeys
          (initializeKeyboard idt irq7Handler handlers keyboardHandler
            system).1
          last)
        events final) :
    KeysProgress
      (initializeKeyboard idt irq7Handler handlers keyboardHandler system).2
      keyboardHandler events final := by
  obtain ⟨invariant, steps⟩ :=
    (keyInvariant_initializeKeyboard placed irq7Handler handlers present system
      last).run ran
  refine ⟨?_, invariant.atRest⟩
  have quiet :
      (noKeys
          (initializeKeyboard idt irq7Handler handlers keyboardHandler
            system).1
          last).stepsLeft =
        0 := by
    have none :
        requested
            (noKeys
              (initializeKeyboard idt irq7Handler handlers keyboardHandler
                system).1
              last).pics =
          false :=
      requested_initializeKeyboard idt irq7Handler handlers keyboardHandler
        system
    rw [KeySystem.stepsLeft, none]
    rfl
  have nothingSent :
      (noKeys
          (initializeKeyboard idt irq7Handler handlers keyboardHandler
            system).1
          last).sent.length =
        0 :=
    rfl
  rw [quiet, nothingSent] at steps
  omega

/-- A byte is sent, read, and its interrupt ended. -/
theorem keyboard_progresses_key :
    ∃ (idtr : Idtr) (final : KeySystem),
      KeysProgress idtr 0x10200
          [.press 0x1E, .fill, .accept keyboardLine, .read false, .eoi]
          final ∧
        freshBytes final.port = [0x1E] ∧ final.point = .idle := by
  let powerOn : InterruptController := ⟨0, 0, 0, 0, 0, 0, .mask, false⟩
  let system : InterruptSystem := ⟨⟨powerOn, powerOn⟩, fun _ => 0⟩
  let made :=
    initializeKeyboard 0x20000 0x10300 twoHandlers 0x10200 system
  have filled :=
    (Run.nil.snoc
      (show KeyStep made.2 0x10200 (.press 0x1E) (noKeys made.1 0) _ from
        rfl)).snoc
      (show KeyStep made.2 0x10200 .fill _ _ from ⟨rfl, 0x1E, [], rfl, rfl⟩)
  obtain ⟨invariant, _⟩ :=
    (keyInvariant_initializeKeyboard ⟨by decide, by decide⟩ 0x10300
      twoHandlers (by decide) system 0).run filled
  have ended :=
    ((filled.snoc (invariant.accepts rfl (by decide))).snoc
      (show KeyStep made.2 0x10200 (.read false) _ _ from
        ⟨[], rfl, rfl⟩)).snoc
      (show KeyStep made.2 0x10200 .eoi _ _ from ⟨rfl, rfl⟩)
  exact
    ⟨_, _, keyboard_progresses ⟨by decide, by decide⟩ (by decide) ended, rfl,
      rfl⟩

end HobbyOS
