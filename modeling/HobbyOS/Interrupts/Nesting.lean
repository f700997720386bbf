import HobbyOS.Interrupts.Pic

namespace HobbyOS

open Library

/-!
# Interrupts that nest

A handler ends its interrupt with `pic_eoi`.  As long as every call is for the
line that was delivered last, the controllers have in service what has not
ended yet, and deliver what is requested above it, and nothing else.
-/

/-- The line of the first controller that a line is delivered through. -/
def firstLine : CascadedLine → Fin 8
  | .master line => line
  | .slave _ => cascadeLine

/-- The lines that are requested by devices. -/
def picRequested (pics : CascadedControllers) : CascadedLine → Bool
  | .master line =>
      decide (line ≠ cascadeLine) && pics.master.requests.getLsbD line.val
  | .slave line => pics.slave.requests.getLsbD line.val

/-- The controllers, and the lines that are served, the last one first. -/
structure ServedLines where
  pics : CascadedControllers
  served : List CascadedLine

/-- Interrupts end in the order in which handlers return. -/
def ServeStep : PicEvent → ServedLines → ServedLines → Prop
  | .accept line, before, after =>
      PicStep (.accept line) before.pics after.pics ∧
        after.served = line :: before.served
  | .eoi intno, before, after =>
      PicStep (.eoi intno) before.pics after.pics ∧
        ∃ line,
          picLine? intno = some line ∧ before.served = line :: after.served
  | event, before, after =>
      PicStep event before.pics after.pics ∧ after.served = before.served

/-- The lines in service are the ones that are served. -/
structure InService (state : ServedLines) : Prop where
  first :
    ∀ line : Fin 8,
      state.pics.master.inService.getLsbD line.val = true ↔
        ∃ other ∈ state.served, firstLine other = line
  second :
    ∀ line : Fin 8,
      state.pics.slave.inService.getLsbD line.val = true ↔
        CascadedLine.slave line ∈ state.served
  nested :
    state.served.Pairwise fun inner outer => firstLine inner < firstLine outer

/-- A line waits if nothing but its delivery is missing. -/
structure Waiting
    (masks : PicMasks)
    (state : ServedLines)
    (line : CascadedLine) :
    Prop where
  requested : picRequested state.pics line = true
  unmasked : masks line = false
  cascade :
    ∀ number, line = .slave number → masks (.master cascadeLine) = false
  above : ∀ other ∈ state.served, firstLine line < firstLine other

/--
The lines that are not ended are in service, each above the one that it
interrupted, a line that is delivered waits, and one is delivered as long as
one waits.
-/
structure Nests
    (base0 base1 : Byte)
    (masks : PicMasks)
    (state : ServedLines) :
    Prop where
  programmed : PicProgrammed base0 base1 masks state.pics
  inService : InService state
  delivers :
    ∀ line, state.pics.pending = some line → Waiting masks state line
  progress :
    ∀ line, Waiting masks state line → state.pics.pending.isSome = true

/-! ## What is delivered -/

section Delivery

variable
  {base0 base1 : Byte}
  {masks : PicMasks}
  {state : ServedLines}

/-- Nothing in service blocks a line of the first controller above it. -/
theorem InService.unblocked_iff
    (inService : InService state)
    (line : Fin 8) :
    state.pics.master.Unblocked line ↔
      ∀ other ∈ state.served, line < firstLine other := by
  constructor
  · intro unblocked other served
    by_contra notAbove
    have clear := unblocked (firstLine other) (not_lt.mp notAbove)
    have set := (inService.first (firstLine other)).mpr ⟨other, served, rfl⟩
    rw [clear] at set
    exact Bool.false_ne_true set
  · intro above other below
    rw [← Bool.not_eq_true]
    intro set
    obtain ⟨blocking, served, same⟩ := (inService.first other).mp set
    have higher := above blocking served
    rw [same] at higher
    exact absurd below (not_le.mpr higher)

/-- While nothing is served below the second controller, neither does it. -/
theorem InService.slave_unblocked
    (inService : InService state)
    (above : ∀ other ∈ state.served, cascadeLine < firstLine other)
    (line : Fin 8) :
    state.pics.slave.Unblocked line := by
  intro other _
  rw [← Bool.not_eq_true]
  intro set
  exact lt_irrefl _ (above _ ((inService.second other).mp set))

/-- A line that is delivered waits. -/
theorem InService.waiting
    (inService : InService state)
    (masked : picMasked state.pics = masks)
    {line : CascadedLine}
    (isPending : state.pics.pending = some line) :
    Waiting masks state line := by
  subst masked
  cases line with
  | master line =>
      obtain ⟨other, requested, unmasked, unblocked⟩ :=
        deliverable_of_pending_master isPending
      exact
        { requested := by
            rw [picRequested, requested, decide_eq_true other]
            rfl
          unmasked := unmasked
          cascade := fun _ same => nomatch same
          above := (inService.unblocked_iff line).mp unblocked }
  | slave line =>
      obtain ⟨⟨requested, unmasked, _⟩, cascade, unblocked⟩ :=
        deliverable_of_pending_slave isPending
      exact
        { requested := requested
          unmasked := unmasked
          cascade := fun _ _ => cascade
          above := (inService.unblocked_iff cascadeLine).mp unblocked }

/-- As long as a line waits, one is delivered. -/
theorem Waiting.isSome_pending
    {line : CascadedLine}
    (waiting : Waiting masks state line)
    (inService : InService state)
    (masked : picMasked state.pics = masks) :
    state.pics.pending.isSome = true := by
  subst masked
  rw [cascaded_pending_isSome_iff]
  have requested := waiting.requested
  cases line with
  | master line =>
      rw [picRequested, Bool.and_eq_true, decide_eq_true_eq] at requested
      exact
        Or.inl
          ⟨line, requested.1, requested.2, waiting.unmasked,
            (inService.unblocked_iff line).mpr waiting.above⟩
  | slave line =>
      exact
        Or.inr
          ⟨⟨line, requested, waiting.unmasked,
              inService.slave_unblocked waiting.above line⟩,
            waiting.cascade line rfl,
            (inService.unblocked_iff cascadeLine).mpr waiting.above⟩

/-- No line that can be delivered is above the one that is delivered. -/
theorem firstLine_le_of_pending
    {pics : CascadedControllers}
    {line : CascadedLine}
    (isPending : pics.pending = some line)
    {other : Fin 8}
    (deliverable : pics.cascaded.Deliverable other) :
    firstLine line ≤ other := by
  rw [CascadedControllers.pending] at isPending
  split at isPending
  · cases isPending
  · rename_i first isFirst
    have highest : first ≤ other :=
      not_lt.mp fun below =>
        (pending_eq_some_iff.mp isFirst).2 other below deliverable
    split at isPending
    · rename_i here
      obtain ⟨_, _, rfl⟩ := Option.map_eq_some_iff.mp isPending
      rw [here] at highest
      exact highest
    · obtain rfl := Option.some.inj isPending
      exact highest

end Delivery

/-! ## Steps -/

section Steps

variable
  {base0 base1 : Byte}
  {masks : PicMasks}
  {before after : ServedLines}

/-- What is in service depends on two registers. -/
theorem InService.congr
    (inService : InService before)
    (first :
      after.pics.master.inService = before.pics.master.inService)
    (second :
      after.pics.slave.inService = before.pics.slave.inService)
    (served : after.served = before.served) :
    InService after where
  first := by
    rw [first, served]
    exact inService.first
  second := by
    rw [second, served]
    exact inService.second
  nested := by
    rw [served]
    exact inService.nested

/-- A line that is delivered is served above the others. -/
theorem InService.accept
    {line : CascadedLine}
    (inService : InService before)
    (programmed : PicProgrammed base0 base1 masks before.pics)
    (isPending : before.pics.pending = some line) :
    InService ⟨before.pics.acknowledge line, line :: before.served⟩ := by
  have firstManual : before.pics.master.mode.getLsbD 1 = false := by
    rw [programmed.first.mode]
    rfl
  have secondManual : before.pics.slave.mode.getLsbD 1 = false := by
    rw [programmed.second.mode]
    rfl
  have above := (inService.waiting programmed.masked isPending).above
  have delivered :
      ∀ other : Fin 8,
        (before.pics.acknowledge line).master.inService.getLsbD other.val =
          (before.pics.master.inService.getLsbD other.val ||
            decide (firstLine line = other)) := by
    intro other
    cases line with
    | master line =>
        exact inService_acknowledge firstManual line other
    | slave line =>
        exact inService_acknowledge firstManual cascadeLine other
  refine ⟨fun other => ?_, fun other => ?_, ?_⟩
  · rw [delivered, Bool.or_eq_true, decide_eq_true_eq, inService.first]
    exact
      or_comm.trans
        (List.exists_mem_cons_iff (firstLine · = other) _ _).symm
  · rw [List.mem_cons, ← inService.second]
    cases line with
    | master line =>
        exact (or_iff_right (nomatch ·)).symm
    | slave line =>
        show
          ((before.pics.slave.acknowledge line).inService.getLsbD
              other.val = true) ↔ _
        rw [inService_acknowledge secondManual, Bool.or_eq_true,
          decide_eq_true_eq, CascadedLine.slave.injEq]
        exact or_comm.trans (or_congr_left eq_comm)
  · exact List.pairwise_cons.mpr ⟨above, inService.nested⟩

/-- The numbers of lines are the ones that `pic_eoi` takes. -/
theorem picPerform_eoi_of_line
    {intno : Byte}
    {line : CascadedLine}
    (known : picLine? intno = some line)
    (pics : CascadedControllers) :
    picPerform pics (picEoi intno) =
      { master := pics.master.endOfInterrupt
        slave :=
          match line with
          | .master _ => pics.slave
          | .slave _ => pics.slave.endOfInterrupt } := by
  rw [picPerform_eoi]
  cases line with
  | master line =>
      have number := picLine?_eq_master_iff.mp known
      have inside := line.isLt
      have small : ¬intno > 16 := by
        rw [gt_iff_lt, BitVec.lt_def]
        show ¬16 < intno.toNat
        omega
      have first : ¬intno ≥ 8 := by
        rw [ge_iff_le, BitVec.le_def]
        show ¬8 ≤ intno.toNat
        omega
      rw [if_neg small, if_neg first]
  | slave line =>
      have number := picLine?_eq_slave_iff.mp known
      have inside := line.isLt
      have small : ¬intno > 16 := by
        rw [gt_iff_lt, BitVec.lt_def]
        show ¬16 < intno.toNat
        omega
      have second : intno ≥ 8 := by
        rw [ge_iff_le, BitVec.le_def]
        show 8 ≤ intno.toNat
        omega
      rw [if_neg small, if_pos second]

/-- `pic_eoi` ends the line that was delivered last. -/
theorem InService.eoi
    {intno : Byte}
    {line : CascadedLine}
    {rest : List CascadedLine}
    (inService : InService before)
    (known : picLine? intno = some line)
    (served : before.served = line :: rest) :
    InService ⟨picPerform before.pics (picEoi intno), rest⟩ := by
  have nested := inService.nested
  rw [served, List.pairwise_cons] at nested
  have first := inService.first
  have second := inService.second
  rw [served] at first second
  have onTop :
      before.pics.master.inService.getLsbD (firstLine line).val = true :=
    (first _).mpr ⟨line, List.mem_cons_self, rfl⟩
  have highest :
      ∀ other < firstLine line,
        before.pics.master.inService.getLsbD other.val = false := by
    intro other above
    rw [← Bool.not_eq_true, first]
    rintro ⟨blocking, member, rfl⟩
    rcases List.mem_cons.mp member with rfl | below
    · exact lt_irrefl _ above
    · exact lt_asymm above (nested.1 blocking below)
  rw [picPerform_eoi_of_line known]
  refine ⟨fun other => ?_, fun other => ?_, nested.2⟩
  · show (before.pics.master.endOfInterrupt.inService.getLsbD other.val =
      true) ↔ _
    rw [inService_endOfInterrupt onTop highest, Bool.and_eq_true,
      decide_eq_true_eq, first, List.exists_mem_cons_iff]
    constructor
    · rintro ⟨same | below, notTop⟩
      · exact absurd same notTop
      · exact below
    · rintro ⟨blocking, below, rfl⟩
      exact
        ⟨Or.inr ⟨blocking, below, rfl⟩, (nested.1 blocking below).ne⟩
  · cases line with
    | master line =>
        show (before.pics.slave.inService.getLsbD other.val = true) ↔ _
        rw [second, List.mem_cons]
        exact or_iff_right (nomatch ·)
    | slave line =>
        -- nothing else of the second controller is below its line
        have alone (other : Fin 8) : CascadedLine.slave other ∉ rest :=
          fun below => lt_irrefl cascadeLine (nested.1 _ below)
        have highest :
            ∀ other < line,
              before.pics.slave.inService.getLsbD other.val = false := by
          intro other above
          rw [← Bool.not_eq_true, second, List.mem_cons]
          rintro (same | below)
          · exact above.ne (CascadedLine.slave.inj same)
          · exact alone other below
        show (before.pics.slave.endOfInterrupt.inService.getLsbD other.val =
          true) ↔ _
        rw [inService_endOfInterrupt
            ((second line).mpr List.mem_cons_self) highest,
          Bool.and_eq_true, decide_eq_true_eq, second, List.mem_cons,
          CascadedLine.slave.injEq]
        refine iff_of_false ?_ (alone other)
        rintro ⟨same | below, notTop⟩
        · exact notTop same.symm
        · exact alone other below

/-- A step keeps what is served in service. -/
theorem InService.step
    {event : PicEvent}
    (inService : InService before)
    (programmed : PicProgrammed base0 base1 masks before.pics)
    (stepped : ServeStep event before after) :
    InService after := by
  have first := programmed.first
  have second := programmed.second
  cases event with
  | enableIrq line =>
      obtain ⟨⟨_, performed⟩, served⟩ := stepped
      obtain ⟨mask0, mask1, changed⟩ :=
        exists_masks_enableIrq first second line
      rw [changed] at performed
      exact
        inService.congr (by rw [performed]) (by rw [performed]) served
  | disableIrq line =>
      obtain ⟨⟨_, performed⟩, served⟩ := stepped
      obtain ⟨mask0, mask1, changed⟩ :=
        exists_masks_disableIrq first second line
      rw [changed] at performed
      exact
        inService.congr (by rw [performed]) (by rw [performed]) served
  | maskIrq picNum mask =>
      obtain ⟨performed, served⟩ := stepped
      rw [PicStep, picPerform_maskIrq first second] at performed
      refine inService.congr ?_ ?_ served
      · rw [performed]
        show (if picNum = 0 then _ else _ : InterruptController).inService = _
        split <;> rfl
      · rw [performed]
        show (if picNum = 1 then _ else _ : InterruptController).inService = _
        split <;> rfl
  | eoi intno =>
      obtain ⟨performed, line, known, served⟩ := stepped
      have ended := inService.eoi known served
      rw [← performed] at ended
      exact ended
  | get ocw3 =>
      obtain ⟨performed, served⟩ := stepped
      rw [PicStep, picGet_eq] at performed
      exact
        inService.congr (by rw [performed]) (by rw [performed]) served
  | raise line =>
      obtain ⟨raised, served⟩ := stepped
      refine inService.congr ?_ ?_ served
      · rw [raised]
        cases line <;> rfl
      · rw [raised]
        cases line <;> rfl
  | withdraw line =>
      obtain ⟨lowered, served⟩ := stepped
      refine inService.congr ?_ ?_ served
      · rw [lowered]
        cases line <;> rfl
      · rw [lowered]
        cases line <;> rfl
  | accept line =>
      obtain ⟨⟨isPending, acknowledged⟩, served⟩ := stepped
      have accepted := inService.accept programmed isPending
      rw [← acknowledged, ← served] at accepted
      exact accepted

/-- A step of the handlers is one of the controllers. -/
theorem ServeStep.picStep
    {event : PicEvent}
    (stepped : ServeStep event before after) :
    PicStep event before.pics after.pics := by
  cases event <;> exact stepped.1

end Steps

/-! ## Runs -/

/-- The steps of a run, one after the other. -/
theorem InService.run
    {base0 base1 : Byte}
    {masks : PicMasks}
    {events : List PicEvent}
    {before after : ServedLines}
    (inService : InService before)
    (programmed : PicProgrammed base0 base1 masks before.pics)
    (ran : Run ServeStep before events after) :
    PicProgrammed base0 base1 (events.foldl maskStep masks) after.pics ∧
      InService after := by
  induction ran with
  | nil =>
      exact ⟨programmed, inService⟩
  | snoc _ stepped inductionHypothesis =>
      obtain ⟨programmed, inService⟩ := inductionHypothesis
      rw [List.foldl_append]
      exact
        ⟨programmed.step stepped.picStep,
          inService.step programmed stepped⟩

/-- After `initialize_pic` nothing is in service. -/
theorem inService_initializePic
    (base0 base1 : Byte)
    (pics : CascadedControllers) :
    InService ⟨picPerform pics (initializePic base0 base1), []⟩ := by
  have clear : ∀ line : Fin 8, (0 : Byte).getLsbD line.val ≠ true := by
    decide
  rw [picPerform_initializePic]
  exact
    { first := fun line => iff_of_false (clear line) (by simp)
      second := fun line => iff_of_false (clear line) (by simp)
      nested := List.Pairwise.nil }

/--
From `initialize_pic` on, whatever is masked and requested in between: the
lines that have not ended are in service, and what waits above them is
delivered.
-/
theorem initializePic_nests
    {base0 base1 : Byte}
    {pics : CascadedControllers}
    {events : List PicEvent}
    {final : ServedLines}
    (ran :
      Run ServeStep ⟨picPerform pics (initializePic base0 base1), []⟩ events
        final) :
    Nests base0 base1 (events.foldl maskStep fun _ => true) final := by
  obtain ⟨programmed, inService⟩ :=
    (inService_initializePic base0 base1 pics).run
      (programmed_initializePic base0 base1 pics) ran
  exact
    { programmed := programmed
      inService := inService
      delivers := fun _ isPending =>
        inService.waiting programmed.masked isPending
      progress := fun _ waiting =>
        waiting.isSome_pending inService programmed.masked }

/-- The timer interrupts the handler of the keyboard, and ends first. -/
theorem initializePic_nests_timer :
    ∃ final,
      Nests 0x20 0x28
          ([.enableIrq 1, .enableIrq 0, .raise (.master 1),
              .accept (.master 1), .raise (.master 0),
              .accept (.master 0), .eoi 0].foldl
            maskStep fun _ => true)
          final ∧
        final.served = [.master 1] := by
  let powerOn : InterruptController := ⟨0, 0, 0, 0, 0, 0, .mask, false⟩
  have enabled :=
    (Run.nil.snoc
      (show ServeStep (.enableIrq 1)
          ⟨picPerform ⟨powerOn, powerOn⟩ (initializePic 0x20 0x28), []⟩
          ⟨_, _⟩ from
        ⟨⟨by decide, rfl⟩, rfl⟩)).snoc
      (show ServeStep (.enableIrq 0) _ ⟨_, _⟩ from ⟨⟨by decide, rfl⟩, rfl⟩)
  have keyboard :=
    (enabled.snoc
      (show ServeStep (.raise (.master 1)) _ ⟨_, _⟩ from ⟨rfl, rfl⟩)).snoc
      (show ServeStep (.accept (.master 1)) _ ⟨_, _⟩ from
        ⟨⟨by decide, rfl⟩, rfl⟩)
  have timer :=
    (keyboard.snoc
      (show ServeStep (.raise (.master 0)) _ ⟨_, _⟩ from ⟨rfl, rfl⟩)).snoc
      (show ServeStep (.accept (.master 0)) _ ⟨_, _⟩ from
        ⟨⟨by decide, rfl⟩, rfl⟩)
  have ended :=
    timer.snoc
      (show ServeStep (.eoi 0) _ ⟨_, [.master 1]⟩ from
        ⟨rfl, .master 0, rfl, rfl⟩)
  exact ⟨_, initializePic_nests ended, rfl⟩

end HobbyOS
