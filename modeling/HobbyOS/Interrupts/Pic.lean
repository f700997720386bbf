import HobbyOS.Interrupts.VectorStore
import HobbyOS.Library.InterruptController
import HobbyOS.Timer.Pit

namespace HobbyOS

open Library

/-!
# The interrupt controllers

`pic.c`: the functions yield their accesses to the ports, behind which are two
controllers.  `pic_enable_irq` is the one that `pit_start_counter` calls.
-/

/-- `PIC1_REG_COMMAND_PORT`. -/
def pic1CommandPort : BitVec 16 := 0x20

/-- `PIC1_REG_DATA_PORT`. -/
def pic1DataPort : BitVec 16 := 0x21

/-- `PIC2_REG_COMMAND_PORT`. -/
def pic2CommandPort : BitVec 16 := 0xA0

/-- `PIC2_REG_DATA_PORT`. -/
def pic2DataPort : BitVec 16 := 0xA1

/-- `PIC_OCW2_MASK_EOI`. -/
def picOcw2MaskEoi : Byte := 0x20

/-- `enum PIC_OCW3`. -/
inductive PicOcw3 where
  | readIrr
  | readIsr
  deriving DecidableEq

/-- The values of `enum PIC_OCW3`. -/
def PicOcw3.code : PicOcw3 → Byte
  | readIrr => 0xA
  | readIsr => 0xB

/-- `pic_read_data`. -/
def picReadData (inb : BitVec 16 → Byte) (picNum : Byte) : Byte :=
  if picNum > 1 then
    0
  else
    inb (if picNum = 1 then pic2DataPort else pic1DataPort)

/-- `pic_send_data`. -/
def picSendData (picNum data : Byte) : List PortAccess :=
  if picNum > 1 then
    []
  else
    [.outb (if picNum = 1 then pic2DataPort else pic1DataPort) data]

/-- `pic_send_command`. -/
def picSendCommand (picNum command : Byte) : List PortAccess :=
  if picNum > 1 then
    []
  else
    [.outb (if picNum = 1 then pic2CommandPort else pic1CommandPort) command]

/-- `pic_mask_irq`. -/
def picMaskIrq (picNum mask : Byte) : List PortAccess :=
  picSendData picNum mask

/-- `pic_disable_irq`. -/
def picDisableIrq (inb : BitVec 16 → Byte) (line : Byte) : List PortAccess :=
  let port := picDataPort line
  let line := if line < 8 then line else line - 8
  [.inb port, .outb port (inb port ||| (1 : Byte) <<< line.toNat)]

/-- `pic_eoi`. -/
def picEoi (intno : Byte) : List PortAccess :=
  if intno > 16 then
    []
  else
    (if intno ≥ 8 then picSendCommand 1 picOcw2MaskEoi else []) ++
      picSendCommand 0 picOcw2MaskEoi

/-- The accesses of `initialize_pic`. -/
def initializePic (base0 base1 : Byte) : List PortAccess :=
  picSendCommand 0 (1 ||| 16) ++ picSendCommand 1 (1 ||| 16) ++
    picSendData 0 base0 ++ picSendData 1 base1 ++
    picSendData 0 4 ++ picSendData 1 2 ++
    picSendData 0 1 ++ picSendData 1 1 ++
    picSendData 0 0xFF ++ picSendData 1 0xFF

/-- The handler that `initialize_pic` installs. -/
def initializePicCall (base0 : Byte) (irq7Handler : PtrT) : IdtCall :=
  .installHandler (base0.setWidth 32 + 7) vectorFlags 0x8 irq7Handler

/-- `pic_set_irq`, with the base that `initialize_pic` has kept. -/
def picSetIrq (base0 index : Byte) (handler : PtrT) : IdtCall :=
  .installHandler (base0.setWidth 32 + index.setWidth 32) vectorFlags 0x8
    handler

/-! ## The controllers behind the ports -/

/-- One access reaches its controller. -/
def picAccess (pics : CascadedControllers) :
    PortAccess → CascadedControllers
  | .outb port value =>
      if port = pic1CommandPort then
        { pics with master := pics.master.writeCommand value }
      else if port = pic1DataPort then
        { pics with master := pics.master.writeData value }
      else if port = pic2CommandPort then
        { pics with slave := pics.slave.writeCommand value }
      else if port = pic2DataPort then
        { pics with slave := pics.slave.writeData value }
      else
        pics
  | _ => pics

/-- Accesses one after the other. -/
def picPerform (pics : CascadedControllers) (accesses : List PortAccess) :
    CascadedControllers :=
  accesses.foldl picAccess pics

/-- What is read from a port of the controllers. -/
def picInb (pics : CascadedControllers) (port : BitVec 16) : Byte :=
  if port = pic1CommandPort then
    pics.master.readCommand
  else if port = pic1DataPort then
    pics.master.readData
  else if port = pic2CommandPort then
    pics.slave.readCommand
  else if port = pic2DataPort then
    pics.slave.readData
  else
    0xFF

/-- `pic_get_irr` and `pic_get_isr`: a command for both, and their data. -/
def picGet (ocw3 : PicOcw3) (pics : CascadedControllers) :
    CascadedControllers × BitVec 16 :=
  let pics :=
    picPerform pics
      (picSendCommand 0 ocw3.code ++ picSendCommand 1 ocw3.code)
  (pics,
    (picReadData (picInb pics) 1).setWidth 16 <<< 8 |||
      (picReadData (picInb pics) 0).setWidth 16)

/-- `pic_get_irr`. -/
def picGetIrr (pics : CascadedControllers) :
    CascadedControllers × BitVec 16 :=
  picGet .readIrr pics

/-- `pic_get_isr`. -/
def picGetIsr (pics : CascadedControllers) :
    CascadedControllers × BitVec 16 :=
  picGet .readIsr pics

/-- The line that a number stands for in `pic_enable_irq`. -/
def picLine? (line : Byte) : Option CascadedLine :=
  if small : line.toNat < 8 then
    some (.master ⟨line.toNat, small⟩)
  else if below : line.toNat - 8 < 8 then
    some (.slave ⟨line.toNat - 8, below⟩)
  else
    none

/-- The mask of a line. -/
def picMasked (pics : CascadedControllers) : CascadedLine → Bool
  | .master line => pics.master.mask.getLsbD line.val
  | .slave line => pics.slave.mask.getLsbD line.val

/-- What happens to the controllers. -/
inductive PicEvent where
  | enableIrq (line : Byte)
  | disableIrq (line : Byte)
  | maskIrq (picNum mask : Byte)
  | eoi (intno : Byte)
  | get (ocw3 : PicOcw3)
  | raise (line : CascadedLine)
  | withdraw (line : CascadedLine)
  | accept (line : CascadedLine)

/--
The kernel calls a function, or a device or the processor acts.  C defines the
shifts of an `int` by less than 32 only.
-/
def PicStep : PicEvent → CascadedControllers → CascadedControllers → Prop
  | .enableIrq line, before, after =>
      line.toNat < 8 + 32 ∧
        after = picPerform before (picEnableIrq (picInb before) line)
  | .disableIrq line, before, after =>
      line.toNat < 8 + 32 ∧
        after = picPerform before (picDisableIrq (picInb before) line)
  | .maskIrq picNum mask, before, after =>
      after = picPerform before (picMaskIrq picNum mask)
  | .eoi intno, before, after => after = picPerform before (picEoi intno)
  | .get ocw3, before, after => after = (picGet ocw3 before).1
  | .raise line, before, after => after = before.raise line
  | .withdraw line, before, after => after = before.lower line
  | .accept line, before, after =>
      before.pending = some line ∧ after = before.acknowledge line

/-! ## The masks as a map -/

/-- The lines that are masked. -/
abbrev PicMasks := CascadedLine → Bool

/-- A line is masked or not, if the number stands for one. -/
def setMasked (masks : PicMasks) (line : Byte) (masked : Bool) : PicMasks :=
  fun known => if picLine? line = some known then masked else masks known

/-- What an event does to the masks. -/
def maskStep (masks : PicMasks) : PicEvent → PicMasks
  | .enableIrq line => setMasked masks line false
  | .disableIrq line => setMasked masks line true
  | .maskIrq picNum mask => fun line =>
      match line with
      | .master number =>
          if picNum = 0 then mask.getLsbD number.val else masks line
      | .slave number =>
          if picNum = 1 then mask.getLsbD number.val else masks line
  | _ => masks

/-- The vectors start at a base. -/
structure Programmed (base : Byte) (controller : InterruptController) :
    Prop where
  base : controller.base = base &&& 0xF8
  mode : controller.mode = 1
  next : controller.next = .mask

/-- Both controllers are programmed, and their masks are the ones of the map. -/
structure PicProgrammed
    (base0 base1 : Byte)
    (masks : PicMasks)
    (pics : CascadedControllers) :
    Prop where
  first : Programmed base0 pics.master
  second : Programmed base1 pics.slave
  masked : picMasked pics = masks

/--
Only lines that are not masked are delivered, those of the second controller
only if line 2 is not masked either, and every line has its own vector.  Both
functions that should read the requests and the service read the masks.
-/
structure PicServes
    (base0 base1 : Byte)
    (masks : PicMasks)
    (pics : CascadedControllers) :
    Prop where
  programmed : PicProgrammed base0 base1 masks pics
  delivers :
    ∀ line,
      pics.pending = some line →
      masks line = false ∧
        ∀ number, line = .slave number → masks (.master cascadeLine) = false
  reads :
    ∀ (ocw3 : PicOcw3) (number : Fin 8),
      (picGet ocw3 pics).2.getLsbD number.val = masks (.master number) ∧
        (picGet ocw3 pics).2.getLsbD (8 + number.val) =
          masks (.slave number)

/-! ## One access -/

section Access

variable
  {base : Byte}
  {controller : InterruptController}
  {pics : CascadedControllers}

/-- The functions for a controller that there is. -/
theorem picPerform_sendData (data : Byte) :
    picPerform pics (picSendData 0 data) =
        { pics with master := pics.master.writeData data } ∧
      picPerform pics (picSendData 1 data) =
        { pics with slave := pics.slave.writeData data } :=
  ⟨rfl, rfl⟩

/-- A mask is set in a controller that is programmed. -/
theorem Programmed.writeData
    (programmed : Programmed base controller)
    (mask : Byte) :
    controller.writeData mask = { controller with mask := mask } := by
  rw [InterruptController.writeData, programmed.next]

/-- `initialize_pic` programs both controllers, whatever they were doing. -/
theorem picPerform_initializePic (base0 base1 : Byte) :
    picPerform pics (initializePic base0 base1) =
      ⟨⟨0, 0, 0xFF, base0 &&& 0xF8, 4, 1, .mask, false⟩,
        ⟨0, 0, 0xFF, base1 &&& 0xF8, 2, 1, .mask, false⟩⟩ :=
  rfl

/-- A mask with one more bit, or one less. -/
theorem getLsbD_change (mask : Byte) (bit : Nat) (other : Fin 8) :
    (mask ||| (1 : Byte) <<< bit).getLsbD other.val =
        (if bit = other.val then true else mask.getLsbD other.val) ∧
      (mask &&& ~~~((1 : Byte) <<< bit)).getLsbD other.val =
        (if bit = other.val then false else mask.getLsbD other.val) := by
  have inside := other.isLt
  have shifted : (1 : Byte) <<< bit = BitVec.twoPow 8 bit :=
    (BitVec.twoPow_eq 8 bit).symm
  rw [BitVec.getLsbD_or, BitVec.getLsbD_and, BitVec.getLsbD_not, shifted,
    BitVec.getLsbD_twoPow, decide_eq_true inside, Bool.true_and]
  by_cases same : bit = other.val
  · simp [same, inside]
  · simp [same]

/-- `pic_eoi` ends the highest line in service. -/
theorem picPerform_eoi (intno : Byte) :
    picPerform pics (picEoi intno) =
      if intno > 16 then
        pics
      else
        { master := pics.master.endOfInterrupt
          slave :=
            if intno ≥ 8 then pics.slave.endOfInterrupt else pics.slave } := by
  unfold picEoi
  split
  · rfl
  · split
    · rfl
    · rfl

/-- `pic_mask_irq` sets the whole mask of a controller. -/
theorem picPerform_maskIrq
    (first : Programmed base0 pics.master)
    (second : Programmed base1 pics.slave)
    (picNum mask : Byte) :
    picPerform pics (picMaskIrq picNum mask) =
      { master :=
          if picNum = 0 then
            { pics.master with mask := mask }
          else
            pics.master
        slave :=
          if picNum = 1 then
            { pics.slave with mask := mask }
          else
            pics.slave } := by
  unfold picMaskIrq
  by_cases isFirst : picNum = 0
  · subst isFirst
    rw [(picPerform_sendData mask).1, first.writeData]
    rfl
  · by_cases isSecond : picNum = 1
    · subst isSecond
      rw [(picPerform_sendData mask).2, second.writeData]
      rfl
    · have above : picNum > 1 := by
        rw [gt_iff_lt, BitVec.lt_def]
        have notZero : picNum.toNat ≠ 0 :=
          fun same => isFirst (BitVec.eq_of_toNat_eq same)
        have notOne : picNum.toNat ≠ 1 :=
          fun same => isSecond (BitVec.eq_of_toNat_eq same)
        show 1 < picNum.toNat
        omega
      rw [if_neg isFirst, if_neg isSecond, picSendData, if_pos above]
      rfl

/-- Both reads select what the command port returns, and read the masks. -/
theorem picGet_eq (ocw3 : PicOcw3) (pics : CascadedControllers) :
    picGet ocw3 pics =
      ({ master :=
          { pics.master with readsService := ocw3.code.getLsbD 0 }
         slave :=
          { pics.slave with readsService := ocw3.code.getLsbD 0 } },
        pics.slave.mask.setWidth 16 <<< 8 |||
          pics.master.mask.setWidth 16) := by
  cases ocw3 <;> rfl

/-- The numbers of the lines of the first controller. -/
theorem picLine?_eq_master_iff {line : Byte} {number : Fin 8} :
    picLine? line = some (.master number) ↔ line.toNat = number.val := by
  have inside := number.isLt
  unfold picLine?
  split
  · rw [Option.some.injEq, CascadedLine.master.injEq, Fin.ext_iff]
  · split
    · rw [Option.some.injEq]
      exact iff_of_false (nomatch ·) (by omega)
    · exact iff_of_false (nomatch ·) (by omega)

/-- The numbers of the lines of the second controller. -/
theorem picLine?_eq_slave_iff {line : Byte} {number : Fin 8} :
    picLine? line = some (.slave number) ↔ line.toNat = 8 + number.val := by
  have inside := number.isLt
  unfold picLine?
  split
  · rw [Option.some.injEq]
    exact iff_of_false (nomatch ·) (by omega)
  · split
    · rw [Option.some.injEq, CascadedLine.slave.injEq, Fin.ext_iff]
      show line.toNat - 8 = number.val ↔ _
      omega
    · exact iff_of_false (nomatch ·) (by omega)

/-- The bit of a line of the second controller. -/
theorem toNat_sub_eight {line : Byte} (large : ¬line.toNat < 8) :
    (line - 8).toNat = line.toNat - 8 := by
  have bound := line.isLt
  rw [BitVec.toNat_sub]
  show (2 ^ 8 - 8 + line.toNat) % 2 ^ 8 = _
  omega

end Access

/-! ## Masks -/

section Masks

variable
  {base0 base1 : Byte}
  {pics : CascadedControllers}
  (first : Programmed base0 pics.master)
  (second : Programmed base1 pics.slave)

include first second

/-- A mask that is read, changed and written back. -/
theorem picPerform_change (line : Byte) (change : Byte → Byte) :
    picPerform pics
        [.inb (picDataPort line),
          .outb (picDataPort line)
            (change (picInb pics (picDataPort line)))] =
      if line < 8 then
        { pics with
          master := { pics.master with mask := change pics.master.mask } }
      else
        { pics with
          slave := { pics.slave with mask := change pics.slave.mask } } := by
  unfold picDataPort
  split
  · show
      ({ pics with master := pics.master.writeData _ } :
        CascadedControllers) = _
    rw [first.writeData]
    rfl
  · show
      ({ pics with slave := pics.slave.writeData _ } :
        CascadedControllers) = _
    rw [second.writeData]
    rfl

/-- Nothing else changes. -/
theorem exists_masks_change (line : Byte) (change : Byte → Byte) :
    ∃ mask0 mask1,
      picPerform pics
          [.inb (picDataPort line),
            .outb (picDataPort line)
              (change (picInb pics (picDataPort line)))] =
        { master := { pics.master with mask := mask0 }
          slave := { pics.slave with mask := mask1 } } := by
  rw [picPerform_change first second]
  split
  · exact ⟨change pics.master.mask, pics.slave.mask, rfl⟩
  · exact ⟨pics.master.mask, change pics.slave.mask, rfl⟩

/-- `pic_enable_irq` changes masks only. -/
theorem exists_masks_enableIrq (line : Byte) :
    ∃ mask0 mask1,
      picPerform pics (picEnableIrq (picInb pics) line) =
        { master := { pics.master with mask := mask0 }
          slave := { pics.slave with mask := mask1 } } :=
  exists_masks_change first second line fun mask =>
    mask &&& ~~~((1 : Byte) <<< (if line < 8 then line else line - 8).toNat)

/-- `pic_disable_irq` changes masks only. -/
theorem exists_masks_disableIrq (line : Byte) :
    ∃ mask0 mask1,
      picPerform pics (picDisableIrq (picInb pics) line) =
        { master := { pics.master with mask := mask0 }
          slave := { pics.slave with mask := mask1 } } :=
  exists_masks_change first second line fun mask =>
    mask ||| (1 : Byte) <<< (if line < 8 then line else line - 8).toNat

/-- The masks behind a change of the mask of a line. -/
theorem picMasked_change
    {line : Byte}
    {change : Byte → Byte}
    {masked : Bool}
    (changes :
      ∀ (mask : Byte) (other : Fin 8),
        (change mask).getLsbD other.val =
          if (if line < 8 then line else line - 8).toNat = other.val then
            masked
          else
            mask.getLsbD other.val) :
    picMasked
        (picPerform pics
          [.inb (picDataPort line),
            .outb (picDataPort line)
              (change (picInb pics (picDataPort line)))]) =
      setMasked (picMasked pics) line masked := by
  rw [picPerform_change first second]
  funext known
  cases known with
  | master other =>
      have inside := other.isLt
      simp only [setMasked, picLine?_eq_master_iff]
      split
      · rename_i small
        show (change pics.master.mask).getLsbD other.val = _
        rw [changes, if_pos small]
        rfl
      · rename_i notSmall
        have large : ¬line.toNat < 8 :=
          fun below => notSmall (BitVec.lt_def.mpr below)
        rw [if_neg (by omega)]
        rfl
  | slave other =>
      simp only [setMasked, picLine?_eq_slave_iff]
      split
      · rename_i small
        have below : line.toNat < 8 := BitVec.lt_def.mp small
        rw [if_neg (by omega)]
        rfl
      · rename_i notSmall
        have large : ¬line.toNat < 8 :=
          fun below => notSmall (BitVec.lt_def.mpr below)
        show (change pics.slave.mask).getLsbD other.val = _
        rw [changes, if_neg notSmall, toNat_sub_eight large]
        exact if_congr (by omega) rfl rfl

/-- `pic_enable_irq` unmasks the line. -/
theorem picMasked_enableIrq (line : Byte) :
    picMasked (picPerform pics (picEnableIrq (picInb pics) line)) =
      setMasked (picMasked pics) line false :=
  @picMasked_change base0 base1 pics first second line
    (fun mask =>
      mask &&&
        ~~~((1 : Byte) <<< (if line < 8 then line else line - 8).toNat))
    false fun mask other => (getLsbD_change mask _ other).2

/-- `pic_disable_irq` masks the line. -/
theorem picMasked_disableIrq (line : Byte) :
    picMasked (picPerform pics (picDisableIrq (picInb pics) line)) =
      setMasked (picMasked pics) line true :=
  @picMasked_change base0 base1 pics first second line
    (fun mask =>
      mask ||| (1 : Byte) <<< (if line < 8 then line else line - 8).toNat)
    true fun mask other => (getLsbD_change mask _ other).1

end Masks

/-! ## Runs -/

section Runs

variable
  {base0 base1 : Byte}
  {masks : PicMasks}
  {before after : CascadedControllers}

/-- The programs of the controllers are kept with three registers of each. -/
theorem PicProgrammed.congr
    {changed : PicMasks}
    (programmed : PicProgrammed base0 base1 masks before)
    (masked : picMasked after = changed)
    (first :
      (after.master.base, after.master.mode, after.master.next) =
        (before.master.base, before.master.mode, before.master.next))
    (second :
      (after.slave.base, after.slave.mode, after.slave.next) =
        (before.slave.base, before.slave.mode, before.slave.next)) :
    PicProgrammed base0 base1 changed after := by
  simp only [Prod.mk.injEq] at first second
  exact
    ⟨⟨first.1.trans programmed.first.base,
        first.2.1.trans programmed.first.mode,
        first.2.2.trans programmed.first.next⟩,
      ⟨second.1.trans programmed.second.base,
        second.2.1.trans programmed.second.mode,
        second.2.2.trans programmed.second.next⟩,
      masked⟩

/-- Every step keeps the programs, and does to the masks what it says. -/
theorem PicProgrammed.step
    {event : PicEvent}
    (programmed : PicProgrammed base0 base1 masks before)
    (stepped : PicStep event before after) :
    PicProgrammed base0 base1 (maskStep masks event) after := by
  have first := programmed.first
  have second := programmed.second
  obtain rfl := programmed.masked
  cases event with
  | enableIrq line =>
      obtain ⟨_, rfl⟩ := stepped
      rw [maskStep, ← picMasked_enableIrq first second]
      obtain ⟨mask0, mask1, changed⟩ :=
        exists_masks_enableIrq first second line
      rw [changed]
      exact programmed.congr rfl rfl rfl
  | disableIrq line =>
      obtain ⟨_, rfl⟩ := stepped
      rw [maskStep, ← picMasked_disableIrq first second]
      obtain ⟨mask0, mask1, changed⟩ :=
        exists_masks_disableIrq first second line
      rw [changed]
      exact programmed.congr rfl rfl rfl
  | maskIrq picNum mask =>
      obtain rfl := stepped
      have masked :
          picMasked (picPerform before (picMaskIrq picNum mask)) =
            maskStep (picMasked before) (.maskIrq picNum mask) := by
        rw [picPerform_maskIrq first second]
        funext known
        cases known with
        | master number =>
            simp only [maskStep, picMasked]
            split <;> rfl
        | slave number =>
            simp only [maskStep, picMasked]
            split <;> rfl
      rw [← masked, picPerform_maskIrq first second]
      refine programmed.congr rfl ?_ ?_
      · by_cases isFirst : picNum = 0
        · rw [if_pos isFirst]
        · rw [if_neg isFirst]
      · by_cases isSecond : picNum = 1
        · rw [if_pos isSecond]
        · rw [if_neg isSecond]
  | eoi intno =>
      obtain rfl := stepped
      rw [picPerform_eoi]
      split
      · exact programmed
      · split
        · exact programmed.congr rfl rfl rfl
        · exact programmed.congr rfl rfl rfl
  | get ocw3 =>
      obtain rfl := stepped
      rw [picGet_eq]
      exact programmed.congr rfl rfl rfl
  | raise line =>
      obtain rfl := stepped
      cases line <;> exact programmed.congr rfl rfl rfl
  | withdraw line =>
      obtain rfl := stepped
      cases line <;> exact programmed.congr rfl rfl rfl
  | accept line =>
      obtain ⟨_, rfl⟩ := stepped
      cases line <;> exact programmed.congr rfl rfl rfl

/-- The steps of a run, one after the other. -/
theorem PicProgrammed.run
    {events : List PicEvent}
    (programmed : PicProgrammed base0 base1 masks before)
    (ran : Run PicStep before events after) :
    PicProgrammed base0 base1 (events.foldl maskStep masks) after := by
  induction ran with
  | nil =>
      exact programmed
  | snoc _ stepped inductionHypothesis =>
      rw [List.foldl_append]
      exact inductionHypothesis.step stepped

/-- What is read in place of the requests and of the service. -/
theorem getLsbD_picGet (ocw3 : PicOcw3) (number : Fin 8) :
    (picGet ocw3 before).2.getLsbD number.val =
        picMasked before (.master number) ∧
      (picGet ocw3 before).2.getLsbD (8 + number.val) =
        picMasked before (.slave number) := by
  have inside := number.isLt
  have twice : 8 + number.val < 16 := by omega
  rw [picGet_eq]
  constructor
  · show (before.slave.mask.setWidth 16 <<< 8 |||
      before.master.mask.setWidth 16).getLsbD number.val = _
    have narrow : number.val < 16 := by omega
    rw [BitVec.getLsbD_or, BitVec.getLsbD_shiftLeft,
      BitVec.getLsbD_setWidth, BitVec.getLsbD_setWidth,
      decide_eq_true inside, decide_eq_true narrow]
    simp [picMasked]
  · show (before.slave.mask.setWidth 16 <<< 8 |||
      before.master.mask.setWidth 16).getLsbD (8 + number.val) = _
    rw [BitVec.getLsbD_or, BitVec.getLsbD_shiftLeft,
      BitVec.getLsbD_setWidth, BitVec.getLsbD_setWidth,
      BitVec.getLsbD_of_ge before.master.mask _ (by omega),
      Nat.add_sub_cancel_left, decide_eq_true twice,
      decide_eq_true (show number.val < 16 by omega)]
    simp [picMasked]

/-- Controllers that are programmed serve the lines that are not masked. -/
theorem PicProgrammed.serves
    (programmed : PicProgrammed base0 base1 masks before) :
    PicServes base0 base1 masks before where
  programmed := programmed
  delivers := by
    intro line isPending
    obtain rfl := programmed.masked
    cases line with
    | master line =>
        exact
          ⟨(deliverable_of_pending_master isPending).2.2.1,
            fun _ same => nomatch same⟩
    | slave line =>
        obtain ⟨deliverable, unmasked, _⟩ :=
          deliverable_of_pending_slave isPending
        exact ⟨deliverable.2.1, fun _ _ => unmasked⟩
  reads := by
    intro ocw3 number
    obtain rfl := programmed.masked
    exact getLsbD_picGet ocw3 number

/-- After `initialize_pic` everything is masked. -/
theorem programmed_initializePic
    (base0 base1 : Byte)
    (pics : CascadedControllers) :
    PicProgrammed base0 base1 (fun _ => true)
      (picPerform pics (initializePic base0 base1)) := by
  rw [picPerform_initializePic]
  refine ⟨⟨rfl, rfl, rfl⟩, ⟨rfl, rfl, rfl⟩, ?_⟩
  have allMasked : ∀ number : Fin 8, (0xFF : Byte).getLsbD number.val := by
    decide
  funext line
  cases line with
  | master number =>
      exact allMasked number
  | slave number =>
      exact allMasked number

/--
From `initialize_pic` on, whatever the controllers did before it and whatever
calls and requests come after it: the masks are the ones that the calls have
asked for, and what is delivered respects them.
-/
theorem initializePic_serves
    {pics final : CascadedControllers}
    {events : List PicEvent}
    (ran :
      Run PicStep (picPerform pics (initializePic base0 base1)) events final) :
    PicServes base0 base1 (events.foldl maskStep fun _ => true) final :=
  ((programmed_initializePic base0 base1 pics).run ran).serves

/-- A line is unmasked, and masked again while it is requested. -/
theorem initializePic_serves_remasked :
    ∃ final,
      PicServes 0x20 0x28
          ([.enableIrq 12, .maskIrq 0 0xFB, .raise (.slave 4),
              .disableIrq 12].foldl
            maskStep fun _ => true)
          final ∧
        final.pending = none := by
  let powerOn : InterruptController := ⟨0, 0, 0, 0, 0, 0, .mask, false⟩
  have unmasked :=
    (Run.nil.snoc
      (show PicStep (.enableIrq 12)
          (picPerform ⟨powerOn, powerOn⟩ (initializePic 0x20 0x28)) _ from
        ⟨by decide, rfl⟩)).snoc
      (show PicStep (.maskIrq 0 0xFB) _ _ from rfl)
  have masked :=
    (unmasked.snoc (show PicStep (.raise (.slave 4)) _ _ from rfl)).snoc
      (show PicStep (.disableIrq 12) _ _ from ⟨by decide, rfl⟩)
  exact ⟨_, initializePic_serves masked, by decide⟩

end Runs

end HobbyOS
