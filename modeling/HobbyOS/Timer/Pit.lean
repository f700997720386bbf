import HobbyOS.Stddef

namespace HobbyOS

/-!
# The interval timer

`pit.c`, with the function of `pic.c` that it calls.  What reaches the devices
is the sequence of port accesses, so the functions yield this sequence; what
is read from a port is given.
-/

/-- An access to a port, or to the interrupt flag. -/
inductive PortAccess where
  | outb (port : BitVec 16) (value : Byte)
  | inb (port : BitVec 16)
  | cli
  | sti
  deriving DecidableEq

/-- `PIT_COMMAND_PORT`. -/
def pitCommandPort : BitVec 16 := 0x43

/-- `RL_DATA`. -/
def rlData : Byte := 0x30

/-- `enum PIT_COUNTER`. -/
inductive PitCounter where
  | counter0
  | counter1
  | counter2
  deriving DecidableEq

/-- The values of `enum PIT_COUNTER`. -/
def PitCounter.code : PitCounter → Byte
  | counter0 => 0
  | counter1 => 0x40
  | counter2 => 0x80

/-- `pit_send_command`. -/
def pitSendCommand (command : Byte) : List PortAccess :=
  [.outb pitCommandPort command]

/-- `0x40 + (counter >> 6)`. -/
def pitDataPort (counter : Byte) : Byte :=
  0x40 + counter >>> 6

/-- `pit_send_data`. -/
def pitSendData (counter : Byte) (data : BitVec 16) : List PortAccess :=
  [.outb ((pitDataPort counter).setWidth 16) (data.setWidth 8)]

/-- The data port of the controller of a line. -/
def picDataPort (line : Byte) : BitVec 16 :=
  if line < 8 then 0x21 else 0xA1

/-- `pic_enable_irq`. -/
def picEnableIrq (inb : BitVec 16 → Byte) (line : Byte) : List PortAccess :=
  let port := picDataPort line
  let line := if line < 8 then line else line - 8
  [.inb port, .outb port (inb port &&& ~~~((1 : Byte) <<< line.toNat))]

/--
The divisor of `pit_start_counter`, unless the division faults.  The frequency
is cut to 16 bits in front of the division.
-/
def pitDivisor (freq : BitVec 32) : Option (BitVec 16) :=
  if freq > 18 then
    let freq : BitVec 16 := freq.setWidth 16
    if freq = 0 then
      none
    else
      some (BitVec.ofNat 16 (1193181 / freq.toNat))
  else
    some 0xFFFF

/-- What `pit_start_counter` does behind the division. -/
def startAccesses
    (inb : BitVec 16 → Byte)
    (divisor : BitVec 16)
    (counter mode : Byte) :
    List PortAccess :=
  pitSendCommand (mode ||| rlData ||| counter) ++ [.cli] ++
    pitSendData ((divisor &&& 0xFF).setWidth 8) (counter.setWidth 16) ++
    pitSendData ((divisor >>> 8 &&& 0xFF).setWidth 8) (counter.setWidth 16) ++
    picEnableIrq inb 0 ++ [.sti]

/-- `pit_start_counter`, unless the division faults. -/
def pitStartCounter
    (inb : BitVec 16 → Byte)
    (freq : BitVec 32)
    (counter mode : Byte) :
    Option (List PortAccess) :=
  if freq = 0 then
    some []
  else do
    let divisor ← pitDivisor freq
    return startAccesses inb divisor counter mode

end HobbyOS
