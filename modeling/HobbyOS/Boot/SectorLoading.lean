import HobbyOS.Boot.PrintDec
import HobbyOS.Drive.BootParameters
import HobbyOS.Library.PlacedRecord
import HobbyOS.Library.Regions

namespace HobbyOS

open Library

/-!
# Loading sectors in real mode

`bootloader.asm` from `start` to the jump to the second stage.  Its variables
lie in the memory at their labels: the parameters, and the disk packet that
`load_lba_sector` gives to the BIOS, whose service is a parameter.  The stack
and the text on the screen are not in the memory.
-/

/-- A linear address. -/
def realAddress (segment offset : BitVec 16) : PtrT :=
  segment.setWidth 32 * 16 + offset.setWidth 32

/-- A byte of the boot code. -/
def bootcodeAddress (offset : Nat) : PtrT :=
  BitVec.ofNat 32 (0x7C00 + offset)

/-- The label of a parameter, behind `jmpBoot`. -/
def parameterAddress (label : ParameterLabel) : PtrT :=
  0x7C03 +
    BitVec.ofNat 32
      (offsetOf ParameterLabel.width label parameterLabels)

/-- The disk packet at `DK_packet_size`. -/
structure DiskPacket where
  packetSize : Byte
  reserved : Byte
  numberOfSectors : BitVec 16
  transferBufferBx : BitVec 16
  transferBufferEs : BitVec 16
  lowerLba : BitVec 32
  upperLba : BitVec 32

/-- The packet in the memory. -/
def packetAt (memory : Memory) (dk : PtrT) : DiskPacket where
  packetSize := memory dk
  reserved := memory (dk + 1)
  numberOfSectors := readHalf memory (dk + 2)
  transferBufferBx := readHalf memory (dk + 4)
  transferBufferEs := readHalf memory (dk + 6)
  lowerLba := readHalf memory (dk + 10) ++ readHalf memory (dk + 8)
  upperLba := readHalf memory (dk + 14) ++ readHalf memory (dk + 12)

/--
What the BIOS does for `int 0x13` with `ah` 0x42, given `dl` and the address in
`si`.  There is no memory behind a call that sets the carry flag.
-/
abbrev ExtendedRead := Byte → PtrT → Memory → Option Memory

/-- `load_lba_sector`, which does not return from an error. -/
def loadLbaSector
    (int13 : ExtendedRead)
    (dk : PtrT)
    (memory : Memory) :
    Option Memory :=
  int13 (memory (parameterAddress .driveNum)) dk memory

/-- `mul` by a word. -/
def Cpu.mulWord (cpu : Cpu) (factor : BitVec 16) : Cpu :=
  let product := cpu.ax.setWidth 32 * factor.setWidth 32
  { cpu with
    ax := product.extractLsb' 0 16
    dx := product.extractLsb' 16 16 }

/-- What the BIOS answers to the calls in front of `ext`. -/
structure ProbeAnswer where
  dh : Byte
  cl : Byte
  extensions : Bool

namespace Bootloader

/-- The packet for the sectors behind the first one. -/
def setPacket (dk : PtrT) (ax : BitVec 16) (memory : Memory) : Memory :=
  let memory := writeHalf memory (dk + 2) ax
  let memory := writeHalf memory (dk + 8) 1
  let memory := writeHalf memory (dk + 12) 0
  let memory := writeHalf memory (dk + 6) 0x7E0
  writeHalf memory (dk + 4) 0

/-- The lines from `ext` to the second stage. -/
def ext
    (int13 : ExtendedRead)
    (dk : PtrT)
    (cpu : Cpu)
    (memory : Memory) :
    Option Memory := do
  let cpu :=
    { cpu with
      ax := readHalf memory (parameterAddress .numRootEnt)
      cx := 32 }
  let cpu ←
    (cpu.mulWord cpu.cx).divWord
      (readHalf memory (parameterAddress .bytesPerSec))
  let ax := if cpu.dx = 0 then cpu.ax else cpu.ax + 1
  let ax := ax + readHalf memory (parameterAddress .numSecPerFAT)
  let ax := ax + readHalf memory (parameterAddress .reservedSec)
  let ax := ax - 1
  loadLbaSector int13 dk (setPacket dk ax memory)

/-- The parameters that the lines in front of `ext` set. -/
def probe (answer : ProbeAnswer) (dl : Byte) (memory : Memory) : Memory :=
  let memory := writeByte memory (parameterAddress .driveNum) dl
  let memory := writeByte memory (parameterAddress .numHeads) answer.dh
  writeByte memory (parameterAddress .secPerTrk) answer.cl

/-- The lines from `start` to the second stage. -/
def start
    (int13 : ExtendedRead)
    (dk : PtrT)
    (answer : ProbeAnswer)
    (dl : Byte)
    (cpu : Cpu)
    (memory : Memory) :
    Option Memory :=
  let memory := probe answer dl memory
  if answer.extensions then
    ext int13 dk cpu memory
  else
    none

end Bootloader

/-! ## The packet -/

/-- What is never written of the packet. -/
structure PacketIntact (memory : Memory) (dk : PtrT) : Prop where
  packetSize : memory dk = 16
  zero :
    ∀ offset ∈ [1, 10, 11, 14, 15],
      memory (dk + BitVec.ofNat 32 offset) = 0

section Packet

variable
  {memory : Memory}
  {dk : PtrT}
  (intact : PacketIntact memory dk)

include intact

/-- The packet for the sectors behind the first one. -/
theorem packetAt_setPacket (ax : BitVec 16) :
    packetAt (Bootloader.setPacket dk ax memory) dk =
      ⟨16, 0, ax, 0, 0x7E0, 1, 0⟩ := by
  obtain ⟨packetSize, zero⟩ := intact
  simp only [List.forall_mem_cons] at zero
  simp [Bootloader.setPacket, packetAt, readHalf, writeHalf, writeByte,
    BitVec.add_assoc, extractLsb'_append_halves, packetSize, zero]

end Packet

/-! ## Sectors of an image -/

/--
Up to 127 sectors of an image are read from a drive at once, to the buffer that
the packet names.
-/
def ReadsImage (int13 : ExtendedRead) (dl : Byte) (image : List Byte) :
    Prop :=
  ∀ {memory : Memory} {si : PtrT} {count bx es : BitVec 16}
      {lowerLba : BitVec 32},
    packetAt memory si = ⟨16, 0, count, bx, es, lowerLba, 0⟩ →
    count.toNat ≤ 127 →
    (lowerLba.toNat + count.toNat) * 512 ≤ image.length →
    int13 dl si memory =
      some
        (storeBytes memory (realAddress es bx)
          (fun offset => bytesOf image (lowerLba.toNat * 512 + offset))
          (count.toNat * 512))

end HobbyOS
