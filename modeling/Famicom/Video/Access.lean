import Famicom.Video.Ppu

/-
  The picture unit as the processor sees it.

  The low three bits of an address select one of eight
  registers.  Those that cannot be read return what the bus
  last held.

  Key definitions include:
    * `PpuRegister`
    * `PpuRegister.ofAddress`
    * `Ppu.read`
    * `Ppu.write`
    * `Ppu.writeOam`
-/

namespace Famicom

------------------------------------------------------------
-- Registers
------------------------------------------------------------

/- The eight registers by ascending address. -/
inductive PpuRegister where
  | control
  | mask
  | status
  | oamAddress
  | oamData
  | scroll
  | address
  | data
deriving DecidableEq

/- The register of an address. -/
def PpuRegister.ofAddress (address : UInt16) : PpuRegister :=
  match address.toNat % 8 with
  | 0 => control
  | 1 => mask
  | 2 => status
  | 3 => oamAddress
  | 4 => oamData
  | 5 => scroll
  | 6 => .address
  | _ => data

namespace Ppu

------------------------------------------------------------
-- Memory Accesses
------------------------------------------------------------

/- The memory address of the next data access. -/
def dataAddress (ppu : Ppu) : UInt16 :=
  ppu.scroll.current.bits &&& Hardware.pictureAddressMask

/-
  Move on after a data access.  While rendering, the access
  disturbs both scroll counters instead.
-/
def advanceAddress (ppu : Ppu) : Ppu :=
  let current :=
    if ppu.isRendering then
      ppu.scroll.current.incrementX.incrementY
    else
      ppu.scroll.current.increment
        ppu.registers.control.addressIncrement
  { ppu with scroll := { ppu.scroll with current := current } }

/-
  Read memory.  The byte arrives one read late, except from
  the palette, where the buffer takes the nametable byte
  hidden underneath.
-/
def readData (ppu : Ppu) : UInt8 × Ppu :=
  let address := ppu.dataAddress
  let (value, hidden) :=
    if Hardware.paletteStart ≤ address then
      (ppu.memory.read address,
        ppu.memory.read (address - 0x1000))
    else
      (ppu.registers.dataBuffer, ppu.memory.read address)
  let buffered :=
    { ppu with
      registers :=
        { ppu.registers with dataBuffer := hidden } }
  (value, buffered.advanceAddress)

/- Write memory. -/
def writeData
    (ppu : Ppu)
    (value : UInt8) : Ppu :=
  let address := ppu.dataAddress
  let written :=
    { ppu with memory := ppu.memory.write address value }
  written.advanceAddress

/- Write sprite memory and move on to its next place. -/
def writeOam
    (ppu : Ppu)
    (value : UInt8) : Ppu :=
  let place := ppu.registers.oamAddress
  { ppu with
    oam := ppu.oam.write place.toUInt16 value
    registers :=
      { ppu.registers with oamAddress := place + 1 } }

------------------------------------------------------------
-- Register Accesses
------------------------------------------------------------

/-
  Write the control register.  Enabling the interrupt during
  vertical blank requests it at once.
-/
def writeControl
    (ppu : Ppu)
    (value : UInt8) : Ppu :=
  let control : PpuControl := ⟨value⟩
  let enables :=
    !ppu.registers.control.nmiEnabled && control.nmiEnabled
  { ppu with
    registers := { ppu.registers with control := control }
    scroll := ppu.scroll.writeControl control.nametable
    nmiRequested :=
      ppu.nmiRequested ||
        (enables && ppu.registers.status.verticalBlank) }

/-
  Read the status.  Reading it ends the vertical blank flag
  and the sequence of double writes.
-/
def readStatus (ppu : Ppu) : UInt8 × Ppu :=
  (ppu.registers.statusByte,
    { ppu with
      registers := ppu.registers.setVerticalBlank false
      scroll := ppu.scroll.resetLatch })

/- Read a register. -/
def read
    (ppu : Ppu)
    (address : UInt16) : UInt8 × Ppu :=
  match PpuRegister.ofAddress address with
  | .status => ppu.readStatus
  | .oamData =>
      (ppu.oam.read ppu.registers.oamAddress.toUInt16, ppu)
  | .data => ppu.readData
  | _ => (ppu.registers.openBus, ppu)

/- The state with the byte on its bus. -/
def driveBus
    (ppu : Ppu)
    (value : UInt8) : Ppu :=
  { ppu with
    registers := { ppu.registers with openBus := value } }

/- Write a register.  Every write also drives the bus. -/
def write
    (ppu : Ppu)
    (address : UInt16)
    (value : UInt8) : Ppu :=
  let ppu := ppu.driveBus value
  match PpuRegister.ofAddress address with
  | .control => ppu.writeControl value
  | .mask =>
      { ppu with
        registers := { ppu.registers with mask := ⟨value⟩ } }
  | .status => ppu
  | .oamAddress =>
      { ppu with
        registers :=
          { ppu.registers with oamAddress := value } }
  | .oamData => ppu.writeOam value
  | .scroll =>
      { ppu with scroll := ppu.scroll.writeScroll value }
  | .address =>
      { ppu with scroll := ppu.scroll.writeAddress value }
  | .data => ppu.writeData value

/- The registers repeat over the whole address space. -/
instance : AddressBus Ppu where
  read address := fun ppu => ppu.read address
  write address value := fun ppu =>
    ((), ppu.write address value)

end Ppu

end Famicom
