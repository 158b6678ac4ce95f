import Famicom.AddressMap
import Famicom.Cartridge
import Famicom.Controller
import Famicom.OamDma
import Famicom.Video.Access

/-
  The console's board: everything that the processor reaches
  through its address bus.

  Key definitions include:
    * `BoardDevice`
    * `Board.regions`
    * `Board`
    * `Board.read`
    * `Board.write`
    * `Board.transferOam`
-/

namespace Famicom

------------------------------------------------------------
-- Address Map
------------------------------------------------------------

/-
  What answers in a region.  There is no sound unit, and its
  registers are silent.
-/
inductive BoardDevice where
  | ram
  | ppu
  | silent
  | oamDma
  | controllers
  | cartridge
deriving DecidableEq

namespace Board

open Hardware in
/- The regions of the processor's address space. -/
def regions : List (AddressMap.Region BoardDevice) :=
  [ ⟨"RAM", .ram, ⟨ramStart, ramEnd⟩, .wrap ramSize⟩,
    ⟨"PPU registers", .ppu,
      ⟨ppuRegistersStart, ppuRegistersEnd⟩,
      .wrap ppuRegistersSize⟩,
    ⟨"APU registers", .silent,
      ⟨apuRegistersStart, apuRegistersEnd⟩, .offset⟩,
    ⟨"OAM DMA", .oamDma, ⟨oamDma, oamDma⟩, .offset⟩,
    ⟨"APU status", .silent, ⟨apuStatus, apuStatus⟩,
      .offset⟩,
    ⟨"Controllers", .controllers,
      ⟨controllerOne, controllerTwo⟩, .offset⟩,
    ⟨"APU test mode", .silent,
      ⟨apuTestModeStart, apuTestModeEnd⟩, .offset⟩,
    ⟨"Cartridge", .cartridge,
      ⟨cartridgeStart, cartridgeEnd⟩, .offset⟩ ]

/- The map of the processor's address space. -/
def addressMap :
    Except AddressMap.Fault (AddressMap BoardDevice) := do
  let draft ←
    (AddressMap.Draft.empty "CPU").attachAll regions
  draft.build

end Board

------------------------------------------------------------
-- Board
------------------------------------------------------------

/- The devices of the board and the map that leads to them. -/
structure Board where
  map : AddressMap BoardDevice
  ram : Ram
  ppu : Ppu
  controllers : Pads
  dma : OamDma
  program : ProgramMemory

namespace Board

/- A board at power-on, with a cartridge plugged in. -/
def powerOn
    (cartridge : Cartridge)
    (timing : FrameTiming)
    (fill : RamFill) :
    Except AddressMap.Fault Board := do
  let map ← addressMap
  return {
    map := map
    ram := .filled Hardware.ramSize.toNat fill.value
    ppu := .powerOn
      (.ofPatterns cartridge.patterns cartridge.mirroring)
      timing
    controllers := {}
    dma := {}
    program := cartridge.program }

------------------------------------------------------------
-- Accesses
------------------------------------------------------------

/- Read a byte, with the effect that the read has. -/
def read
    (board : Board)
    (address : UInt16) : UInt8 × Board :=
  let (device, place) := board.map.resolve address
  match device with
  | .ram => (board.ram.read place, board)
  | .ppu =>
      let (value, ppu) := board.ppu.read place
      (value, { board with ppu := ppu })
  | .silent => (0, board)
  | .oamDma => (0, board)
  | .controllers =>
      let (value, controllers) := board.controllers.read place
      (value, { board with controllers := controllers })
  | .cartridge =>
      (board.program.read
        (ProgramMemory.cartridgeAddress place), board)

/- Write a byte. -/
def write
    (board : Board)
    (address : UInt16)
    (value : UInt8) : Board :=
  let (device, place) := board.map.resolve address
  match device with
  | .ram => { board with ram := board.ram.write place value }
  | .ppu => { board with ppu := board.ppu.write place value }
  | .silent => board
  | .oamDma => { board with dma := board.dma.request value }
  | .controllers =>
      { board with
        controllers := board.controllers.write place value }
  | .cartridge =>
      { board with
        program := board.program.write
          (ProgramMemory.cartridgeAddress place) value }

/- The board is the processor's address bus. -/
instance : AddressBus Board where
  read address := fun board => board.read address
  write address value := fun board =>
    ((), board.write address value)

------------------------------------------------------------
-- Sprite Memory Transfer
------------------------------------------------------------

/- Copy one byte from the bus into sprite memory. -/
def copyToOam
    (board : Board)
    (address : UInt16) : Board :=
  let (value, board) := board.read address
  { board with ppu := board.ppu.writeOam value }

/- Copy a number of bytes, starting at an address. -/
def copyBytesToOam
    (board : Board)
    (address : UInt16) : Nat → Board
  | 0 => board
  | count + 1 =>
      (board.copyToOam address).copyBytesToOam
        (address + 1) count

/-
  Perform the pending transfer, if there is one.  Gives the
  cycles for which the processor is halted.
-/
def transferOam
    (board : Board)
    (startCycle : Nat) : Nat × Board :=
  match board.dma.take with
  | (none, _) => (0, board)
  | (some page, dma) =>
      let taken := { board with dma := dma }
      (OamDma.transferCycles startCycle,
        taken.copyBytesToOam (Bits.word 0 page) 256)

end Board

end Famicom
