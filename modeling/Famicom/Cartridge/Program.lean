import Famicom.Memory

/-
  The processor's side of a cartridge.

  Program memory answers from $4020 on.  The upper half of
  the address space reads the program, the quarter below it
  reaches optional memory, and the rest is not connected.

  Key definitions include:
    * `ProgramMemory`
    * `ProgramMemory.read`
    * `ProgramMemory.write`
    * `ProgramMemory.cartridgeAddress`
-/

namespace Famicom

------------------------------------------------------------
-- Program Memory
------------------------------------------------------------

/-
  A program of one or two banks of 16 kB and memory beside
  it, which may have no cells.
-/
structure ProgramMemory where
  rom : Array UInt8
  ram : Ram
  rom_size : rom.size = 0x4000 ∨ rom.size = 0x8000
deriving DecidableEq

namespace ProgramMemory

/-
  The program's byte for an address of the upper half.  A
  program of one bank appears twice.
-/
def romByte
    (program : ProgramMemory)
    (address : UInt16) : UInt8 :=
  let place := (address - Hardware.cartridgeRomStart).toNat
  have hSize : 0 < program.rom.size := by
    have := program.rom_size
    omega
  have hPlace :
      place % program.rom.size < program.rom.size :=
    Nat.mod_lt _ hSize
  program.rom[place % program.rom.size]

/- Whether an address lies in the window of the memory. -/
def isRamAddress (address : UInt16) : Bool :=
  Hardware.cartridgeRamStart ≤ address &&
    address ≤ Hardware.cartridgeRamEnd

/- The byte at a processor address. -/
def read
    (program : ProgramMemory)
    (address : UInt16) : UInt8 :=
  if Hardware.cartridgeRomStart ≤ address then
    program.romByte address
  else if isRamAddress address then
    program.ram.read (address - Hardware.cartridgeRamStart)
  else
    0

/-
  Store a byte at a processor address.  Only the memory
  window takes it.
-/
def write
    (program : ProgramMemory)
    (address : UInt16)
    (value : UInt8) : ProgramMemory :=
  if isRamAddress address then
    { program with
      ram :=
        program.ram.write
          (address - Hardware.cartridgeRamStart) value }
  else
    program

------------------------------------------------------------
-- Window
------------------------------------------------------------

/-
  The processor address at a distance from the start of the
  cartridge's window.
-/
def cartridgeAddress (distance : UInt16) : UInt16 :=
  Hardware.cartridgeStart + distance

/- The number of addresses in the cartridge's window. -/
def windowSize : Nat :=
  0x10000 - Hardware.cartridgeStart.toNat

end ProgramMemory

end Famicom
