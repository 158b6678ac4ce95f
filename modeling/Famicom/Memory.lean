import Famicom.Settings

/-
  Address buses and plain memory.

  An address bus is anything a processor can read from and
  write to.  A read may change what is attached to the bus,
  so both accesses are state changes.

  Key definitions include:
    * `AddressBus`
    * `AddressBus.readMany`
    * `AddressBus.writeMany`
    * `Ram`
    * `Ram.read`
    * `Ram.write`
-/

namespace Famicom

------------------------------------------------------------
-- Buses
------------------------------------------------------------

/- A sixteen-bit address space of bytes. -/
class AddressBus (β : Type) where
  read : UInt16 → StateM β UInt8
  write : UInt16 → UInt8 → StateM β Unit

namespace AddressBus

variable {β : Type} [AddressBus β]

/-
  Read a number of bytes in order.  Each address is `stride`
  behind the one before, and a stride of 0 reads one address
  over and over.
-/
def readMany (stride : UInt16) :
    UInt16 → Nat → StateM β (List UInt8)
  | _, 0 => return []
  | address, count + 1 => do
      let value ← read address
      let rest ← readMany stride (address + stride) count
      return value :: rest

/- Write bytes in order, `stride` addresses apart. -/
def writeMany (stride : UInt16) :
    UInt16 → List UInt8 → StateM β Unit
  | _, [] => return ()
  | address, value :: rest => do
      write address value
      writeMany stride (address + stride) rest

end AddressBus

------------------------------------------------------------
-- Random Access Memory
------------------------------------------------------------

/- Random access memory of any size. -/
structure Ram where
  cells : Array UInt8
deriving DecidableEq

namespace Ram

/- Memory of a given size with one value in every cell. -/
def filled
    (size : Nat)
    (value : UInt8) : Ram where
  cells := Array.replicate size value

/- The number of cells. -/
def size (ram : Ram) : Nat :=
  ram.cells.size

/-
  The cell that an address selects.  Addresses beyond the
  memory's size wrap around.
-/
def cellOf
    (ram : Ram)
    (address : UInt16) : Nat :=
  address.toNat % ram.size

/-
  The byte at an address.  Memory without cells drives
  nothing and reads as 0.
-/
def read
    (ram : Ram)
    (address : UInt16) : UInt8 :=
  ram.cells.getD (ram.cellOf address) 0

/- The memory with one byte replaced. -/
def write
    (ram : Ram)
    (address : UInt16)
    (value : UInt8) : Ram where
  cells := ram.cells.setIfInBounds (ram.cellOf address) value

/- Another memory with one cell copied from this one. -/
def copyCell
    (ram : Ram)
    (target : Ram)
    (place : Nat) : Ram :=
  let address := place.toUInt16
  target.write address (ram.read address)

/-
  The memory with zeroed cells added until it has a given
  size: zeroed memory of that size into which all cells are
  copied.  Memory that is large enough stays as it is.
-/
def growTo
    (ram : Ram)
    (size : Nat) : Ram :=
  if ram.size < size then
    (List.range ram.size).foldl ram.copyCell (filled size 0)
  else
    ram

/- Memory is an address bus on which every access lands. -/
instance : AddressBus Ram where
  read address := fun ram => (ram.read address, ram)
  write address value := fun ram =>
    ((), ram.write address value)

end Ram

end Famicom
