import Famicom.Memory
import Famicom.Mirroring

/-
  The nametable memory.

  The console has memory for two tables of 1 kB.  Two more
  are added when an arrangement needs them for the first
  time, and they stay from then on.  Changing the arrangement
  changes no byte.

  Key definitions include:
    * `Nametables`
    * `Nametables.placeOf`
    * `Nametables.read`
    * `Nametables.write`
    * `Nametables.setMirroring`
-/

namespace Famicom

------------------------------------------------------------
-- Nametables
------------------------------------------------------------

/- The physical tables and the arrangement in force. -/
structure Nametables where
  memory : Ram
  mirroring : Mirroring
deriving DecidableEq

namespace Nametables

/- Zeroed tables, as many as the arrangement needs. -/
def blank (mirroring : Mirroring) : Nametables where
  memory := .filled mirroring.memorySize 0
  mirroring := mirroring

/- The memory that the arrangement needs, in bytes. -/
def size (tables : Nametables) : Nat :=
  tables.mirroring.memorySize

/-
  Change the arrangement.  Memory that it needs and that is
  not there yet is added behind the rest.
-/
def setMirroring
    (tables : Nametables)
    (mirroring : Mirroring) : Nametables where
  memory := tables.memory.growTo mirroring.memorySize
  mirroring := mirroring

/- The logical table that an address lies in. -/
def tableOf (address : UInt16) : Fin 4 :=
  ⟨address.toNat / 1024 % 4, Nat.mod_lt _ (by decide)⟩

/-
  The physical place of an address.  Addresses repeat every
  four tables.
-/
def placeOf
    (mirroring : Mirroring)
    (address : UInt16) : UInt16 :=
  let table := mirroring.physicalTable (tableOf address)
  table.val.toUInt16 * Hardware.nametableSize +
    address % Hardware.nametableSize

/- The byte at an address. -/
def read
    (tables : Nametables)
    (address : UInt16) : UInt8 :=
  tables.memory.read (placeOf tables.mirroring address)

/- Store a byte at an address. -/
def write
    (tables : Nametables)
    (address : UInt16)
    (value : UInt8) : Nametables :=
  { tables with
    memory :=
      tables.memory.write
        (placeOf tables.mirroring address) value }

end Nametables

end Famicom
