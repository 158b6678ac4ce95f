import Famicom.Hardware

/-
  The picture unit's side of a cartridge.

  Key definitions include:
    * `PatternMemory`
    * `PatternMemory.read`
    * `PatternMemory.write`
-/

namespace Famicom

------------------------------------------------------------
-- Pattern Memory
------------------------------------------------------------

/-
  The two pattern tables.  Tables in read-only memory ignore
  writes.
-/
structure PatternMemory where
  cells : Vector UInt8 Hardware.patternMemorySize
  writable : Bool
deriving DecidableEq

namespace PatternMemory

/- The cell of an address, of which 13 bits are decoded. -/
def cellOf
    (address : UInt16) : Fin Hardware.patternMemorySize :=
  ⟨address.toNat % Hardware.patternMemorySize,
    Nat.mod_lt _ (by decide)⟩

/- The byte at an address. -/
def read
    (patterns : PatternMemory)
    (address : UInt16) : UInt8 :=
  patterns.cells[cellOf address]

/- Store a byte at an address. -/
def write
    (patterns : PatternMemory)
    (address : UInt16)
    (value : UInt8) : PatternMemory :=
  if patterns.writable then
    { patterns with
      cells := patterns.cells.set (cellOf address) value }
  else
    patterns

end PatternMemory

end Famicom
