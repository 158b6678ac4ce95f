import Famicom.Hardware

/-
  The palette memory.

  There are 32 entries of six bits.  The first entry of every
  sprite palette is shared with the matching background
  palette.

  Key definitions include:
    * `Palette`
    * `Palette.entryOf`
    * `Palette.read`
    * `Palette.write`
-/

namespace Famicom

------------------------------------------------------------
-- Palette
------------------------------------------------------------

/- Eight palettes of four entries. -/
structure Palette where
  cells : Vector UInt8 32
deriving DecidableEq

namespace Palette

/- A palette of zeros. -/
def blank : Palette where
  cells := Vector.replicate 32 0

/-
  The entry behind an address.  Addresses repeat every 32
  entries, and the first entry of a sprite palette is the
  one sixteen below it.
-/
def entryOf (address : UInt16) : Fin 32 :=
  let place := address.toNat % 32
  if place % 4 = 0 then
    ⟨place % 16, by omega⟩
  else
    ⟨place, by omega⟩

/- The six bits of the entry at an address. -/
def read
    (palette : Palette)
    (address : UInt16) : UInt8 :=
  palette.cells[entryOf address] &&& 0x3F

/- Store a byte in the entry at an address. -/
def write
    (palette : Palette)
    (address : UInt16)
    (value : UInt8) : Palette where
  cells := palette.cells.set (entryOf address) value

end Palette

end Famicom
