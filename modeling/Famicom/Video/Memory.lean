import Famicom.Cartridge.Patterns
import Famicom.Video.Nametables
import Famicom.Video.Palette

/-
  The address space of the picture unit.

  Fourteen bits of an address are decoded.  The lower half
  reaches the cartridge's patterns, the last 256 addresses
  the palette, and the ones between the nametables.

  A board may change the arrangement of the nametables at any
  time, so it has to be taken from the cartridge before each
  access to them.  The one board that there is never changes
  it.  The nametables start with the arrangement of their
  cartridge and keep it, so that setting it again would leave
  them as they are, and reads and writes do without.

  Key definitions include:
    * `VideoMemory`
    * `VideoMemory.read`
    * `VideoMemory.write`
-/

namespace Famicom

------------------------------------------------------------
-- Video Memory
------------------------------------------------------------

/- Everything that the picture unit can address. -/
structure VideoMemory where
  patterns : PatternMemory
  nametables : Nametables
  palette : Palette
deriving DecidableEq

namespace VideoMemory

/- Zeroed memory around given patterns. -/
def ofPatterns
    (patterns : PatternMemory)
    (mirroring : Mirroring) : VideoMemory where
  patterns := patterns
  nametables := .blank mirroring
  palette := .blank

/- The bits of an address that are decoded. -/
def decoded (address : UInt16) : UInt16 :=
  address &&& Hardware.pictureAddressMask

/- The byte at an address. -/
def read
    (memory : VideoMemory)
    (address : UInt16) : UInt8 :=
  let address := decoded address
  if address ≤ Hardware.patternTablesEnd then
    memory.patterns.read address
  else if address ≤ Hardware.nametablesEnd then
    memory.nametables.read address
  else
    memory.palette.read address

/- Store a byte at an address. -/
def write
    (memory : VideoMemory)
    (address : UInt16)
    (value : UInt8) : VideoMemory :=
  let address := decoded address
  if address ≤ Hardware.patternTablesEnd then
    { memory with
      patterns := memory.patterns.write address value }
  else if address ≤ Hardware.nametablesEnd then
    { memory with
      nametables := memory.nametables.write address value }
  else
    { memory with
      palette := memory.palette.write address value }

end VideoMemory

end Famicom
