import Famicom.Hardware

/-
  Addresses of rows of tiles.

  A tile has eight rows of eight pixels of two bits.  The low
  bits of a row's pixels are one byte and the high bits are
  another, eight places later.

  Key definitions include:
    * `PatternRow`
    * `PatternRow.ofTile`
    * `PatternRow.ofTallSprite`
    * `PatternRow.lowPlane`
    * `PatternRow.highPlane`
-/

namespace Famicom

------------------------------------------------------------
-- Pattern Rows
------------------------------------------------------------

/- The address of the low bits of a row of a tile. -/
structure PatternRow where
  lowPlane : UInt16
deriving DecidableEq

namespace PatternRow

/- The bits of an address that select the table. -/
def tableMask : UInt16 := 0x1000

/- The bits of an address that select the tile. -/
def tileMask : UInt16 := 0x0FF0

/- The bit of an address that selects the plane. -/
def planeMask : UInt16 := 0x0008

/- The bits of an address that select the row. -/
def rowMask : UInt16 := 0x0007

/-
  A row of a tile in the table at `table`, which is one of
  $0000 and $1000.
-/
def ofTile
    (table : UInt16)
    (tile : UInt8)
    (row : UInt16) : PatternRow where
  lowPlane :=
    (table &&& tableMask) ||| (tile.toUInt16 <<< 4) |||
      (row &&& rowMask)

/-
  A row of a sprite that is two tiles tall.  The tile's
  lowest bit selects the table, and the lower half comes
  from the tile after the even one.
-/
def ofTallSprite
    (tile : UInt8)
    (row : UInt16) : PatternRow :=
  let table := if tile &&& 1 == 1 then tableMask else 0
  let half := (tile &&& 0xFE) + if 8 ≤ row then 1 else 0
  ofTile table half (row &&& rowMask)

/- The address of the high bits of the row. -/
def highPlane (row : PatternRow) : UInt16 :=
  row.lowPlane ||| planeMask

end PatternRow

end Famicom
