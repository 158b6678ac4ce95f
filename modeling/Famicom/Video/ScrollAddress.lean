import Famicom.Bits.Field
import Famicom.Hex
import Famicom.Hardware

/-
  The address register of the picture unit.

  Fifteen bits say which row of which tile is being drawn.
  From the lowest bit up they are a number in mixed radix:
  the tile's column (32), its row (32), the nametable's
  column and row (2 each) and the row of pixels (8).

  Key definitions include:
    * `ScrollAddress`
    * `ScrollAddress.coarseX`
    * `ScrollAddress.coarseY`
    * `ScrollAddress.fineY`
    * `ScrollAddress.incrementX`
    * `ScrollAddress.incrementY`
    * `ScrollAddress.tileAddress`
    * `ScrollAddress.attributeAddress`
-/

namespace Famicom

------------------------------------------------------------
-- Address
------------------------------------------------------------

/- The bits of the register. -/
structure ScrollAddress where
  bits : UInt16
deriving DecidableEq

namespace ScrollAddress

/- The masks of the register's groups. -/
def fineYMask : UInt16 := 0x7000
def nametableMask : UInt16 := 0x0C00
def nametableYMask : UInt16 := 0x0800
def nametableXMask : UInt16 := 0x0400
def coarseYMask : UInt16 := 0x03E0
def coarseXMask : UInt16 := 0x001F

/- The register with the low fifteen bits of a word. -/
def ofWord (value : UInt16) : ScrollAddress where
  bits := value &&& 0x7FFF

/- The register in listings. -/
def render (address : ScrollAddress) : String :=
  "$" ++ Hex.word address.bits

------------------------------------------------------------
-- Groups by Mask
------------------------------------------------------------

/- The value of the group that a mask selects. -/
def field
    (address : ScrollAddress)
    (mask : UInt16) : UInt16 :=
  .ofBitVec
    (Bits.Field.get ⟨mask.toBitVec⟩ address.bits.toBitVec)

/- The register with the group of a mask replaced. -/
def setField
    (address : ScrollAddress)
    (mask value : UInt16) : ScrollAddress where
  bits := .ofBitVec
    (Bits.Field.set ⟨mask.toBitVec⟩ value.toBitVec
      address.bits.toBitVec)

------------------------------------------------------------
-- Groups by Name
------------------------------------------------------------

/- The digit of a given weight and radix. -/
@[inline] def digit
    (address : ScrollAddress)
    (weight radix : UInt16) : UInt16 :=
  address.bits / weight % radix

/- The register with one digit replaced. -/
@[inline] def setDigit
    (address : ScrollAddress)
    (weight radix value : UInt16) : ScrollAddress where
  bits :=
    address.bits - address.digit weight radix * weight +
      value % radix * weight

/- The column of the tile. -/
def coarseX (address : ScrollAddress) : UInt16 :=
  address.digit 1 32

/- The row of the tile. -/
def coarseY (address : ScrollAddress) : UInt16 :=
  address.digit 32 32

/- The column of the nametable. -/
def nametableX (address : ScrollAddress) : UInt16 :=
  address.digit 1024 2

/- The row of the nametable. -/
def nametableY (address : ScrollAddress) : UInt16 :=
  address.digit 2048 2

/- The number of the nametable. -/
def nametable (address : ScrollAddress) : UInt16 :=
  address.digit 1024 4

/- The row of pixels in the tile. -/
def fineY (address : ScrollAddress) : UInt16 :=
  address.digit 4096 8

/- Replace the column of the tile. -/
def withCoarseX
    (address : ScrollAddress)
    (value : UInt16) : ScrollAddress :=
  address.setDigit 1 32 value

/- Replace the row of the tile. -/
def withCoarseY
    (address : ScrollAddress)
    (value : UInt16) : ScrollAddress :=
  address.setDigit 32 32 value

/- Replace the column of the nametable. -/
def withNametableX
    (address : ScrollAddress)
    (value : UInt16) : ScrollAddress :=
  address.setDigit 1024 2 value

/- Replace the row of the nametable. -/
def withNametableY
    (address : ScrollAddress)
    (value : UInt16) : ScrollAddress :=
  address.setDigit 2048 2 value

/- Replace the number of the nametable. -/
def withNametable
    (address : ScrollAddress)
    (value : UInt16) : ScrollAddress :=
  address.setDigit 1024 4 value

/- Replace the row of pixels. -/
def withFineY
    (address : ScrollAddress)
    (value : UInt16) : ScrollAddress :=
  address.setDigit 4096 8 value

------------------------------------------------------------
-- Increments
------------------------------------------------------------

/- Add an amount, keeping fifteen bits. -/
def increment
    (address : ScrollAddress)
    (amount : UInt16) : ScrollAddress :=
  ofWord (address.bits + amount)

/-
  Go on to the next tile of the row.  Behind the last tile is
  the first one of the neighbouring nametable.
-/
def incrementX (address : ScrollAddress) : ScrollAddress :=
  if address.coarseX == 31 then
    (address.withCoarseX 0).withNametableX
      (address.nametableX + 1)
  else
    address.withCoarseX (address.coarseX + 1)

/-
  Go on to the next row of tiles.  Below row 29 is row 0 of
  the other nametable.  Rows 30 and 31 hold no tiles, and
  behind them is row 0 of the same nametable.
-/
def incrementCoarseY
    (address : ScrollAddress) : ScrollAddress :=
  if address.coarseY == 29 then
    (address.withCoarseY 0).withNametableY
      (address.nametableY + 1)
  else if address.coarseY == 31 then
    address.withCoarseY 0
  else
    address.withCoarseY (address.coarseY + 1)

/-
  Go on to the next row of pixels, which is in the next row
  of tiles when the tile has no more.
-/
def incrementY (address : ScrollAddress) : ScrollAddress :=
  if address.fineY == 7 then
    (address.withFineY 0).incrementCoarseY
  else
    address.withFineY (address.fineY + 1)

/- Take over the horizontal position of another address. -/
def copyHorizontal
    (address source : ScrollAddress) : ScrollAddress :=
  (address.withCoarseX source.coarseX).withNametableX
    source.nametableX

/- Take over the vertical position of another address. -/
def copyVertical
    (address source : ScrollAddress) : ScrollAddress :=
  ((address.withCoarseY source.coarseY).withNametableY
    source.nametableY).withFineY source.fineY

------------------------------------------------------------
-- Fetch Addresses
------------------------------------------------------------

/- The address of the tile's number. -/
def tileAddress (address : ScrollAddress) : UInt16 :=
  Hardware.nametablesStart + address.bits % 0x1000

/-
  The address of the attributes of the square of four by four
  tiles that the tile lies in.
-/
def attributeAddress (address : ScrollAddress) : UInt16 :=
  Hardware.nametablesStart + Hardware.attributeTableOffset +
    address.nametable * Hardware.nametableSize +
    address.coarseY / 4 * 8 + address.coarseX / 4

/-
  The place of the tile's palette in the attributes, which
  have two bits for each square of two by two tiles.
-/
def attributeShift (address : ScrollAddress) : UInt8 :=
  (address.coarseY / 2 % 2 * 4 +
    address.coarseX / 2 % 2 * 2).toUInt8

end ScrollAddress

end Famicom
