import Famicom.Proofs.Video.PatternRows
import Famicom.Proofs.Video.ScrollCounters
import Famicom.Video.Tick

/-
  The background as a plane.

  The four nametables make up a plane of 512 by 480 pixels.
  This file says which color every pixel of the plane has,
  and that the fetches of the picture unit look it up.

  Key definitions include:
    * `ScrollPlane.tileAt`
    * `ScrollPlane.latchAt`
    * `ScrollPlane.paletteAt`
    * `ScrollPlane.colorAt`
    * `ScrollPlane.pixelAt`

  Main declarations:
    * `ScrollPlane.fetchedTile_eq`
    * `ScrollPlane.fetchedPalette_eq`
    * `ScrollPlane.fetchedLow_eq`
    * `ScrollPlane.fetchedHigh_eq`
    * `ScrollPlane.pixelAt_eq_entryOf`
-/

namespace Famicom

namespace ScrollPlane

------------------------------------------------------------
-- The Plane
------------------------------------------------------------

/- The number of the nametable around a pixel. -/
def tableAt (x y : Nat) : Nat :=
  2 * (y / 240) + x / 256

/- The address of the number of the tile around a pixel. -/
def tilePlace (x y : Nat) : Nat :=
  0x2000 + 0x400 * tableAt x y + 32 * (y % 240 / 8) +
    x % 256 / 8

/- The address of the attributes around a pixel. -/
def attributePlace (x y : Nat) : Nat :=
  0x23C0 + 0x400 * tableAt x y + 8 * (y % 240 / 32) +
    x % 256 / 32

/- The number of the tile around a pixel. -/
def tileAt
    (memory : VideoMemory)
    (x y : Nat) : UInt8 :=
  memory.read (.ofNat (tilePlace x y))

/-
  The palette of a pixel.  A byte of attributes has two bits
  for each of four squares of 16 by 16 pixels.
-/
def paletteAt
    (memory : VideoMemory)
    (x y : Nat) : Nat :=
  let attributes :=
    memory.read (.ofNat (attributePlace x y))
  let place :=
    4 * (y % 240 / 16 % 2) + 2 * (x % 256 / 16 % 2)
  attributes.toNat / 2 ^ place % 4

/- The address of the low plane of the row of a pixel. -/
def rowPlace
    (memory : VideoMemory)
    (table x y : Nat) : Nat :=
  table + 16 * (tileAt memory x y).toNat + y % 8

/- The color of a pixel within its palette. -/
def colorAt
    (memory : VideoMemory)
    (table x y : Nat) : Nat :=
  let place := rowPlace memory table x y
  let low := memory.read (.ofNat place)
  let high := memory.read (.ofNat (place + 8))
  2 * bitAt high.toNat (7 - x % 8) +
    bitAt low.toNat (7 - x % 8)

/-
  The palette entry of a pixel.  Color 0 of every palette is
  transparent and shows entry 0.
-/
def pixelAt
    (memory : VideoMemory)
    (table x y : Nat) : Nat :=
  if colorAt memory table x y = 0 then
    0
  else
    4 * paletteAt memory x y + colorAt memory table x y

------------------------------------------------------------
-- Places of Addresses
------------------------------------------------------------

section Places

variable (address : ScrollAddress)
variable (hPlane : address.OnPlane)

include hPlane in
/- The nametable around the place of an address. -/
theorem tableAt_address :
    tableAt (8 * address.planeColumn) address.planeRow =
      2 * address.digits.nametableY +
        address.digits.nametableX := by
  have hBounds := address.digits_lt
  unfold ScrollAddress.OnPlane at hPlane
  unfold tableAt ScrollAddress.planeColumn
    ScrollAddress.planeRow
  omega

/- The column of a place of an address within its table. -/
theorem column_address :
    8 * address.planeColumn % 256 =
      8 * address.digits.coarseX := by
  have hBounds := address.digits_lt
  unfold ScrollAddress.planeColumn
  omega

include hPlane in
/- The row of a place of an address within its table. -/
theorem row_address :
    address.planeRow % 240 =
      8 * address.digits.coarseY + address.digits.fineY := by
  have hBounds := address.digits_lt
  unfold ScrollAddress.OnPlane at hPlane
  unfold ScrollAddress.planeRow
  omega

/- The low twelve bits are the nametable and the tile. -/
theorem toNat_tileBits :
    address.bits.toNat % 4096 =
      1024 * (2 * address.digits.nametableY +
          address.digits.nametableX) +
        32 * address.digits.coarseY +
        address.digits.coarseX := by
  simp only [ScrollAddress.digits, ScrollAddress.coarseX,
    ScrollAddress.coarseY, ScrollAddress.nametableX,
    ScrollAddress.nametableY, ScrollAddress.toNat_digit,
    UInt16.reduceToNat]
  omega

/- The number of the nametable is its row and its column. -/
theorem toNat_nametable :
    address.nametable.toNat =
      2 * address.digits.nametableY +
        address.digits.nametableX := by
  simp only [ScrollAddress.digits, ScrollAddress.nametable,
    ScrollAddress.nametableX, ScrollAddress.nametableY,
    ScrollAddress.toNat_digit, UInt16.reduceToNat]
  omega

------------------------------------------------------------
-- Fetches
------------------------------------------------------------

include hPlane in
/- The nametable fetch goes to the tile of the place. -/
theorem tileAddress_eq :
    address.tileAddress =
      .ofNat (tilePlace (8 * address.planeColumn)
        address.planeRow) := by
  have hBounds := address.digits_lt
  have hBits := toNat_tileBits address
  have hStart : Hardware.nametablesStart.toNat = 0x2000 := rfl
  apply UInt16.toNat_inj.mp
  unfold ScrollAddress.tileAddress tilePlace
  rw [tableAt_address address hPlane, column_address,
    row_address address hPlane, UInt16.toNat_add,
    UInt16.toNat_mod, UInt16.toNat_ofNat', hStart]
  simp only [UInt16.reduceToNat]
  omega

include hPlane in
/- The attribute fetch goes to the attributes of the place. -/
theorem attributeAddress_eq :
    address.attributeAddress =
      .ofNat (attributePlace (8 * address.planeColumn)
        address.planeRow) := by
  have hBounds := address.digits_lt
  have hTable := toNat_nametable address
  have hStart : Hardware.nametablesStart.toNat = 0x2000 := rfl
  have hOffset :
      Hardware.attributeTableOffset.toNat = 0x3C0 := rfl
  have hSize : Hardware.nametableSize.toNat = 0x400 := rfl
  have hX :
      address.coarseX.toNat = address.digits.coarseX := rfl
  have hY :
      address.coarseY.toNat = address.digits.coarseY := rfl
  apply UInt16.toNat_inj.mp
  unfold ScrollAddress.attributeAddress attributePlace
  rw [tableAt_address address hPlane, column_address,
    row_address address hPlane]
  simp only [UInt16.toNat_add, UInt16.toNat_mul,
    UInt16.toNat_div, UInt16.toNat_ofNat', hStart, hOffset,
    hSize, hTable, hX, hY, UInt16.reduceToNat]
  omega

/- The palette's place within the attributes. -/
theorem toNat_attributeShift :
    address.attributeShift.toNat =
      4 * (address.digits.coarseY / 2 % 2) +
        2 * (address.digits.coarseX / 2 % 2) := by
  have hX :
      address.coarseX.toNat = address.digits.coarseX := rfl
  have hY :
      address.coarseY.toNat = address.digits.coarseY := rfl
  unfold ScrollAddress.attributeShift
  simp only [UInt16.toNat_toUInt8, UInt16.toNat_add,
    UInt16.toNat_mul, UInt16.toNat_mod, UInt16.toNat_div, hX,
    hY, UInt16.reduceToNat]
  omega

end Places

------------------------------------------------------------
-- Tiles of the Plane
------------------------------------------------------------

/-
  What the four fetches latch of the tile in a column of the
  plane, for one row of pixels.
-/
def latchAt
    (memory : VideoMemory)
    (table : UInt16)
    (column row : Nat) : TileLatch where
  tile := tileAt memory (8 * column) row
  palette :=
    .ofNat (paletteAt memory (8 * column) row)
  low := memory.read
    (.ofNat (rowPlace memory table.toNat (8 * column) row))
  high := memory.read
    (.ofNat
      (rowPlace memory table.toNat (8 * column) row + 8))

section Fetches

variable (memory : VideoMemory)
variable (address : ScrollAddress)
variable (hPlane : address.OnPlane)

include hPlane in
theorem fetchedTile_eq
    (table : UInt16) :
    memory.read address.tileAddress =
      (latchAt memory table address.planeColumn
        address.planeRow).tile := by
  rw [tileAddress_eq address hPlane]
  rfl

include hPlane in
theorem fetchedPalette_eq
    (table : UInt16) :
    (memory.read address.attributeAddress >>>
        address.attributeShift) &&& 0b11 =
      (latchAt memory table address.planeColumn
        address.planeRow).palette := by
  have hBounds := address.digits_lt
  have hShift := toNat_attributeShift address
  have hPlace :
      4 * (address.planeRow % 240 / 16 % 2) +
          2 * (8 * address.planeColumn % 256 / 16 % 2) =
        4 * (address.digits.coarseY / 2 % 2) +
          2 * (address.digits.coarseX / 2 % 2) := by
    rw [column_address, row_address address hPlane]
    omega
  have hMask (number : Nat) : number &&& 3 = number % 4 :=
    Nat.and_two_pow_sub_one_eq_mod number 2
  apply UInt8.toNat_inj.mp
  rw [attributeAddress_eq address hPlane]
  unfold latchAt paletteAt
  dsimp only
  rw [hPlace, UInt8.toNat_and, UInt8.toNat_shiftRight, hShift,
    Nat.shiftRight_eq_div_pow, UInt8.toNat_ofNat',
    Nat.mod_eq_of_lt (by omega :
      4 * (address.digits.coarseY / 2 % 2) +
        2 * (address.digits.coarseX / 2 % 2) < 8)]
  exact (hMask _).trans
    (Nat.mod_eq_of_lt (by omega : _ % 4 < 256)).symm

include hPlane in
/- The row of the tile is the row of the place. -/
theorem toNat_fetchedRow
    (table : UInt16) :
    let tile :=
      (latchAt memory table address.planeColumn
        address.planeRow).tile
    table.toNat + 16 * tile.toNat +
        address.fineY.toNat % 8 =
      rowPlace memory table.toNat (8 * address.planeColumn)
        address.planeRow := by
  have hFine :
      address.fineY.toNat = address.digits.fineY := rfl
  have hBounds := address.digits_lt
  have hRow := row_address address hPlane
  unfold rowPlace latchAt
  dsimp only
  omega

include hPlane in
theorem fetchedLow_eq
    (table : UInt16)
    (hTable : table = 0 ∨ table = PatternRow.tableMask) :
    memory.read
        (PatternRow.ofTile table
          (latchAt memory table address.planeColumn
            address.planeRow).tile
          address.fineY).lowPlane =
      (latchAt memory table address.planeColumn
        address.planeRow).low := by
  have hAddress := PatternRow.toNat_lowPlane_ofTile table
    address.fineY
    (latchAt memory table address.planeColumn
      address.planeRow).tile hTable
  rw [toNat_fetchedRow memory address hPlane table]
    at hAddress
  rw [← UInt16.ofNat_toNat
    (x := (PatternRow.ofTile _ _ _).lowPlane), hAddress]
  rfl

include hPlane in
theorem fetchedHigh_eq
    (table : UInt16)
    (hTable : table = 0 ∨ table = PatternRow.tableMask) :
    memory.read
        (PatternRow.ofTile table
          (latchAt memory table address.planeColumn
            address.planeRow).tile
          address.fineY).highPlane =
      (latchAt memory table address.planeColumn
        address.planeRow).high := by
  have hAddress := PatternRow.toNat_highPlane_ofTile table
    address.fineY
    (latchAt memory table address.planeColumn
      address.planeRow).tile hTable
  rw [toNat_fetchedRow memory address hPlane table]
    at hAddress
  rw [← UInt16.ofNat_toNat
    (x := (PatternRow.ofTile _ _ _).highPlane), hAddress]
  rfl

end Fetches

------------------------------------------------------------
-- Pixels of the Plane
------------------------------------------------------------

/-
  A pixel of the plane is a bit of each plane of the tile in
  its column, with that tile's palette.
-/
theorem pixelAt_eq_entryOf
    (memory : VideoMemory)
    (table : UInt16)
    (x y : Nat) :
    let tile := latchAt memory table (x / 8) y
    pixelAt memory table.toNat x y =
      Shifters.entryOf
        (2 * bitAt tile.high.toNat (7 - x % 8) +
          bitAt tile.low.toNat (7 - x % 8))
        tile.palette.toNat := by
  have hTable : tableAt (8 * (x / 8)) y = tableAt x y := by
    unfold tableAt
    omega
  have hTilePlace :
      tilePlace (8 * (x / 8)) y = tilePlace x y := by
    unfold tilePlace
    rw [hTable]
    omega
  have hTile :
      tileAt memory (8 * (x / 8)) y = tileAt memory x y := by
    unfold tileAt
    rw [hTilePlace]
  have hRow :
      rowPlace memory table.toNat (8 * (x / 8)) y =
        rowPlace memory table.toNat x y := by
    unfold rowPlace
    rw [hTile]
  have hPalette :
      paletteAt memory (8 * (x / 8)) y =
        paletteAt memory x y := by
    have hAttributes :
        attributePlace (8 * (x / 8)) y =
          attributePlace x y := by
      unfold attributePlace
      rw [hTable]
      omega
    have hSquare :
        8 * (x / 8) % 256 / 16 % 2 = x % 256 / 16 % 2 := by
      omega
    unfold paletteAt
    rw [hAttributes, hSquare]
  have hSmall : paletteAt memory x y < 4 :=
    Nat.mod_lt _ (by decide)
  intro tile
  have hLow :
      tile.low =
        memory.read
          (.ofNat (rowPlace memory table.toNat x y)) :=
    congrArg (fun place => memory.read (.ofNat place)) hRow
  have hHigh :
      tile.high =
        memory.read
          (.ofNat (rowPlace memory table.toNat x y + 8)) :=
    congrArg (fun place => memory.read (.ofNat (place + 8)))
      hRow
  have hTilePalette :
      tile.palette.toNat = paletteAt memory x y := by
    rw [← hPalette]
    apply UInt8.toNat_ofNat_of_lt'
    rw [hPalette]
    exact Nat.lt_trans hSmall (by decide)
  rw [hLow, hHigh, hTilePalette]
  rfl

end ScrollPlane

end Famicom
