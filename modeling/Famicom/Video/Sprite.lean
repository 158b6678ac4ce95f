import Famicom.Bits

/-
  One sprite as the sprite memory describes it.

  Key definitions include:
    * `Sprite`
    * `Sprite.paletteBase`
    * `Sprite.rowOn`
    * `Sprite.render`
-/

namespace Famicom

------------------------------------------------------------
-- Sprites
------------------------------------------------------------

/- The four bytes of a sprite. -/
structure Sprite where
  y : UInt8
  tile : UInt8
  attributes : UInt8
  x : UInt8
deriving DecidableEq

namespace Sprite

/- The first entry of the sprite's palette. -/
def paletteBase (sprite : Sprite) : UInt8 :=
  (0x10 : UInt8) ||| ((sprite.attributes &&& 0b11) <<< 2)

/- Whether opaque background hides the sprite. -/
def isBehind (sprite : Sprite) : Bool :=
  Bits.isSet sprite.attributes 5

/- Whether the columns run from right to left. -/
def flipsColumns (sprite : Sprite) : Bool :=
  Bits.isSet sprite.attributes 6

/- Whether the rows run from bottom to top. -/
def flipsRows (sprite : Sprite) : Bool :=
  Bits.isSet sprite.attributes 7

/-
  The row of the sprite to draw on the line after a scanline.
  The distance wraps, so lines above the sprite give a large
  row, which no sprite has.
-/
def rowOn
    (sprite : Sprite)
    (scanline height : UInt16) : Option UInt16 :=
  let row := scanline - sprite.y.toUInt16
  if row < height then some row else none

/- The sprite in listings. -/
def render (sprite : Sprite) : String :=
  "OamSprite \x7b y: " ++ toString sprite.y.toNat ++
    ", tile: " ++ toString sprite.tile.toNat ++
    ", attributes: " ++ toString sprite.attributes.toNat ++
    ", x: " ++ toString sprite.x.toNat ++ " \x7d"

end Sprite

end Famicom
