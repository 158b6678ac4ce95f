import Famicom.Bits
import Famicom.Hardware

/-
  The pixel pipeline of the picture unit.

  The background passes through sixteen-bit shift registers:
  their upper halves hold the tile being drawn and their
  lower halves the next one.  Sprites wait in at most eight
  units, of which the first opaque one is seen.

  Key definitions include:
    * `TileLatch`
    * `Shifters`
    * `SpriteUnit`
    * `Pipeline`
    * `Pipeline.load`
    * `Pipeline.shift`
    * `Pipeline.backgroundPixel`
    * `Pipeline.spritePixel`
-/

namespace Famicom

------------------------------------------------------------
-- Background
------------------------------------------------------------

/-
  What has been fetched of the next tile: its number, its
  two-bit palette and the two planes of its row.
-/
structure TileLatch where
  tile : UInt8 := 0
  palette : UInt8 := 0
  low : UInt8 := 0
  high : UInt8 := 0
deriving DecidableEq

/- The shift registers of the patterns and the palettes. -/
structure Shifters where
  patternLow : UInt16 := 0
  patternHigh : UInt16 := 0
  paletteLow : UInt16 := 0
  paletteHigh : UInt16 := 0
deriving DecidableEq

namespace Shifters

/- A register with its lower half replaced. -/
def reload
    (register : UInt16)
    (value : UInt8) : UInt16 :=
  (register &&& 0xFF00) ||| value.toUInt16

/- Eight copies of one bit of a byte. -/
def spread
    (value : UInt8)
    (n : UInt8) : UInt8 :=
  if Bits.isSet value n then 0xFF else 0

/- Put the next tile into the lower halves. -/
def load
    (shifters : Shifters)
    (next : TileLatch) : Shifters where
  patternLow := reload shifters.patternLow next.low
  patternHigh := reload shifters.patternHigh next.high
  paletteLow :=
    reload shifters.paletteLow (spread next.palette 0)
  paletteHigh :=
    reload shifters.paletteHigh (spread next.palette 1)

/- Move every register on by one pixel. -/
def shift (shifters : Shifters) : Shifters where
  patternLow := shifters.patternLow <<< 1
  patternHigh := shifters.patternHigh <<< 1
  paletteLow := shifters.paletteLow <<< 1
  paletteHigh := shifters.paletteHigh <<< 1

/- The bit of a register that a column of pixels selects. -/
def tap
    (register : UInt16)
    (fineX : UInt8) : UInt8 :=
  ((register >>> (15 - fineX.toUInt16)) &&& 1).toUInt8

/-
  The palette entry under the current dot.  Transparent
  pixels show entry 0, whatever their palette.
-/
def pixel
    (shifters : Shifters)
    (fineX : UInt8) : UInt8 :=
  let color :=
    (tap shifters.patternHigh fineX <<< 1) |||
      tap shifters.patternLow fineX
  if color == 0 then
    0
  else
    let palette :=
      (tap shifters.paletteHigh fineX <<< 1) |||
        tap shifters.paletteLow fineX
    (palette <<< 2) ||| color

end Shifters

------------------------------------------------------------
-- Sprites
------------------------------------------------------------

/-
  One sprite ready to be drawn on a line.  Its leftmost pixel
  is bit 7 of both planes.
-/
structure SpriteUnit where
  x : UInt8 := 0
  low : UInt8 := 0
  high : UInt8 := 0
  palette : UInt8 := 0
  isBehind : Bool := false
  isZero : Bool := false
deriving DecidableEq

/- One opaque pixel of a sprite. -/
structure SpritePixel where
  paletteEntry : UInt8
  isBehind : Bool
  isZero : Bool
deriving DecidableEq

namespace SpriteUnit

/- The two-bit color of a column of the sprite. -/
def color
    (unit : SpriteUnit)
    (column : Nat) : UInt8 :=
  let bit := 7 - column.toUInt8
  (Bits.bit unit.high bit <<< 1) ||| Bits.bit unit.low bit

/- The sprite's opaque pixel at a column of the screen. -/
def pixelAt
    (unit : SpriteUnit)
    (x : Nat) : Option SpritePixel :=
  let first := unit.x.toNat
  if first ≤ x ∧ x < first + 8 then
    let color := unit.color (x - first)
    if color == 0 then
      none
    else
      some ⟨unit.palette ||| color, unit.isBehind,
        unit.isZero⟩
  else
    none

end SpriteUnit

------------------------------------------------------------
-- Pipeline
------------------------------------------------------------

/- The latch, the registers and the loaded sprite units. -/
structure Pipeline where
  next : TileLatch := {}
  shifters : Shifters := {}
  sprites : List SpriteUnit := []
deriving DecidableEq

namespace Pipeline

/- Put the latched tile into the shift registers. -/
def load (pipeline : Pipeline) : Pipeline :=
  { pipeline with
    shifters := pipeline.shifters.load pipeline.next }

/- Move the shift registers on by one pixel. -/
def shift (pipeline : Pipeline) : Pipeline :=
  { pipeline with shifters := pipeline.shifters.shift }

/- The background's palette entry under the current dot. -/
def backgroundPixel
    (pipeline : Pipeline)
    (fineX : UInt8) : UInt8 :=
  pipeline.shifters.pixel fineX

/- Replace the sprites of the line, of which eight fit. -/
def loadSprites
    (pipeline : Pipeline)
    (units : List SpriteUnit) : Pipeline :=
  { pipeline with
    sprites := units.take Hardware.spritesPerLine }

/- Remove all sprites from the line. -/
def clearSprites (pipeline : Pipeline) : Pipeline :=
  { pipeline with sprites := [] }

/- The first opaque sprite pixel at a column of the screen. -/
def spritePixel
    (pipeline : Pipeline)
    (x : Nat) : Option SpritePixel :=
  pipeline.sprites.findSome? (·.pixelAt x)

end Pipeline

end Famicom
