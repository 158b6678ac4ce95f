import Famicom.Video.Pixel
import Famicom.Video.Ppu

/-
  The picture unit dot by dot.

  On each dot the unit may fetch a byte, update its scroll
  address, output a pixel, shift its registers and raise or
  clear its flags, in this order.  Then it moves on.

  Key definitions include:
    * `Ppu.fetchBackground`
    * `Ppu.updateScroll`
    * `Ppu.evaluateSprites`
    * `Ppu.layersAt`
    * `Ppu.outputPixel`
    * `Ppu.updateFlags`
    * `Ppu.tick`
-/

namespace Famicom

namespace Ppu

------------------------------------------------------------
-- Background Fetches
------------------------------------------------------------

/-
  Whether a dot belongs to the fetch of a tile: the tiles of
  this line, or the first two of the next one.
-/
def isFetchDot (dot : Nat) : Bool :=
  (1 ≤ dot && dot ≤ 256) || (321 ≤ dot && dot ≤ 336)

/- Change the latch of the next tile. -/
@[inline] def latchTile
    (ppu : Ppu)
    (change : TileLatch → TileLatch) : Ppu :=
  { ppu with
    pipeline :=
      { ppu.pipeline with
        next := change ppu.pipeline.next } }

/- Fetch the number of the next tile. -/
def fetchNametable (ppu : Ppu) : Ppu :=
  let tile :=
    ppu.memory.read ppu.scroll.current.tileAddress
  ppu.latchTile ({ · with tile := tile })

/- Fetch the palette of the next tile. -/
def fetchAttribute (ppu : Ppu) : Ppu :=
  let current := ppu.scroll.current
  let attributes := ppu.memory.read current.attributeAddress
  let palette :=
    (attributes >>> current.attributeShift) &&& 0b11
  ppu.latchTile ({ · with palette := palette })

/- The row of the next tile to fetch. -/
def backgroundRow (ppu : Ppu) : PatternRow :=
  .ofTile ppu.registers.control.backgroundTable
    ppu.pipeline.next.tile ppu.scroll.current.fineY

/- Fetch the low plane of the next tile. -/
def fetchLowPlane (ppu : Ppu) : Ppu :=
  let low := ppu.memory.read ppu.backgroundRow.lowPlane
  ppu.latchTile ({ · with low := low })

/- Fetch the high plane of the next tile. -/
def fetchHighPlane (ppu : Ppu) : Ppu :=
  let high := ppu.memory.read ppu.backgroundRow.highPlane
  ppu.latchTile ({ · with high := high })

/- Load the shift registers from the latch. -/
def loadShifters (ppu : Ppu) : Ppu :=
  { ppu with pipeline := ppu.pipeline.load }

/- Change the current scroll address. -/
@[inline] def changeAddress
    (ppu : Ppu)
    (change : ScrollAddress → ScrollAddress) : Ppu :=
  { ppu with
    scroll :=
      { ppu.scroll with
        current := change ppu.scroll.current } }

/-
  The step of a tile's fetch, which takes eight dots.  On its
  first dot the tile fetched before enters the registers.
-/
def fetchBackground (ppu : Ppu) : Ppu :=
  match ppu.raster.dot % 8 with
  | 1 => ppu.loadShifters.fetchNametable
  | 3 => ppu.fetchAttribute
  | 5 => ppu.fetchLowPlane
  | 7 => ppu.fetchHighPlane
  | 0 => ppu.changeAddress .incrementX
  | _ => ppu

------------------------------------------------------------
-- Sprite Evaluation
------------------------------------------------------------

/- The row of a sprite's pattern, flipped if asked for. -/
def spriteRow
    (control : PpuControl)
    (found : SpriteMemory.OnLine) : PatternRow :=
  let height := control.spriteHeight
  let row :=
    if found.sprite.flipsRows then
      height - 1 - found.row
    else
      found.row
  if height == Hardware.tallSpriteHeight then
    .ofTallSprite found.sprite.tile row
  else
    .ofTile control.spriteTable found.sprite.tile row

/- Load a sprite that has a row on a line into a unit. -/
def spriteUnit
    (memory : VideoMemory)
    (control : PpuControl)
    (found : SpriteMemory.OnLine) : SpriteUnit :=
  let row := spriteRow control found
  let orient (plane : UInt8) : UInt8 :=
    if found.sprite.flipsColumns then
      Bits.reverse plane
    else
      plane
  { x := found.sprite.x
    low := orient (memory.read row.lowPlane)
    high := orient (memory.read row.highPlane)
    palette := found.sprite.paletteBase
    isBehind := found.sprite.isBehind
    isZero := found.index == 0 }

/- The sprites that have a row on the next line, in order. -/
def spritesFound (ppu : Ppu) : List SpriteMemory.OnLine :=
  ppu.oam.onLine ppu.raster.scanline.toUInt16
    ppu.registers.control.spriteHeight

/-
  Choose the sprites of the next line.  The pre-render line
  chooses none, so that line 0 shows no sprites.  A ninth
  sprite is not drawn but noted in the status.
-/
def evaluateSprites (ppu : Ppu) : Ppu :=
  if ppu.isPrerenderLine then
    { ppu with pipeline := ppu.pipeline.clearSprites }
  else
    let found := ppu.spritesFound
    let units :=
      (found.take Hardware.spritesPerLine).map
        (spriteUnit ppu.memory ppu.registers.control)
    { ppu with
      pipeline := ppu.pipeline.loadSprites units
      registers :=
        if Hardware.spritesPerLine < found.length then
          ppu.registers.setSpriteOverflow
        else
          ppu.registers }

------------------------------------------------------------
-- Scroll Updates
------------------------------------------------------------

/-
  The end of a line: go down by one row of pixels, return to
  the left, restore the vertical position on the pre-render
  line, and two fetches that nothing uses.
-/
def updateScroll (ppu : Ppu) : Ppu :=
  let dot := ppu.raster.dot
  if dot < 256 then
    ppu
  else if dot = 256 then
    ppu.changeAddress .incrementY
  else if dot = 257 then
    let source := ppu.scroll.temporary
    (ppu.changeAddress (·.copyHorizontal source)
      ).evaluateSprites
  else if
      280 ≤ dot ∧ dot ≤ 304 ∧ ppu.isPrerenderLine then
    let source := ppu.scroll.temporary
    ppu.changeAddress (·.copyVertical source)
  else if dot = 337 ∨ dot = 339 then
    ppu.fetchNametable
  else
    ppu

/- All fetches and address updates of a rendering dot. -/
def fetch (ppu : Ppu) : Ppu :=
  let fetched :=
    if isFetchDot ppu.raster.dot then
      ppu.fetchBackground
    else
      ppu
  fetched.updateScroll

------------------------------------------------------------
-- Pixel Output
------------------------------------------------------------

/- What competes for a pixel. -/
structure Layers where
  background : UInt8
  sprite : Option SpritePixel
deriving DecidableEq

namespace Layers

/-
  The palette entry that is seen.  A sprite pixel wins unless
  it is behind an opaque background.
-/
def paletteEntry (layers : Layers) : UInt8 :=
  match layers.sprite with
  | none => layers.background
  | some sprite =>
      if sprite.isBehind && layers.background != 0 then
        layers.background
      else
        sprite.paletteEntry

/- Whether sprite 0 meets the background at a column. -/
def hitsAt
    (layers : Layers)
    (x : Nat) : Bool :=
  match layers.sprite with
  | none => false
  | some sprite =>
      sprite.isZero && layers.background != 0 && x != 255

end Layers

/- The layers that are shown at a column. -/
def layersAt
    (ppu : Ppu)
    (x : Nat) : Layers where
  background :=
    if ppu.registers.mask.backgroundAt x then
      ppu.pipeline.backgroundPixel ppu.scroll.fineX
    else
      0
  sprite :=
    if ppu.registers.mask.spritesAt x then
      ppu.pipeline.spritePixel x
    else
      none

/-
  The palette entry shown while nothing is rendered: the
  backdrop, or the entry that the address points to.
-/
def backdrop (ppu : Ppu) : UInt8 :=
  let address :=
    ppu.scroll.current.bits &&& Hardware.pictureAddressMask
  if Hardware.paletteStart ≤ address then
    (address &&& 0x1F).toUInt8
  else
    0

/- The color of a palette entry under the mask in force. -/
def colorOf
    (ppu : Ppu)
    (entry : UInt8) : UInt8 :=
  let color :=
    ppu.memory.read (Hardware.paletteStart + entry.toUInt16)
  if ppu.registers.mask.grayscale then
    color &&& 0x30
  else
    color

/- The pixel of the current dot, showing a palette entry. -/
def pixelOf
    (ppu : Ppu)
    (entry : UInt8) : Pixel where
  x := (ppu.raster.dot - 1).toUInt8
  y := ppu.raster.scanline.toUInt8
  color := ppu.colorOf entry
  emphasis := ppu.registers.mask.emphasis

/- Output the pixel of the current dot. -/
def outputPixel (ppu : Ppu) : Pixel × Ppu :=
  if ppu.registers.mask.rendering then
    let x := ppu.raster.dot - 1
    let layers := ppu.layersAt x
    let pixel := ppu.pixelOf layers.paletteEntry
    if layers.hitsAt x then
      (pixel,
        { ppu with
          registers := ppu.registers.setSpriteZeroHit })
    else
      (pixel, ppu)
  else
    (ppu.pixelOf ppu.backdrop, ppu)

/- Whether the current dot outputs a pixel. -/
def isPixelDot (ppu : Ppu) : Bool :=
  ppu.isVisibleLine &&
    (1 ≤ ppu.raster.dot && ppu.raster.dot ≤ 256)

/- Output a pixel if the current dot has one. -/
def output (ppu : Ppu) : Option Pixel × Ppu :=
  if ppu.isPixelDot then
    let (pixel, ppu') := ppu.outputPixel
    (some pixel, ppu')
  else
    (none, ppu)

------------------------------------------------------------
-- Flags and Position
------------------------------------------------------------

/- Vertical blank starts: a frame is complete. -/
def enterVerticalBlank (ppu : Ppu) : Ppu :=
  { ppu with
    registers := ppu.registers.setVerticalBlank true
    frameReady := true
    nmiRequested :=
      ppu.nmiRequested || ppu.registers.control.nmiEnabled }

/- All status flags end. -/
def clearStatus (ppu : Ppu) : Ppu :=
  { ppu with registers := { ppu.registers with status := {} } }

/- The changes of flags on the second dot of a line. -/
def updateFlags (ppu : Ppu) : Ppu :=
  if ppu.raster.dot = 1 then
    if ppu.raster.scanline = ppu.timing.vblankScanline then
      ppu.enterVerticalBlank
    else if ppu.isPrerenderLine then
      ppu.clearStatus
    else
      ppu
  else
    ppu

/- Whether the frame is one dot shorter as things stand. -/
def isShortFrame (ppu : Ppu) : Bool :=
  ppu.timing.oddFrameSkip && ppu.raster.isOddFrame &&
    ppu.registers.mask.rendering

/- Move on to the next dot. -/
def advance (ppu : Ppu) : Ppu :=
  { ppu with
    raster := ppu.raster.advance ppu.timing ppu.isShortFrame }

/- Shift the registers on the dots of a fetch. -/
def shift (ppu : Ppu) : Ppu :=
  if isFetchDot ppu.raster.dot then
    { ppu with pipeline := ppu.pipeline.shift }
  else
    ppu

------------------------------------------------------------
-- Ticks
------------------------------------------------------------

/- One dot, with the pixel that it outputs. -/
def tick (ppu : Ppu) : Option Pixel × Ppu :=
  let rendering := ppu.isRendering
  let fetched := if rendering then ppu.fetch else ppu
  let (pixel, shown) := fetched.output
  let shifted := if rendering then shown.shift else shown
  (pixel, shifted.updateFlags.advance)

end Ppu

end Famicom
