import Famicom.Bits
import Famicom.Hardware

/-
  The registers of the picture unit: what the processor has
  asked for, what it can ask about, and three small latches.

  Key definitions include:
    * `PpuControl`
    * `PpuMask`
    * `PpuStatus`
    * `PpuRegisters`
    * `PpuRegisters.statusByte`
-/

namespace Famicom

------------------------------------------------------------
-- Control
------------------------------------------------------------

/- The control register. -/
structure PpuControl where
  bits : UInt8 := 0
deriving DecidableEq

namespace PpuControl

def nmiEnableMask : UInt8 := 0x80
def masterSlaveMask : UInt8 := 0x40
def spriteSizeMask : UInt8 := 0x20
def backgroundTableMask : UInt8 := 0x10
def spriteTableMask : UInt8 := 0x08
def incrementMask : UInt8 := 0x04
def nametableMask : UInt8 := 0x03

/- Whether vertical blank interrupts the processor. -/
def nmiEnabled (control : PpuControl) : Bool :=
  Bits.meets control.bits nmiEnableMask

/- The height of all sprites. -/
def spriteHeight (control : PpuControl) : UInt16 :=
  if Bits.meets control.bits spriteSizeMask then
    Hardware.tallSpriteHeight
  else
    Hardware.spriteHeight

/- The pattern table of the background. -/
def backgroundTable (control : PpuControl) : UInt16 :=
  if Bits.meets control.bits backgroundTableMask then
    Hardware.patternTableSize
  else
    0

/- The pattern table of sprites of one tile. -/
def spriteTable (control : PpuControl) : UInt16 :=
  if Bits.meets control.bits spriteTableMask then
    Hardware.patternTableSize
  else
    0

/- The step of data accesses: across or down a table. -/
def addressIncrement (control : PpuControl) : UInt16 :=
  if Bits.meets control.bits incrementMask then 32 else 1

/- The number of the nametable to start from. -/
def nametable (control : PpuControl) : UInt8 :=
  control.bits &&& nametableMask

end PpuControl

------------------------------------------------------------
-- Mask
------------------------------------------------------------

/- The register that says what is shown and how. -/
structure PpuMask where
  bits : UInt8 := 0
deriving DecidableEq

namespace PpuMask

def grayscaleMask : UInt8 := 0x01
def leftBackgroundMask : UInt8 := 0x02
def leftSpritesMask : UInt8 := 0x04
def backgroundMask : UInt8 := 0x08
def spritesMask : UInt8 := 0x10
def redMask : UInt8 := 0x20
def greenMask : UInt8 := 0x40
def blueMask : UInt8 := 0x80
def emphasisMask : UInt8 := redMask ||| greenMask ||| blueMask

/- Whether the background is shown. -/
def background (mask : PpuMask) : Bool :=
  Bits.meets mask.bits backgroundMask

/- Whether sprites are shown. -/
def sprites (mask : PpuMask) : Bool :=
  Bits.meets mask.bits spritesMask

/- Whether anything is shown. -/
def rendering (mask : PpuMask) : Bool :=
  mask.background || mask.sprites

/- Whether the background is shown at a column. -/
def backgroundAt
    (mask : PpuMask)
    (x : Nat) : Bool :=
  mask.background &&
    (8 ≤ x || Bits.meets mask.bits leftBackgroundMask)

/- Whether sprites are shown at a column. -/
def spritesAt
    (mask : PpuMask)
    (x : Nat) : Bool :=
  mask.sprites &&
    (8 ≤ x || Bits.meets mask.bits leftSpritesMask)

/- Whether colors are reduced to grays. -/
def grayscale (mask : PpuMask) : Bool :=
  Bits.meets mask.bits grayscaleMask

/- The emphasis of red, green and blue as bits 0 to 2. -/
def emphasis (mask : PpuMask) : UInt8 :=
  (mask.bits &&& emphasisMask) >>> 5

end PpuMask

------------------------------------------------------------
-- Status
------------------------------------------------------------

/-
  The status flags.  Overflow means that more than eight
  sprites have a row on a line.
-/
structure PpuStatus where
  verticalBlank : Bool := false
  spriteZeroHit : Bool := false
  spriteOverflow : Bool := false
deriving DecidableEq

namespace PpuStatus

def verticalBlankMask : UInt8 := 0x80
def spriteZeroHitMask : UInt8 := 0x40
def spriteOverflowMask : UInt8 := 0x20

/- The flags as the top bits of a byte. -/
def toByte (status : PpuStatus) : UInt8 :=
  (if status.verticalBlank then verticalBlankMask else 0) |||
  (if status.spriteZeroHit then spriteZeroHitMask else 0) |||
  (if status.spriteOverflow then spriteOverflowMask else 0)

/- The flags that a byte stands for. -/
def ofByte (value : UInt8) : PpuStatus where
  verticalBlank := Bits.meets value verticalBlankMask
  spriteZeroHit := Bits.meets value spriteZeroHitMask
  spriteOverflow := Bits.meets value spriteOverflowMask

end PpuStatus

------------------------------------------------------------
-- Registers
------------------------------------------------------------

/-
  All registers.  The data buffer runs one read behind, and
  the open bus is the last byte written to any register.
-/
structure PpuRegisters where
  control : PpuControl := {}
  mask : PpuMask := {}
  status : PpuStatus := {}
  oamAddress : UInt8 := 0
  dataBuffer : UInt8 := 0
  openBus : UInt8 := 0
deriving DecidableEq

namespace PpuRegisters

/- Change the vertical blank flag. -/
def setVerticalBlank
    (registers : PpuRegisters)
    (value : Bool) : PpuRegisters :=
  { registers with
    status :=
      { registers.status with verticalBlank := value } }

/- Set the sprite 0 hit flag. -/
def setSpriteZeroHit
    (registers : PpuRegisters) : PpuRegisters :=
  { registers with
    status :=
      { registers.status with spriteZeroHit := true } }

/- Set the sprite overflow flag. -/
def setSpriteOverflow
    (registers : PpuRegisters) : PpuRegisters :=
  { registers with
    status :=
      { registers.status with spriteOverflow := true } }

/-
  The status as the processor reads it: the flags on top, and
  below them what the bus last held.
-/
def statusByte (registers : PpuRegisters) : UInt8 :=
  registers.status.toByte ||| (registers.openBus &&& 0x1F)

end PpuRegisters

end Famicom
