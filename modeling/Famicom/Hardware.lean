/-
  The fixed numbers of the console: address windows, memory
  sizes, screen size and timing.

  Key definitions include:
    * the processor's address windows
    * the interrupt vectors
    * the picture unit's address windows
    * the shape of a frame
-/

namespace Famicom

namespace Hardware

------------------------------------------------------------
-- Processor Address Space
------------------------------------------------------------

abbrev ramStart : UInt16 := 0x0000
abbrev ramEnd : UInt16 := 0x1FFF
abbrev ramSize : UInt16 := 0x0800

abbrev ppuRegistersStart : UInt16 := 0x2000
abbrev ppuRegistersEnd : UInt16 := 0x3FFF
abbrev ppuRegistersSize : UInt16 := 8

abbrev ppuControl : UInt16 := 0x2000
abbrev ppuMask : UInt16 := 0x2001
abbrev ppuStatus : UInt16 := 0x2002
abbrev oamAddress : UInt16 := 0x2003
abbrev oamData : UInt16 := 0x2004
abbrev ppuScroll : UInt16 := 0x2005
abbrev ppuAddress : UInt16 := 0x2006
abbrev ppuData : UInt16 := 0x2007

abbrev apuRegistersStart : UInt16 := 0x4000
abbrev apuRegistersEnd : UInt16 := 0x4013
abbrev oamDma : UInt16 := 0x4014
abbrev apuStatus : UInt16 := 0x4015
abbrev controllerOne : UInt16 := 0x4016
abbrev controllerTwo : UInt16 := 0x4017
abbrev apuTestModeStart : UInt16 := 0x4018
abbrev apuTestModeEnd : UInt16 := 0x401F

abbrev cartridgeStart : UInt16 := 0x4020
abbrev cartridgeEnd : UInt16 := 0xFFFF
abbrev cartridgeExpansionStart : UInt16 := 0x4020
abbrev cartridgeExpansionEnd : UInt16 := 0x5FFF
abbrev cartridgeRamStart : UInt16 := 0x6000
abbrev cartridgeRamEnd : UInt16 := 0x7FFF
abbrev cartridgeRomStart : UInt16 := 0x8000
abbrev cartridgeRomEnd : UInt16 := 0xFFFF

abbrev nmiVector : UInt16 := 0xFFFA
abbrev resetVector : UInt16 := 0xFFFC
abbrev irqVector : UInt16 := 0xFFFE

/- The stack fills page one. -/
abbrev stackPage : UInt16 := 0x0100

------------------------------------------------------------
-- Picture Address Space
------------------------------------------------------------

/- Picture addresses have fourteen bits. -/
abbrev pictureAddressMask : UInt16 := 0x3FFF

abbrev patternTablesStart : UInt16 := 0x0000
abbrev patternTablesEnd : UInt16 := 0x1FFF
abbrev patternMemorySize : Nat := 0x2000
abbrev patternTableSize : UInt16 := 0x1000

abbrev nametablesStart : UInt16 := 0x2000
abbrev nametablesEnd : UInt16 := 0x3EFF
abbrev nametableSize : UInt16 := 0x0400
abbrev attributeTableOffset : UInt16 := 0x03C0

abbrev paletteStart : UInt16 := 0x3F00
abbrev paletteEnd : UInt16 := 0x3FFF
abbrev paletteSize : UInt16 := 0x20

------------------------------------------------------------
-- Sprites and Screen
------------------------------------------------------------

abbrev oamSize : Nat := 256
abbrev oamSprites : Nat := 64
abbrev spritesPerLine : Nat := 8
abbrev spriteHeight : UInt16 := 8
abbrev tallSpriteHeight : UInt16 := 16

abbrev screenHeight : Nat := 240
abbrev screenWidth : Nat := 256

------------------------------------------------------------
-- Timing
------------------------------------------------------------

abbrev dotsPerScanline : Nat := 341
abbrev lastDot : Nat := 340
abbrev visibleScanlines : Nat := 240
abbrev vblankScanline : Nat := 241
abbrev ntscScanlines : Nat := 262
abbrev palScanlines : Nat := 312

abbrev resetCycles : Nat := 7
abbrev interruptCycles : Nat := 7
abbrev oamDmaCycles : Nat := 513

end Hardware

end Famicom
