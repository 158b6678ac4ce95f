import Famicom.Cartridge.Image
import Famicom.Cartridge.Patterns
import Famicom.Cartridge.Program
import Famicom.MachineFault

/-
  Cartridges: an image on a board that can work with it.

  The only board is number 0, which switches no banks.  It
  takes 16 or 32 kB of program, 8 kB of patterns, and memory
  whose size is a power of two up to 8 kB or none at all.

  Key definitions include:
    * `Cartridge`
    * `Cartridge.onBoardZero`
    * `Cartridge.onBoard`
    * `Cartridge.ofImage`
-/

namespace Famicom

------------------------------------------------------------
-- Cartridges
------------------------------------------------------------

/-
  The two sides of a cartridge and the arrangement of the
  nametables that it is wired for.
-/
structure Cartridge where
  program : ProgramMemory
  patterns : PatternMemory
  mirroring : Mirroring
deriving DecidableEq

namespace Cartridge

/- The number of the board. -/
def boardZero : UInt8 := 0

/- Whether the board can use memory of a size. -/
def isProgramRamSize (size : Nat) : Bool :=
  size == 0 || (List.range 14).any (Nat.pow 2 · == size)

/- The pattern memory of an image, if its size fits. -/
def patternsOf?
    (graphics : GraphicsContents) : Option PatternMemory :=
  match graphics with
  | .rom contents =>
      if h : contents.size = Hardware.patternMemorySize then
        some ⟨⟨contents, h⟩, false⟩
      else
        none
  | .ram size =>
      if size = Hardware.patternMemorySize then
        some ⟨Vector.replicate _ 0, true⟩
      else
        none

------------------------------------------------------------
-- Boards
------------------------------------------------------------

/-
  An image on board 0.  The sizes of the program, of the
  patterns and of the memory are checked in this order.
-/
def onBoardZero
    (image : CartridgeImage) : Except Fault Cartridge :=
  if hRom :
      image.programRom.size = 0x4000 ∨
        image.programRom.size = 0x8000 then
    match patternsOf? image.graphics with
    | none =>
        .error (.graphicsSize boardZero image.graphics.size)
    | some patterns =>
        if isProgramRamSize image.programRamSize then
          .ok
            { program :=
                { rom := image.programRom
                  ram := .filled image.programRamSize 0
                  rom_size := hRom }
              patterns := patterns
              mirroring := image.mirroring }
        else
          .error
            (.programRamSize boardZero image.programRamSize)
  else
    .error (.programRomSize boardZero image.programRom.size)

/- An image on the board it asks for. -/
def onBoard
    (image : CartridgeImage) :
    Except MachineFault Cartridge :=
  if image.board = boardZero then
    (onBoardZero image).mapError .cartridge
  else
    .error (.unsupportedBoard image.board)

/- A cartridge, which has at least some program. -/
def ofImage
    (image : CartridgeImage) :
    Except MachineFault Cartridge :=
  if image.programRom.isEmpty then
    .error (.cartridge .missingProgramRom)
  else
    onBoard image

end Cartridge

end Famicom
