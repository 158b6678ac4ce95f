import Famicom.Hardware
import Famicom.Mirroring

/-
  Decoded cartridge contents, before any board is chosen.

  Key definitions include:
    * `GraphicsContents`
    * `CartridgeImage`
    * `CartridgeImage.summary`
-/

namespace Famicom

------------------------------------------------------------
-- Graphics
------------------------------------------------------------

/-
  The pattern memory of a cartridge: given contents that
  cannot change, or a size of memory that starts zeroed.
-/
inductive GraphicsContents where
  | rom (contents : Array UInt8)
  | ram (size : Nat)
deriving DecidableEq

namespace GraphicsContents

/- The size in bytes. -/
def size : GraphicsContents → Nat
  | rom contents => contents.size
  | ram size => size

/- Whether there is no pattern memory. -/
def isEmpty (graphics : GraphicsContents) : Bool :=
  graphics.size == 0

/- The kind of memory in reports. -/
def kind : GraphicsContents → String
  | rom _ => "ROM"
  | ram _ => "RAM"

end GraphicsContents

------------------------------------------------------------
-- Images
------------------------------------------------------------

/- The contents of a game and the board it asks for. -/
structure CartridgeImage where
  programRom : Array UInt8
  graphics : GraphicsContents :=
    .ram Hardware.patternMemorySize
  programRamSize : Nat := 0
  board : UInt8 := 0
  mirroring : Mirroring := .horizontal
deriving DecidableEq

namespace CartridgeImage

/- A number of bytes in whole kilobytes. -/
def kilobytes (size : Nat) : String :=
  toString (size / 1024) ++ " kB"

/- The contents in one line. -/
def summary (image : CartridgeImage) : String :=
  "Cartridge: mapper " ++ toString image.board.toNat ++
    ", " ++ kilobytes image.programRom.size ++
    " PRG ROM, " ++ kilobytes image.graphics.size ++
    " CHR " ++ image.graphics.kind ++
    ", " ++ kilobytes image.programRamSize ++
    " PRG RAM, " ++ image.mirroring.name ++ " mirroring"

end CartridgeImage

end Famicom
