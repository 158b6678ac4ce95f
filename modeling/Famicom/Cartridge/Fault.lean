/-
  The reasons why a cartridge image is refused.

  Key definitions include:
    * `Cartridge.Fault`
    * `Cartridge.Fault.message`
-/

namespace Famicom

namespace Cartridge

------------------------------------------------------------
-- Faults
------------------------------------------------------------

/- What a board cannot work with. -/
inductive Fault where
  | missingProgramRom
  | programRomSize (board : UInt8) (size : Nat)
  | graphicsSize (board : UInt8) (size : Nat)
  | programRamSize (board : UInt8) (size : Nat)
deriving DecidableEq

namespace Fault

/- The report of a size that a board cannot use. -/
def sizeMessage
    (board : UInt8)
    (size : Nat)
    (part : String) : String :=
  "Mapper " ++ toString board.toNat ++ " can't use " ++
    toString size ++ " bytes of " ++ part

/- The report of a fault. -/
def message : Fault → String
  | missingProgramRom => "Cartridge has no program ROM"
  | programRomSize board size =>
      sizeMessage board size "program ROM"
  | graphicsSize board size =>
      sizeMessage board size "graphics memory"
  | programRamSize board size =>
      sizeMessage board size "program RAM"

end Fault

end Cartridge

end Famicom
