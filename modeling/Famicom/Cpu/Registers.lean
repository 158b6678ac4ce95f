import Famicom.Cpu.Status

/-
  The processor's register file.

  Key definitions include:
    * `Registers`
    * `Registers.powerOn`
    * `Registers.blank`
-/

namespace Famicom

------------------------------------------------------------
-- Registers
------------------------------------------------------------

/-
  Accumulator, index registers, stack pointer, program
  counter and status.
-/
structure Registers where
  a : UInt8
  x : UInt8
  y : UInt8
  sp : UInt8
  pc : UInt16
  status : Status
deriving DecidableEq

namespace Registers

/- The registers at power-on. -/
def powerOn : Registers where
  a := 0
  x := 0
  y := 0
  sp := 0xFD
  pc := 0
  status := .powerOn

/- Registers without any bit set. -/
def blank : Registers where
  a := 0
  x := 0
  y := 0
  sp := 0
  pc := 0
  status := {}

end Registers

end Famicom
