import Famicom.Hardware

/-
  The options a console is built with.

  Timing variants differ only in the numbers below: the
  picture unit and the scheduler read a `FrameTiming` and
  never ask which standard it came from.

  Key definitions include:
    * `VideoStandard`
    * `FrameTiming`
    * `ClockRatio`
    * `Fidelity`
    * `RamFill`
    * `Settings`
-/

namespace Famicom

------------------------------------------------------------
-- Timing Variants
------------------------------------------------------------

/-
  The speed of the picture unit against the processor:
  `dots` dots pass in every `cycles` processor cycles.
-/
structure ClockRatio where
  dots : Nat
  cycles : Nat
deriving DecidableEq

/-
  The shape of a frame.  Vertical blank starts on dot 1 of
  `vblankScanline`, the last line of the frame is
  `prerenderScanline`, and `oddFrameSkip` tells whether odd
  frames are one dot shorter while rendering.
-/
structure FrameTiming where
  scanlines : Nat
  vblankScanline : Nat
  prerenderScanline : Nat
  oddFrameSkip : Bool
  dotsPerCycle : ClockRatio
deriving DecidableEq

/- The two television standards the console was sold for. -/
inductive VideoStandard where
  | ntsc
  | pal
deriving DecidableEq

namespace VideoStandard

/- The frame shape and clock ratio of a standard. -/
def timing : VideoStandard → FrameTiming
  | ntsc =>
      { scanlines := Hardware.ntscScanlines
        vblankScanline := Hardware.vblankScanline
        prerenderScanline := Hardware.ntscScanlines - 1
        oddFrameSkip := true
        dotsPerCycle := ⟨3, 1⟩ }
  | pal =>
      { scanlines := Hardware.palScanlines
        vblankScanline := Hardware.vblankScanline
        prerenderScanline := Hardware.palScanlines - 1
        oddFrameSkip := false
        dotsPerCycle := ⟨16, 5⟩ }

/- The name of a standard in reports. -/
def name : VideoStandard → String
  | ntsc => "Ntsc"
  | pal => "Pal"

end VideoStandard

------------------------------------------------------------
-- Opcodes and Memory
------------------------------------------------------------

/-
  What happens to the opcodes the processor's manual leaves
  out.  Strict machines stop on them, stubbing machines skip
  over them, and the last level executes the stable ones.
-/
inductive Fidelity where
  | strict
  | nopStub
  | undocumented
deriving DecidableEq

/- The name of a level in reports. -/
def Fidelity.name : Fidelity → String
  | strict => "Strict"
  | nopStub => "NopStub"
  | undocumented => "Undocumented"

/- The contents of the console's memory at power-on. -/
inductive RamFill where
  | zeroed
  | filled (value : UInt8)
deriving DecidableEq

namespace RamFill

/- The byte every memory cell starts with. -/
def value : RamFill → UInt8
  | zeroed => 0
  | filled value => value

end RamFill

------------------------------------------------------------
-- Console Options
------------------------------------------------------------

/- All options of a console. -/
structure Settings where
  standard : VideoStandard := .ntsc
  fidelity : Fidelity := .strict
  ram : RamFill := .zeroed
deriving DecidableEq

end Famicom
