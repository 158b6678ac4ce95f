import Famicom.Video.Memory
import Famicom.Video.PatternRow
import Famicom.Video.Pipeline
import Famicom.Video.Raster
import Famicom.Video.Registers
import Famicom.Video.Scroll
import Famicom.Video.SpriteMemory

/-
  The state of the picture unit.

  Key definitions include:
    * `Ppu`
    * `Ppu.powerOn`
    * `Ppu.reset`
    * `Ppu.isRendering`
-/

namespace Famicom

------------------------------------------------------------
-- State
------------------------------------------------------------

/-
  Everything the picture unit remembers, the timing it runs
  with, and two signals: a wish for an interrupt and a frame
  that has been completed but not accepted.
-/
structure Ppu where
  timing : FrameTiming
  registers : PpuRegisters
  scroll : Scroll
  memory : VideoMemory
  oam : SpriteMemory
  pipeline : Pipeline
  raster : Raster
  nmiRequested : Bool
  frameReady : Bool
deriving DecidableEq

namespace Ppu

/- The state at power-on. -/
def powerOn
    (memory : VideoMemory)
    (timing : FrameTiming) : Ppu where
  timing := timing
  registers := {}
  scroll := {}
  memory := memory
  oam := .blank
  pipeline := {}
  raster := {}
  nmiRequested := false
  frameReady := false

/-
  The state after a reset: memories are kept and all else is
  as at power-on.
-/
def reset (ppu : Ppu) : Ppu :=
  { ppu with
    registers := {}
    scroll := {}
    pipeline := {}
    raster := {}
    nmiRequested := false
    frameReady := false }

------------------------------------------------------------
-- Signals
------------------------------------------------------------

/- The interrupt has been passed on. -/
def acceptNmi (ppu : Ppu) : Ppu :=
  { ppu with nmiRequested := false }

/- The frame has been taken. -/
def acceptFrame (ppu : Ppu) : Ppu :=
  { ppu with frameReady := false }

------------------------------------------------------------
-- Position
------------------------------------------------------------

/- Whether the line is part of the picture. -/
def isVisibleLine (ppu : Ppu) : Bool :=
  ppu.raster.isVisibleLine

/- Whether the line prepares the picture. -/
def isPrerenderLine (ppu : Ppu) : Bool :=
  ppu.raster.isPrerenderLine ppu.timing

/- Whether the unit fetches and draws on this line. -/
def isRendering (ppu : Ppu) : Bool :=
  (ppu.isVisibleLine || ppu.isPrerenderLine) &&
    ppu.registers.mask.rendering

end Ppu

end Famicom
