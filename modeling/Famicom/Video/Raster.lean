import Famicom.Settings

/-
  The raster position: which dot of which line of which frame
  comes next.

  Key definitions include:
    * `Raster`
    * `Raster.isVisibleLine`
    * `Raster.isPrerenderLine`
    * `Raster.advance`
-/

namespace Famicom

------------------------------------------------------------
-- Raster
------------------------------------------------------------

/- A position of the raster. -/
structure Raster where
  scanline : Nat := 0
  dot : Nat := 0
  frame : Nat := 0
deriving DecidableEq

namespace Raster

/- Whether the line is part of the picture. -/
def isVisibleLine (raster : Raster) : Bool :=
  raster.scanline < Hardware.visibleScanlines

/- Whether the line prepares the first line of the picture. -/
def isPrerenderLine
    (raster : Raster)
    (timing : FrameTiming) : Bool :=
  raster.scanline == timing.prerenderScanline

/- Whether the frame has an odd number. -/
def isOddFrame (raster : Raster) : Bool :=
  raster.frame % 2 == 1

/-
  Whether this is the last dot but one of the pre-render
  line, after which a short frame ends.
-/
def isBeforeSkippedDot
    (raster : Raster)
    (timing : FrameTiming) : Bool :=
  raster.isPrerenderLine timing &&
    raster.dot == Hardware.lastDot - 1

/- The first dot of the next line. -/
def nextLine
    (raster : Raster)
    (timing : FrameTiming) : Raster :=
  if raster.scanline + 1 == timing.scanlines then
    ⟨0, 0, raster.frame + 1⟩
  else
    ⟨raster.scanline + 1, 0, raster.frame⟩

/-
  The next dot.  A short frame leaves out the last dot of the
  pre-render line.
-/
def advance
    (raster : Raster)
    (timing : FrameTiming)
    (shortFrame : Bool) : Raster :=
  let skip :=
    shortFrame && raster.isBeforeSkippedDot timing
  if raster.dot < Hardware.lastDot && !skip then
    { raster with dot := raster.dot + 1 }
  else
    raster.nextLine timing

end Raster

end Famicom
