/-
  Pixels, and what takes them.

  Key definitions include:
    * `Pixel`
    * `PixelSink`
-/

namespace Famicom

------------------------------------------------------------
-- Pixels
------------------------------------------------------------

/-
  A color of the system palette at a place of the screen,
  with the emphasis of red, green and blue.
-/
structure Pixel where
  x : UInt8
  y : UInt8
  color : UInt8
  emphasis : UInt8
deriving DecidableEq

/- Anything that takes pixels one by one. -/
class PixelSink (σ : Type) where
  put : Pixel → σ → σ

namespace PixelSink

/- An array of pixels in the order of their output. -/
instance : PixelSink (Array Pixel) where
  put pixel pixels := pixels.push pixel

/- Two sinks that both take every pixel. -/
instance {σ τ : Type} [PixelSink σ] [PixelSink τ] :
    PixelSink (σ × τ) where
  put pixel := fun (first, second) =>
    (put pixel first, put pixel second)

/- A sink that keeps nothing. -/
instance : PixelSink Unit where
  put _ sink := sink

end PixelSink

end Famicom
