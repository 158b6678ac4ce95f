import Famicom.Hardware
import Famicom.Video.Pixel

/-
  Whole pictures as color numbers, row by row.

  Key definitions include:
    * `Frame`
    * `Frame.filled`
    * `Frame.color?`
    * `Frame.put`
    * `Frame.row?`
    * `Frame.checksum`
-/

namespace Famicom

------------------------------------------------------------
-- Frames
------------------------------------------------------------

/- The colors of all pixels of the screen. -/
structure Frame where
  colors :
    Vector UInt8
      (Hardware.screenWidth * Hardware.screenHeight)
deriving DecidableEq

namespace Frame

/- A picture of one color. -/
def filled (color : UInt8) : Frame where
  colors := Vector.replicate _ color

/- Whether a place is on the screen. -/
def contains (x y : Nat) : Bool :=
  x < Hardware.screenWidth && y < Hardware.screenHeight

/- The color at a place of the screen. -/
def color?
    (frame : Frame)
    (x y : Nat) : Option UInt8 :=
  if contains x y then
    frame.colors[y * Hardware.screenWidth + x]?
  else
    none

/- Draw a pixel.  Outside the screen nothing changes. -/
def put
    (frame : Frame)
    (pixel : Pixel) : Frame where
  colors := frame.colors.setIfInBounds
    (pixel.y.toNat * Hardware.screenWidth + pixel.x.toNat)
    pixel.color

/- Draw a pixel, which must be on the screen. -/
def put?
    (frame : Frame)
    (pixel : Pixel) : Option Frame :=
  if contains pixel.x.toNat pixel.y.toNat then
    some (frame.put pixel)
  else
    none

/- Frames take pixels by drawing them. -/
instance : PixelSink Frame where
  put pixel frame := frame.put pixel

------------------------------------------------------------
-- Summaries
------------------------------------------------------------

/- The colors of a row of the screen, from left to right. -/
def row?
    (frame : Frame)
    (y : Nat) : Option (List UInt8) :=
  (List.range Hardware.screenWidth).mapM fun x =>
    frame.color? x y

/- The sum of all colors. -/
def sum (frame : Frame) : Nat :=
  frame.colors.foldl (fun total c => total + c.toNat) 0

/- A double word turned left by five bits. -/
def rotateFive (value : UInt32) : UInt32 :=
  (value <<< 5) ||| (value >>> 27)

/- All colors mixed into a double word, row by row. -/
def checksum (frame : Frame) : UInt32 :=
  frame.colors.foldl
    (fun hash c => rotateFive hash ^^^ c.toUInt32) 0

end Frame

end Famicom
