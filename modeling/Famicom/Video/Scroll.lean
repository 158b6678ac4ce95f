import Famicom.Video.ScrollAddress

/-
  The scrolling state of the picture unit.

  The current address is used for fetches and for data
  accesses.  The temporary one collects what the processor
  writes, in two halves told apart by a latch.

  Key definitions include:
    * `WriteLatch`
    * `Scroll`
    * `Scroll.writeControl`
    * `Scroll.writeScroll`
    * `Scroll.writeAddress`
-/

namespace Famicom

------------------------------------------------------------
-- Latch
------------------------------------------------------------

/- Which half of a double register is written next. -/
inductive WriteLatch where
  | first
  | second
deriving DecidableEq

------------------------------------------------------------
-- Scroll
------------------------------------------------------------

/-
  The current address, the temporary address, the column of
  pixels in the first tile, and the latch.
-/
structure Scroll where
  current : ScrollAddress := ⟨0⟩
  temporary : ScrollAddress := ⟨0⟩
  fineX : UInt8 := 0
  latch : WriteLatch := .first
deriving DecidableEq

namespace Scroll

/- Select the nametable of the next frame. -/
def writeControl
    (scroll : Scroll)
    (nametable : UInt8) : Scroll :=
  { scroll with
    temporary :=
      scroll.temporary.withNametable nametable.toUInt16 }

/-
  Write a scroll position: first the horizontal one, then
  the vertical one.
-/
def writeScroll
    (scroll : Scroll)
    (value : UInt8) : Scroll :=
  let coarse := (value / 8).toUInt16
  let fine := value % 8
  match scroll.latch with
  | .first =>
      { scroll with
        temporary := scroll.temporary.withCoarseX coarse
        fineX := fine
        latch := .second }
  | .second =>
      { scroll with
        temporary :=
          (scroll.temporary.withCoarseY coarse).withFineY
            fine.toUInt16
        latch := .first }

/-
  Write an address: first its high byte, of which six bits
  are kept, then its low byte, which makes it current.
-/
def writeAddress
    (scroll : Scroll)
    (value : UInt8) : Scroll :=
  match scroll.latch with
  | .first =>
      { scroll with
        temporary := .ofWord
          (((value &&& 0x3F).toUInt16 <<< 8) |||
            (scroll.temporary.bits &&& 0x00FF))
        latch := .second }
  | .second =>
      let address := ScrollAddress.ofWord
        ((scroll.temporary.bits &&& 0xFF00) |||
          value.toUInt16)
      { scroll with
        temporary := address
        current := address
        latch := .first }

/- Expect the first half next. -/
def resetLatch (scroll : Scroll) : Scroll :=
  { scroll with latch := .first }

/- The horizontal position in pixels, as last written. -/
def x (scroll : Scroll) : UInt16 :=
  scroll.temporary.coarseX * 8 + scroll.fineX.toUInt16

/- The vertical position in pixels, as last written. -/
def y (scroll : Scroll) : UInt16 :=
  scroll.temporary.coarseY * 8 + scroll.temporary.fineY

end Scroll

end Famicom
