/-
  Interrupt signals between the devices and the processor.

  The non-maskable interrupt is an edge: once raised it stays
  pending until the processor takes it.  The interrupt
  request is a level: it is served for as long as it is
  asserted and the processor allows it.

  Key definitions include:
    * `InterruptLines`
    * `InterruptLines.raiseNmi`
    * `InterruptLines.takeNmi`
    * `InterruptLines.setIrq`
-/

namespace Famicom

------------------------------------------------------------
-- Interrupt Lines
------------------------------------------------------------

/- The state of the two interrupt lines. -/
structure InterruptLines where
  nmiPending : Bool := false
  irqAsserted : Bool := false
deriving DecidableEq

namespace InterruptLines

/- Raise the edge.  Raising it twice leaves one pending. -/
def raiseNmi (lines : InterruptLines) : InterruptLines :=
  { lines with nmiPending := true }

/- Acknowledge a pending edge, telling whether there was one. -/
def takeNmi
    (lines : InterruptLines) : Bool × InterruptLines :=
  (lines.nmiPending, { lines with nmiPending := false })

/- Set the level. -/
def setIrq
    (lines : InterruptLines)
    (asserted : Bool) : InterruptLines :=
  { lines with irqAsserted := asserted }

end InterruptLines

end Famicom
