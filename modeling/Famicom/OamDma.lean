import Famicom.Hardware

/-
  The request latch of the sprite memory transfer.

  Writing a page number requests that the 256 bytes of that
  page be copied into sprite memory.  The latch only holds
  the request: the scheduler performs the copy.

  Key definitions include:
    * `OamDma`
    * `OamDma.request`
    * `OamDma.take`
    * `OamDma.transferCycles`
-/

namespace Famicom

------------------------------------------------------------
-- Transfer Requests
------------------------------------------------------------

/- The requested page, if a transfer is pending. -/
structure OamDma where
  page : Option UInt8 := none
deriving DecidableEq

namespace OamDma

/- Request a page.  The latest request wins. -/
def request
    (_dma : OamDma)
    (page : UInt8) : OamDma where
  page := some page

/- Take the pending request, leaving none. -/
def take (dma : OamDma) : Option UInt8 × OamDma :=
  (dma.page, {})

/-
  The cycles for which a transfer halts the processor.  One
  that starts on an odd cycle waits for an even one first.
-/
def transferCycles (startCycle : Nat) : Nat :=
  Hardware.oamDmaCycles + startCycle % 2

end OamDma

end Famicom
