import Famicom.Interrupts
import Famicom.Video.Sweep

/-
  The picture unit at work: dots, the pixels they output and
  the interrupts they raise.

  Key definitions include:
    * `Scan`
    * `Scan.tick`
    * `Scan.run`
-/

namespace Famicom

------------------------------------------------------------
-- Scans
------------------------------------------------------------

/-
  The picture unit, the processor's interrupt lines and the
  taker of pixels.
-/
structure Scan (σ : Type) where
  ppu : Ppu
  lines : InterruptLines
  sink : σ

namespace Scan

variable {σ : Type} [PixelSink σ]

/-
  One dot.  An interrupt that it asks for reaches the lines
  at once, and the processor sees it on its next step.
-/
def tick : Scan σ → Scan σ
  | ⟨ppu, lines, sink⟩ =>
      let (ppu, sink) := ppu.draw sink
      if ppu.nmiRequested then
        ⟨ppu.acceptNmi, lines.raiseNmi, sink⟩
      else
        ⟨ppu, lines, sink⟩

/- A number of dots. -/
def run : Nat → Scan σ → Scan σ
  | 0, scan => scan
  | count + 1, scan => run count scan.tick

end Scan

end Famicom
