import Famicom.Video.Tick

/-
  Many dots of the picture unit in a row, with the pixels
  handed to a sink.

  Key definitions include:
    * `Ppu.draw`
    * `Ppu.drawUntil`
-/

namespace Famicom

namespace Ppu

variable {σ : Type} [PixelSink σ]

/- One dot, with its pixel handed over if it has one. -/
def draw
    (ppu : Ppu)
    (sink : σ) : Ppu × σ :=
  match ppu.tick with
  | (some pixel, ppu) => (ppu, PixelSink.put pixel sink)
  | (none, ppu) => (ppu, sink)

/-
  Dots until a condition holds after one of them, but no more
  than `limit`.  Gives the number of dots on top of `count`.
-/
def drawUntil
    (stop : Ppu → Bool)
    (ppu : Ppu)
    (sink : σ)
    (limit : Nat)
    (count : Nat := 0) : Nat × Ppu × σ :=
  match limit with
  | 0 => (count, ppu, sink)
  | limit + 1 =>
      let (ppu, sink) := ppu.draw sink
      if stop ppu then
        (count + 1, ppu, sink)
      else
        drawUntil stop ppu sink limit (count + 1)

end Ppu

end Famicom
