import Famicom.Console.Board
import Famicom.Console.Scan
import Famicom.Cpu

/-
  The console.

  Processor and picture unit take turns: the processor
  executes one instruction, then the picture unit catches up
  dot by dot with the cycles that it took.

  Key definitions include:
    * `Console`
    * `Console.powerOn`
    * `Console.reset`
    * `Console.clock`
    * `Console.step`
    * `Console.runFrame`
-/

namespace Famicom

------------------------------------------------------------
-- Console
------------------------------------------------------------

/-
  The processor, its interrupt lines and its board, the dots
  owed to the picture unit as a fraction, and the cycles
  since power-on.
-/
structure Console where
  cpu : Cpu
  lines : InterruptLines
  board : Board
  remainder : Nat
  cycles : Nat

namespace Console

------------------------------------------------------------
-- Clock
------------------------------------------------------------

/- The ratio between dots and cycles. -/
def ratio (console : Console) : ClockRatio :=
  console.board.ppu.timing.dotsPerCycle

section Clock

variable {σ : Type} [PixelSink σ]

/- Let the picture unit run for a number of dots. -/
def runDots
    (console : Console)
    (dots : Nat)
    (sink : σ) : Console × σ :=
  match console with
  | ⟨cpu, lines, ⟨map, ram, ppu, pads, dma, program⟩,
      remainder, cycles⟩ =>
    let ⟨ppu, lines, sink⟩ :=
      Scan.run dots ⟨ppu, lines, sink⟩
    (⟨cpu, lines, ⟨map, ram, ppu, pads, dma, program⟩,
      remainder, cycles⟩, sink)

/-
  Spend processor cycles on the picture unit.  Dots that are
  not whole yet are carried over.
-/
def clock
    (console : Console)
    (cycles : Nat)
    (sink : σ) : Console × σ :=
  let ratio := console.ratio
  let owed := console.remainder + cycles * ratio.dots
  { console with
    remainder := owed % ratio.cycles
    cycles := console.cycles + cycles
    }.runDots (owed / ratio.cycles) sink

end Clock

------------------------------------------------------------
-- Power and Reset
------------------------------------------------------------

/-
  Press the reset button.  Pending interrupts and transfers
  are forgotten, and the first dots after it are not shown.
-/
def reset (console : Console) : Console :=
  match console with
  | ⟨cpu, _, board, _, cycles⟩ =>
    let board :=
      { board with
        dma := board.dma.take.2
        ppu := board.ppu.reset }
    let (cpu, board) := cpu.reset board
    let console : Console := ⟨cpu, {}, board, 0, cycles⟩
    (console.clock Hardware.resetCycles ()).1

/- A console with a cartridge, after its first reset. -/
def powerOn
    (image : CartridgeImage)
    (settings : Settings) :
    Except MachineFault Console := do
  let cartridge ← Cartridge.ofImage image
  let board ←
    (Board.powerOn cartridge settings.standard.timing
      settings.ram).mapError .addressMap
  let cpu ← Cpu.ofFidelity settings.fidelity
  let console : Console := ⟨cpu, {}, board, 0, 0⟩
  return console.reset

------------------------------------------------------------
-- Steps
------------------------------------------------------------

section Steps

variable {σ : Type} [PixelSink σ]

/-
  One step of the processor, the transfer that it may have
  requested, and the dots that pass meanwhile.  Gives the
  cycles that it all took.  After a failing step the clock
  has not moved.
-/
def step
    (console : Console)
    (sink : σ) :
    Except MachineFault Nat × Console × σ :=
  match console with
  | ⟨cpu, lines, board, remainder, elapsed⟩ =>
    match cpu.step lines board with
    | (.error fault, board) =>
        (.error fault,
          ⟨cpu, lines, board, remainder, elapsed⟩, sink)
    | (.ok done, board) =>
        let (halted, board) :=
          board.transferOam (elapsed + done.cycles)
        let cycles := done.cycles + halted
        let console : Console :=
          ⟨done.cpu, done.lines, board, remainder, elapsed⟩
        (.ok cycles, console.clock cycles sink)

/- Whether a frame has been completed. -/
def frameReady (console : Console) : Bool :=
  console.board.ppu.frameReady

/- Take the completed frame. -/
def acceptFrame (console : Console) : Console :=
  { console with
    board :=
      { console.board with
        ppu := console.board.ppu.acceptFrame } }

/-
  Step until a frame is completed, a step fails, or a number
  of steps is used up.
-/
def stepUntilFrame :
    Nat → Console → σ →
      Except MachineFault Unit × Console × σ
  | 0, console, sink => (.ok (), console, sink)
  | steps + 1, console, sink =>
      match console.step sink with
      | (.error fault, console, sink) =>
          (.error fault, console, sink)
      | (.ok _, console, sink) =>
          if console.frameReady then
            (.ok (), console.acceptFrame, sink)
          else
            stepUntilFrame steps console sink

/-
  More steps than any frame takes.  A frame has this many
  dots, and every step lets some of them pass.
-/
def frameSteps (console : Console) : Nat :=
  console.board.ppu.timing.scanlines *
    Hardware.dotsPerScanline

/-
  Step until the picture unit completes a frame, and take the
  frame.  Gives the cycles that it took.
-/
def runFrame
    (console : Console)
    (sink : σ) :
    Except MachineFault Nat × Console × σ :=
  let start := console.cycles
  match stepUntilFrame console.frameSteps console sink with
  | (.error fault, console, sink) =>
      (.error fault, console, sink)
  | (.ok (), console, sink) =>
      (.ok (console.cycles - start), console, sink)

end Steps

------------------------------------------------------------
-- Access
------------------------------------------------------------

/- The program counter. -/
def pc (console : Console) : UInt16 :=
  console.cpu.registers.pc

/- Read a byte as the processor would. -/
def read
    (console : Console)
    (address : UInt16) : UInt8 × Console :=
  let (value, board) := console.board.read address
  (value, { console with board := board })

/- Write a byte as the processor would. -/
def write
    (console : Console)
    (address : UInt16)
    (value : UInt8) : Console :=
  { console with board := console.board.write address value }

/- A console is an address bus, as the processor sees it. -/
instance : AddressBus Console where
  read address := fun console => console.read address
  write address value := fun console =>
    ((), console.write address value)

/- Change the pads. -/
def changePads
    (console : Console)
    (change : Pads → Pads) : Console :=
  { console with
    board :=
      { console.board with
        controllers := change console.board.controllers } }

end Console

end Famicom
