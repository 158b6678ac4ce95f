import Famicom.Proofs.Console.BoardAccess
import Famicom.Proofs.Console.Clock
import Famicom.Proofs.Cpu.Traffic

/-
  Steps and resets of the console in two parts: what the
  processor does, and the dots that pass after it.

  Key definitions include:
    * `Console.execute`
    * `Console.restart`

  Main declarations:
    * `Console.step_eq`
    * `Console.reset_eq`
    * `Console.execute_stable`
    * `Console.restart_stable`
-/

namespace Famicom

namespace Console

------------------------------------------------------------
-- Steps
------------------------------------------------------------

/-
  The first part of a step: one step of the processor and the
  transfer that it may have requested.  Gives the cycles that
  both took.
-/
def execute
    (console : Console) :
    Except MachineFault Nat × Console :=
  match console.cpu.step console.lines console.board with
  | (.error fault, board) =>
      (.error fault, { console with board := board })
  | (.ok done, board) =>
      let transfer :=
        board.transferOam (console.cycles + done.cycles)
      (.ok (done.cycles + transfer.1),
        { console with
          cpu := done.cpu
          lines := done.lines
          board := transfer.2 })

/- The second part is the clock, unless the first fails. -/
theorem step_eq
    {σ : Type}
    [PixelSink σ]
    (console : Console)
    (sink : σ) :
    console.step sink =
      match console.execute with
      | (.error fault, executed) =>
          (.error fault, executed, sink)
      | (.ok cycles, executed) =>
          (.ok cycles, executed.clock cycles sink) := by
  unfold step execute
  dsimp only
  generalize
    console.cpu.step console.lines console.board = stepped
  rcases stepped with ⟨result, board⟩
  cases result with
  | error fault => rfl
  | ok done => rfl

/- All that is done on the bus keeps what accesses keep. -/
theorem within_stable
    {α : Type}
    {inside : UInt16 → Prop}
    {writes : Nat}
    {post : α → Prop}
    {computation : OnBus α}
    (hWithin :
      OnBus.Within inside writes post computation)
    {motive : Ppu → Prop}
    (hStable : Ppu.AccessStable motive)
    {board : Board}
    (hBoard : motive board.ppu) :
    motive (computation Board board).2.ppu :=
  hWithin.preserves
    (motive := fun board : Board => motive board.ppu)
    (fun address _ hHere =>
      Board.read_stable address hStable hHere)
    (fun address value _ hHere =>
      Board.write_stable address value hStable hHere)
    hBoard

theorem execute_stable
    {motive : Ppu → Prop}
    (hStable : Ppu.AccessStable motive)
    {console : Console}
    (hConsole : motive console.board.ppu) :
    motive console.execute.2.board.ppu := by
  have hStep := within_stable
    (console.cpu.step_within console.lines) hStable hConsole
  unfold execute
  split
  next hError =>
    rw [hError] at hStep
    exact hStep
  next hOk =>
    rw [hOk] at hStep
    exact Board.transferOam_stable hStable _ hStep

theorem execute_cycles (console : Console) :
    console.execute.2.cycles = console.cycles := by
  unfold execute
  split <;> rfl

theorem execute_remainder (console : Console) :
    console.execute.2.remainder = console.remainder := by
  unfold execute
  split <;> rfl

------------------------------------------------------------
-- Resets
------------------------------------------------------------

/- The first part of a reset: all but the dots after it. -/
def restart (console : Console) : Console :=
  let board :=
    { console.board with
      dma := {}
      ppu := console.board.ppu.reset }
  let restarted := console.cpu.reset board
  { console with
    cpu := restarted.1
    lines := {}
    board := restarted.2
    remainder := 0 }

theorem reset_eq (console : Console) :
    console.reset =
      (console.restart.clock Hardware.resetCycles ()).1 :=
  rfl

/- It starts where the program's vector points to. -/
theorem restart_eq
    {console : Console}
    (hMap : console.board.map = Board.standardMap) :
    let program := console.board.program
    console.restart =
      { console with
        cpu :=
          { console.cpu with
            registers :=
              { console.cpu.resetRegisters with
                pc := program.word Hardware.resetVector }
            powered := true }
        lines := {}
        board :=
          { console.board with
            dma := {}
            ppu := console.board.ppu.reset }
        remainder := 0 } := by
  have hVector := Board.readWord_cartridge
    { console.board with
      dma := {}
      ppu := console.board.ppu.reset }
    Hardware.resetVector hMap (by decide) (by decide)
  unfold restart Cpu.reset
  dsimp only [bind, StateT.bind, pure, StateT.pure]
  rw [hVector]

/- The dots after it leave that to the processor. -/
theorem reset_pc
    {console : Console}
    (hMap : console.board.map = Board.standardMap) :
    let program := console.board.program
    console.reset.pc = program.word Hardware.resetVector ∧
      console.reset.board.program = program ∧
      console.reset.cpu.table = console.cpu.table := by
  rw [reset_eq, restart_eq hMap]
  exact ⟨rfl, rfl, rfl⟩

theorem restart_stable
    {motive : Ppu → Prop}
    (hStable : Ppu.AccessStable motive)
    {console : Console}
    (hConsole : motive console.board.ppu.reset) :
    motive console.restart.board.ppu :=
  within_stable console.cpu.reset_within hStable hConsole

end Console

end Famicom
