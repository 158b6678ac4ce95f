import Famicom.Proofs.Console.FrameLoop
import Famicom.Proofs.Console.StepTally

/-
  Programs that wait for interrupts in place.

  A jump that leads to itself changes nothing, and serving an
  interrupt that leads to the same place only changes the
  stack and the flags.  Such a program goes on forever, and
  every frame that it is run for is completed.

  Key definitions include:
    * `ProgramMemory.WaitsAt`
    * `ProgramMemory.jumpBank`
    * `Console.Waiting`

  Main declarations:
    * `Console.Waiting.step`
    * `Console.Waiting.runFrame`
    * `Console.waiting_powerOn`
    * `Console.waiting_jumpBank`
-/

namespace Famicom

------------------------------------------------------------
-- Waiting
------------------------------------------------------------

/- A place where a program waits for interrupts. -/
structure ProgramMemory.WaitsAt
    (program : ProgramMemory)
    (place : UInt16) : Prop where
  opcode_inside : Hardware.cartridgeStart ≤ place
  low_inside : Hardware.cartridgeStart ≤ place + 1
  high_inside : Hardware.cartridgeStart ≤ place + 1 + 1
  opcode : program.read place = 0x4C
  target : program.word (place + 1) = place
  vector : program.word Hardware.nmiVector = place

namespace Console

/- A console whose program waits at a place. -/
structure Waiting
    (place : UInt16)
    (console : Console) : Prop where
  map : console.board.map = Board.standardMap
  page : console.board.dma.page = none
  level : console.lines.irqAsserted = false
  operation :
    (console.cpu.table.lookup 0x4C).operation = .jump
  mode : (console.cpu.table.lookup 0x4C).mode = .absolute
  program : console.board.program.WaitsAt place
  pc : console.cpu.registers.pc = place

variable {place : UInt16} {console : Console}

------------------------------------------------------------
-- Steps
------------------------------------------------------------

/- The jump leads to itself. -/
theorem Waiting.executeNext
    (hWaiting : Waiting place console) :
    ∃ cycles,
      console.cpu.executeNext console.lines console.board =
        (.ok ⟨console.cpu, console.lines, cycles⟩,
          console.board) := by
  rcases console with
    ⟨⟨table, registers, powered⟩, lines, board, _, _⟩
  have hProgram := hWaiting.program
  have hHere : registers.pc = place := hWaiting.pc
  have hOpcode : AddressBus.read place board =
      (0x4C, board) := by
    refine (Board.read_cartridge hWaiting.map
      hProgram.opcode_inside).trans ?_
    exact congrArg (Prod.mk · _) hProgram.opcode
  have hTarget : AddressBus.readWord (place + 1) board =
      (place, board) := by
    refine (Board.readWord_cartridge board (place + 1)
      hWaiting.map hProgram.low_inside
      hProgram.high_inside).trans ?_
    exact congrArg (Prod.mk · _) hProgram.target
  have hOperation : (table.lookup 0x4C).operation = .jump :=
    hWaiting.operation
  have hMode : (table.lookup 0x4C).mode = .absolute :=
    hWaiting.mode
  refine ⟨(table.lookup 0x4C).cycles, ?_⟩
  unfold Cpu.executeNext
  dsimp only [bind, StateT.bind]
  rw [hHere, hOpcode]
  unfold Instruction.execute
  dsimp only
  rw [hOperation]
  unfold Instruction.executeJump AddressingMode.resolve
  rw [hMode, hHere]
  dsimp only [Functor.map, StateT.map, bind, StateT.bind]
  rw [hTarget, ← hHere]
  rfl

/-
  The first part of a step succeeds, whether it serves an
  interrupt or executes the jump.
-/
theorem Waiting.execute
    (hWaiting : Waiting place console) :
    ∃ cycles next,
      console.execute = (.ok cycles, next) ∧
        Waiting place next := by
  unfold Console.execute
  rw [Cpu.step_eq_perform]
  by_cases hPending : console.lines.nmiPending = true
  · rw [(console.cpu.nextAction_eq_serveNmi
      console.lines).mpr hPending]
    rcases console.cpu.perform_serveNmi console.lines
      hWaiting.map with ⟨ram, hServe⟩
    have hPage :
        ({ console.board with ram := ram } : Board).dma.page =
          none :=
      hWaiting.page
    rw [hServe]
    dsimp only
    rw [Board.transferOam_of_none hPage]
    refine ⟨_, _, rfl, ?_⟩
    exact
      { map := hWaiting.map
        page := hWaiting.page
        level := hWaiting.level
        operation := hWaiting.operation
        mode := hWaiting.mode
        program := hWaiting.program
        pc := hWaiting.program.vector }
  · rw [console.cpu.nextAction_eq_execute
      (Bool.eq_false_iff.mpr hPending) hWaiting.level]
    rcases hWaiting.executeNext with ⟨cycles, hNext⟩
    have hPerform :
        console.cpu.perform console.lines .execute
            console.board =
          (.ok ⟨console.cpu, console.lines, cycles⟩,
            console.board) :=
      hNext
    rw [hPerform]
    dsimp only
    rw [Board.transferOam_of_none hWaiting.page]
    exact ⟨_, _, rfl, hWaiting⟩

section Frames

variable {σ : Type} [PixelSink σ]

/- Dots leave the program and the level alone. -/
theorem Waiting.clock
    (hWaiting : Waiting place console)
    (cycles : Nat)
    (sink : σ) :
    Waiting place (console.clock cycles sink).1 := by
  rw [clock_eq]
  exact
    { map := hWaiting.map
      page := hWaiting.page
      level := (Scan.run_level _ _).trans hWaiting.level
      operation := hWaiting.operation
      mode := hWaiting.mode
      program := hWaiting.program
      pc := hWaiting.pc }

/- A program that waits takes one step after the other. -/
theorem Waiting.step
    (hWaiting : Waiting place console)
    (sink : σ) :
    ∃ cycles next sink',
      console.step sink = (.ok cycles, next, sink') ∧
        Waiting place next := by
  rcases hWaiting.execute with
    ⟨cycles, executed, hExecute, hExecuted⟩
  rw [step_eq, hExecute]
  exact ⟨cycles, _, _, rfl, hExecuted.clock cycles sink⟩

theorem Waiting.acceptFrame
    (hWaiting : Waiting place console) :
    Waiting place console.acceptFrame where
  map := hWaiting.map
  page := hWaiting.page
  level := hWaiting.level
  operation := hWaiting.operation
  mode := hWaiting.mode
  program := hWaiting.program
  pc := hWaiting.pc

theorem RunsToFrame.waiting
    {sink : σ}
    {result : Except MachineFault Unit × Console × σ}
    (hRuns : RunsToFrame console sink result)
    (hWaiting : Waiting place console) :
    result.1 = .ok () ∧ Waiting place result.2.1 := by
  induction hRuns with
  | @fault _ _ sink _ _ hStep =>
      rcases hWaiting.step sink with ⟨_, _, _, hOk, -⟩
      rw [hOk] at hStep
      cases hStep
  | @ready _ _ sink _ _ hStep _ =>
      rcases hWaiting.step sink with ⟨_, _, _, hOk, hNext⟩
      rw [hOk] at hStep
      cases hStep
      exact ⟨rfl, hNext.acceptFrame⟩
  | @more _ _ sink _ _ _ hStep _ _ ih =>
      rcases hWaiting.step sink with ⟨_, _, _, hOk, hNext⟩
      rw [hOk] at hStep
      cases hStep
      exact ih hNext

/- It can be run for a frame, and then for another. -/
theorem Waiting.runFrame
    {standard : VideoStandard}
    (hWaiting : Waiting place console)
    (hRunning : Running standard console)
    (sink : σ) :
    ∃ cycles next sink',
      console.runFrame sink = (.ok cycles, next, sink') ∧
        Waiting place next ∧ Running standard next := by
  have hRuns := hRunning.stepUntilFrame sink
  rcases hRuns.waiting hWaiting with ⟨hOk, hNext⟩
  rw [runFrame_eq]
  dsimp only
  rw [hOk]
  exact ⟨_, _, _, rfl, hNext, hRuns.running hRunning⟩

end Frames

------------------------------------------------------------
-- Power-On
------------------------------------------------------------

/- A program that starts where it waits does so at once. -/
theorem waiting_powerOn
    {image : CartridgeImage}
    {settings : Settings}
    {start : Console}
    {program : ProgramMemory}
    (hOn : powerOn image settings = .ok start)
    (hProgram :
      (Cartridge.ofImage image).map Cartridge.program =
        .ok program)
    (hWaits : program.WaitsAt place)
    (hReset : program.word Hardware.resetVector = place) :
    Waiting place start := by
  have hSettled := (settled_powerOn hOn).1
  rcases assembled_of_powerOn hOn with
    ⟨fresh, hAssembled, rfl⟩
  have hFresh := fresh_assembled hAssembled
  rcases reset_pc hFresh.map with ⟨hPc, hSame, hTable⟩
  have hBoard : fresh.board.program = program :=
    Except.ok.inj (hFresh.program.symm.trans hProgram)
  have hJump := OpcodeTable.operation_jump
    (hTable ▸ hFresh.table)
  exact
    { map := hSettled.map
      page := hSettled.page
      level := hSettled.level
      operation := hJump.1
      mode := hJump.2
      program := (hSame.trans hBoard) ▸ hWaits
      pc := by
        refine hPc.trans ?_
        rw [hBoard, hReset] }

end Console

------------------------------------------------------------
-- A Program That Waits
------------------------------------------------------------

namespace ProgramMemory

/-
  A bank with a jump at its second place.  Its other words
  are all the address of that place, as the processor sees
  it, and so are the vectors at its end.
-/
def jumpBank : Array UInt8 :=
  Array.ofFn fun place : Fin 0x4000 =>
    if place.val = 1 then
      0x4C
    else if place.val % 2 = 0 then
      0x01
    else
      0x80

/- A program is repeated over the upper half. -/
theorem read_ofFn
    {size : Nat}
    {bytes : Fin size → UInt8}
    {program : ProgramMemory}
    (hRom : program.rom = Array.ofFn bytes)
    (hSize : 0 < size)
    {address : UInt16}
    (hAddress : Hardware.cartridgeRomStart ≤ address) :
    let place := (address - Hardware.cartridgeRomStart).toNat
    program.read address =
      bytes ⟨place % size, Nat.mod_lt _ hSize⟩ := by
  intro place
  unfold read
  rw [if_pos hAddress]
  unfold romByte
  simp only [hRom, Array.getElem_ofFn, Array.size_ofFn, place]

theorem waitsAt_jumpBank
    {program : ProgramMemory}
    (hRom : program.rom = jumpBank) :
    program.WaitsAt 0x8001 ∧
      program.word Hardware.resetVector = 0x8001 := by
  have hWord
      (address : UInt16)
      (hLow : Hardware.cartridgeRomStart ≤ address)
      (hHigh : Hardware.cartridgeRomStart ≤ address + 1) :=
    congrArg₂ Bits.word (read_ofFn hRom (by decide) hLow)
      (read_ofFn hRom (by decide) hHigh)
  refine ⟨?_, hWord _ (by decide) (by decide)⟩
  exact
    { opcode_inside := by decide
      low_inside := by decide
      high_inside := by decide
      opcode := read_ofFn hRom (by decide) (by decide)
      target := hWord _ (by decide) (by decide)
      vector := hWord _ (by decide) (by decide) }

end ProgramMemory

/- With that bank a console waits from power-on. -/
theorem Console.waiting_jumpBank (settings : Settings) :
    ∃ start,
      powerOn { programRom := ProgramMemory.jumpBank }
          settings = .ok start ∧
        Waiting 0x8001 start := by
  generalize hRom : ProgramMemory.jumpBank = rom
  have hSize : rom.size = 0x4000 := hRom ▸ Array.size_ofFn
  have hCartridge := Cartridge.ofImage_oneBank hSize
  let program : ProgramMemory :=
    ⟨rom, .filled 0 0, Or.inl hSize⟩
  have hSame : program.rom = ProgramMemory.jumpBank :=
    hRom.symm
  rcases powerOn_isOk hCartridge settings with ⟨start, hOn⟩
  rcases ProgramMemory.waitsAt_jumpBank hSame with
    ⟨hWaits, hReset⟩
  exact ⟨start, hOn, waiting_powerOn hOn
    (congrArg (Except.map Cartridge.program) hCartridge)
    hWaits hReset⟩

end Famicom
