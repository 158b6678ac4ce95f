import Famicom.Proofs.Console.FrameLoop
import Famicom.Proofs.Console.Serving

/-
  What a reset forgets.

  Everything of a console is either fixed when it is built,
  or kept by a reset, or forgotten by it.  So consoles that
  agree on what is kept are the same after a reset.

  Key definitions include:
    * `Ppu.SameWiring`
    * `Board.SameBuild`
    * `Console.SameBuild`
    * `Console.Agree`

  Main declarations:
    * `Console.Visited.sameBuild`
    * `Console.Agree.reset_eq`
    * `Console.reset_erases_transients`
-/

namespace Famicom

------------------------------------------------------------
-- Picture Unit
------------------------------------------------------------

namespace Ppu

/-
  Two units have the same timing and the same cartridge.  Its
  patterns can only differ if they are in memory.
-/
structure SameWiring (old new : Ppu) : Prop where
  timing : new.timing = old.timing
  mirroring :
    new.memory.nametables.mirroring =
      old.memory.nametables.mirroring
  writable :
    new.memory.patterns.writable =
      old.memory.patterns.writable
  patterns :
    old.memory.patterns.writable = false →
      new.memory.patterns = old.memory.patterns

namespace SameWiring

theorem of_keeps
    {old new : Ppu}
    (hTiming : new.timing = old.timing)
    (hMemory : new.memory = old.memory) :
    SameWiring old new where
  timing := hTiming
  mirroring := by rw [hMemory]
  writable := by rw [hMemory]
  patterns := fun _ => by rw [hMemory]

theorem trans
    {first second third : Ppu}
    (hFirst : SameWiring first second)
    (hSecond : SameWiring second third) :
    SameWiring first third where
  timing := hSecond.timing.trans hFirst.timing
  mirroring := hSecond.mirroring.trans hFirst.mirroring
  writable := hSecond.writable.trans hFirst.writable
  patterns := fun hFixed =>
    (hSecond.patterns (hFirst.writable.trans hFixed)).trans
      (hFirst.patterns hFixed)

/- Only the bytes of the memory are ever written. -/
theorem writeData
    (ppu : Ppu)
    (value : UInt8) :
    SameWiring ppu (ppu.writeData value) where
  timing := rfl
  mirroring := by
    show (ppu.memory.write _ value).nametables.mirroring = _
    unfold VideoMemory.write
    dsimp only
    split_ifs <;> rfl
  writable := by
    show (ppu.memory.write _ value).patterns.writable = _
    unfold VideoMemory.write PatternMemory.write
    dsimp only
    split_ifs <;> rfl
  patterns := fun hFixed => by
    show (ppu.memory.write _ value).patterns = _
    unfold VideoMemory.write PatternMemory.write
    dsimp only
    rw [hFixed]
    split_ifs <;> first | rfl | contradiction

end SameWiring

theorem sameWiring_stable (ppu : Ppu) :
    AccessStable (SameWiring ppu) where
  read := fun old address hSame => by
    refine hSame.trans ?_
    unfold read
    split <;> exact .of_keeps rfl rfl
  write := fun old address value hSame => by
    have hDriven : SameWiring old (old.driveBus value) :=
      .of_keeps rfl rfl
    refine (hSame.trans hDriven).trans ?_
    unfold write
    dsimp only
    split <;> first
      | exact .of_keeps rfl rfl
      | exact SameWiring.writeData _ value
  writeOam := fun old value hSame =>
    hSame.trans (.of_keeps rfl rfl)

end Ppu

------------------------------------------------------------
-- Board
------------------------------------------------------------

namespace Board

/- Two boards are built alike, around the same cartridge. -/
structure SameBuild (old new : Board) : Prop where
  map : new.map = old.map
  ramSize : new.ram.size = old.ram.size
  rom : new.program.rom = old.program.rom
  wiring : Ppu.SameWiring old.ppu new.ppu

namespace SameBuild

theorem refl (board : Board) : SameBuild board board :=
  ⟨rfl, rfl, rfl, .of_keeps rfl rfl⟩

theorem trans
    {first second third : Board}
    (hFirst : SameBuild first second)
    (hSecond : SameBuild second third) :
    SameBuild first third where
  map := hSecond.map.trans hFirst.map
  ramSize := hSecond.ramSize.trans hFirst.ramSize
  rom := hSecond.rom.trans hFirst.rom
  wiring := hFirst.wiring.trans hSecond.wiring

theorem read
    (board : Board)
    (address : UInt16) :
    SameBuild board (board.read address).2 where
  map := board.read_map address
  ramSize := by rw [read_ram]
  rom := by rw [read_program]
  wiring := read_stable address
    (Ppu.sameWiring_stable board.ppu) (.of_keeps rfl rfl)

theorem write
    (board : Board)
    (address : UInt16)
    (value : UInt8) :
    SameBuild board (board.write address value) where
  map := board.write_map address value
  ramSize := by
    unfold Board.write
    dsimp only
    split <;> first | exact Ram.size_write _ _ _ | rfl
  rom := by
    unfold Board.write ProgramMemory.write
    dsimp only
    split <;> first | rfl | (split <;> rfl)
  wiring := write_stable address value
    (Ppu.sameWiring_stable board.ppu) (.of_keeps rfl rfl)

theorem copyBytesToOam
    (board : Board)
    (address : UInt16)
    (count : Nat) :
    SameBuild board (board.copyBytesToOam address count) := by
  induction count generalizing board address with
  | zero => exact refl board
  | succ count ih =>
      have hCopied :
          SameBuild board (board.copyToOam address) :=
        (read board address).trans
          ⟨rfl, rfl, rfl, .of_keeps rfl rfl⟩
      exact hCopied.trans (ih _ _)

theorem transferOam
    (board : Board)
    (startCycle : Nat) :
    SameBuild board (board.transferOam startCycle).2 := by
  unfold Board.transferOam
  split
  · exact refl board
  next page dma _ =>
    have hTaken :
        SameBuild board { board with dma := dma } :=
      ⟨rfl, rfl, rfl, .of_keeps rfl rfl⟩
    dsimp only
    exact hTaken.trans (copyBytesToOam _ _ _)

/- The stack of such a board is plain memory as well. -/
theorem plain
    {old new : Board}
    (hSame : SameBuild old new)
    (hPlain : stackPage.Plain old) :
    stackPage.Plain new :=
  ⟨hSame.map.trans hPlain.1,
    hPlain.2.trans_eq hSame.ramSize.symm⟩

end SameBuild

/- A request for sprites is only noted down by a board. -/
theorem write_oamDma
    {board : Board}
    (hMap : board.map = Board.standardMap)
    (page : UInt8) :
    board.write Hardware.oamDma page =
      { board with dma := board.dma.request page } := by
  have hPlace :
      board.map.resolve Hardware.oamDma = (.oamDma, 0) := by
    rw [hMap]
    decide +kernel
  unfold Board.write
  rw [hPlace]

/- Whatever the processor does, the board is built the same. -/
theorem within_sameBuild
    {α : Type}
    {inside : UInt16 → Prop}
    {writes : Nat}
    {post : α → Prop}
    {computation : OnBus α}
    (hWithin :
      OnBus.Within inside writes post computation)
    (board : Board) :
    SameBuild board (computation Board board).2 :=
  hWithin.preserves
    (motive := SameBuild board)
    (fun address _ hSame =>
      hSame.trans (.read _ address))
    (fun address value _ hSame =>
      hSame.trans (.write _ address value))
    (.refl board)

end Board

------------------------------------------------------------
-- Console
------------------------------------------------------------

namespace Console

/- Two consoles are built alike and are both switched on. -/
structure SameBuild (old new : Console) : Prop where
  table : new.cpu.table = old.cpu.table
  powered : new.cpu.powered = old.cpu.powered
  board : Board.SameBuild old.board new.board

namespace SameBuild

theorem refl (console : Console) :
    SameBuild console console :=
  ⟨rfl, rfl, .refl _⟩

theorem trans
    {first second third : Console}
    (hFirst : SameBuild first second)
    (hSecond : SameBuild second third) :
    SameBuild first third where
  table := hSecond.table.trans hFirst.table
  powered := hSecond.powered.trans hFirst.powered
  board := hFirst.board.trans hSecond.board

end SameBuild

theorem execute_sameBuild (console : Console) :
    SameBuild console console.execute.2 := by
  have hBoard := Board.within_sameBuild
    (console.cpu.step_within console.lines) console.board
  cases hStep :
      console.cpu.step console.lines console.board with
  | mk result board =>
      rw [hStep] at hBoard
      unfold execute
      rw [hStep]
      cases result with
      | error fault => exact ⟨rfl, rfl, hBoard⟩
      | ok done =>
          rcases Cpu.cpu_of_step
            (congrArg Prod.fst hStep) with ⟨registers, hCpu⟩
          have hMoved := hBoard.trans
            (.transferOam board (console.cycles + done.cycles))
          have hTable :
              done.cpu.table = console.cpu.table := by
            rw [hCpu]
          have hPowered :
              done.cpu.powered = console.cpu.powered := by
            rw [hCpu]
          exact ⟨hTable, hPowered, hMoved⟩

variable {σ : Type} [PixelSink σ]

theorem clock_sameBuild
    (console : Console)
    (cycles : Nat)
    (sink : σ) :
    SameBuild console (console.clock cycles sink).1 := by
  rw [clock_eq]
  have hKeeps := Scan.run_keeps
    (console.owed cycles / console.ratio.cycles)
    (console.scan sink)
  exact ⟨rfl, rfl, rfl, rfl, rfl,
    .of_keeps hKeeps.timing hKeeps.memory⟩

theorem step_sameBuild
    (console : Console)
    (sink : σ) :
    SameBuild console (console.step sink).2.1 := by
  have hExecuted := console.execute_sameBuild
  rw [step_eq]
  generalize console.execute = executed at hExecuted
  rcases executed with ⟨result, executed⟩
  cases result with
  | error fault => exact hExecuted
  | ok cycles =>
      exact hExecuted.trans
        (executed.clock_sameBuild cycles sink)

theorem stepUntilFrame_sameBuild
    (steps : Nat)
    (console : Console)
    (sink : σ) :
    SameBuild console
      (console.stepUntilFrame steps sink).2.1 := by
  induction steps generalizing console sink with
  | zero => exact .refl console
  | succ steps ih =>
      have hStep := console.step_sameBuild sink
      unfold stepUntilFrame
      generalize console.step sink = stepped at hStep
      rcases stepped with ⟨result, next, sink'⟩
      cases result with
      | error fault => exact hStep
      | ok cycles =>
          dsimp only
          split
          · exact hStep.trans
              ⟨rfl, rfl, rfl, rfl, rfl, .of_keeps rfl rfl⟩
          · exact hStep.trans (ih next sink')

/- A reset only changes whether the console is on. -/
theorem reset_sameBuild
    {console : Console}
    (hPowered : console.cpu.powered = true) :
    SameBuild console console.reset := by
  let forgotten : Board :=
    { console.board with
      dma := {}
      ppu := console.board.ppu.reset }
  have hForgotten :
      Board.SameBuild console.board forgotten :=
    ⟨rfl, rfl, rfl, .of_keeps rfl rfl⟩
  have hRestart : SameBuild console console.restart :=
    ⟨rfl, hPowered.symm, hForgotten.trans
      (Board.within_sameBuild console.cpu.reset_within
        forgotten)⟩
  rw [reset_eq]
  exact hRestart.trans (console.restart.clock_sameBuild _ ())

theorem afterAccess_sameBuild
    (console : Console)
    (access : HostAccess) :
    SameBuild console (console.afterAccess access) := by
  cases access with
  | read address => exact ⟨rfl, rfl, .read _ address⟩
  | write address value =>
      exact ⟨rfl, rfl, .write _ address value⟩
  | setLines lines => exact ⟨rfl, rfl, .refl _⟩
  | setRegisters registers => exact ⟨rfl, rfl, .refl _⟩
  | changePads change =>
      exact ⟨rfl, rfl, rfl, rfl, rfl, .of_keeps rfl rfl⟩

/- Whatever a host does, the console is built the same. -/
theorem Visited.sameBuild
    {start console : Console}
    (hVisited : Visited start console)
    (hPowered : start.cpu.powered = true) :
    SameBuild start console := by
  induction hVisited with
  | start => exact .refl start
  | @call σ _ console _ sink call ih =>
      refine ih.trans ?_
      cases call with
      | step => exact console.step_sameBuild sink
      | runFrame =>
          show SameBuild console (console.runFrame sink).2.1
          rw [runFrame_eq]
          exact stepUntilFrame_sameBuild _ console sink
      | reset =>
          exact reset_sameBuild (ih.powered.trans hPowered)
      | access access =>
          exact console.afterAccess_sameBuild access

------------------------------------------------------------
-- Agreement
------------------------------------------------------------

/-
  Two consoles agree on all that a reset keeps: registers,
  memories, pads and the cycles since power-on.  The memories
  are those of the console and those of the cartridge, whose
  patterns count if they are not read-only.
-/
structure Agree (one other : Console) : Prop where
  registers : one.cpu.registers = other.cpu.registers
  ram : one.board.ram = other.board.ram
  oam : one.board.ppu.oam = other.board.ppu.oam
  nametables :
    one.board.ppu.memory.nametables.memory =
      other.board.ppu.memory.nametables.memory
  palette :
    one.board.ppu.memory.palette =
      other.board.ppu.memory.palette
  patterns :
    one.board.ppu.memory.patterns.writable = true →
      one.board.ppu.memory.patterns =
        other.board.ppu.memory.patterns
  cartridge :
    one.board.program.ram = other.board.program.ram
  controllers :
    one.board.controllers = other.board.controllers
  cycles : one.cycles = other.cycles

attribute [ext] Cpu ProgramMemory Nametables VideoMemory

namespace Agree

variable {start one other : Console}

/- The rest of the processor has been built alike. -/
theorem cpu
    (hAgree : Agree one other)
    (hOne : SameBuild start one)
    (hOther : SameBuild start other) :
    one.cpu = other.cpu := by
  apply Cpu.ext
  · exact hOne.table.trans hOther.table.symm
  · exact hAgree.registers
  · exact hOne.powered.trans hOther.powered.symm

theorem program
    (hAgree : Agree one other)
    (hOne : SameBuild start one)
    (hOther : SameBuild start other) :
    one.board.program = other.board.program := by
  apply ProgramMemory.ext
  · exact hOne.board.rom.trans hOther.board.rom.symm
  · exact hAgree.cartridge

/- So has the arrangement of the picture unit's memory. -/
theorem memory
    (hAgree : Agree one other)
    (hOne : SameBuild start one)
    (hOther : SameBuild start other) :
    one.board.ppu.memory = other.board.ppu.memory := by
  have hFirst := hOne.board.wiring
  have hSecond := hOther.board.wiring
  apply VideoMemory.ext
  · cases hWritable :
        start.board.ppu.memory.patterns.writable with
    | true =>
        exact hAgree.patterns
          (hFirst.writable.trans hWritable)
    | false =>
        exact (hFirst.patterns hWritable).trans
          (hSecond.patterns hWritable).symm
  · apply Nametables.ext
    · exact hAgree.nametables
    · exact hFirst.mirroring.trans hSecond.mirroring.symm
  · exact hAgree.palette

/- A reset leaves nothing of what they differ in. -/
theorem restart_eq
    (hAgree : Agree one other)
    (hOne : SameBuild start one)
    (hOther : SameBuild start other) :
    one.restart = other.restart := by
  have hTiming :
      one.board.ppu.timing = other.board.ppu.timing :=
    hOne.board.wiring.timing.trans
      hOther.board.wiring.timing.symm
  have hPpu :
      one.board.ppu.reset = other.board.ppu.reset := by
    unfold Ppu.reset
    rw [hTiming, hAgree.memory hOne hOther, hAgree.oam]
  have hMap := hOne.board.map.trans hOther.board.map.symm
  unfold restart
  dsimp only
  rw [hAgree.cpu hOne hOther, hAgree.program hOne hOther,
    hPpu, hMap, hAgree.ram, hAgree.controllers,
    hAgree.cycles]

theorem reset_eq
    (hAgree : Agree one other)
    (hOne : SameBuild start one)
    (hOther : SameBuild start other) :
    one.reset = other.reset := by
  rw [Console.reset_eq, Console.reset_eq,
    hAgree.restart_eq hOne hOther]

end Agree

------------------------------------------------------------
-- Resets
------------------------------------------------------------

/- A reset keeps the registers but for what it must set. -/
theorem reset_registers
    {console : Console}
    (hPowered : console.cpu.powered = true) :
    let r := console.cpu.registers
    console.reset.cpu.registers =
      { r with
        sp := r.sp - 3
        pc := console.reset.pc
        status :=
          { r.status with interruptDisable := true } } := by
  have hRegisters :
      console.cpu.resetRegisters =
        { console.cpu.registers.putFlag
            .interruptDisable true with
          sp := console.cpu.registers.sp - 3 } := by
    unfold Cpu.resetRegisters
    rw [hPowered]
    rfl
  show { console.cpu.resetRegisters with
    pc := console.reset.pc } = _
  rw [hRegisters]
  rfl

/- It keeps all memories. -/
theorem reset_memories
    {console : Console}
    (hMap : console.board.map = Board.standardMap) :
    let after := console.reset.board
    after.ram = console.board.ram ∧
      after.program = console.board.program ∧
      after.ppu.memory = console.board.ppu.memory ∧
      after.ppu.oam = console.board.ppu.oam := by
  rcases Scan.run_keeps
    (console.restart.owed Hardware.resetCycles /
      console.restart.ratio.cycles)
    (console.restart.scan ()) with ⟨-, hMemory, hOam, -⟩
  rw [Console.reset_eq, clock_eq]
  rw [restart_eq hMap] at hMemory hOam ⊢
  exact ⟨rfl, rfl, hMemory, hOam⟩

/- A console that is switched on has been built as others. -/
theorem powerOn_board
    {image : CartridgeImage}
    {settings : Settings}
    {start : Console}
    (hOn : powerOn image settings = .ok start) :
    start.cpu.powered = true ∧
      start.board.map = Board.standardMap := by
  rcases assembled_of_powerOn hOn with
    ⟨fresh, hAssembled, rfl⟩
  have hMap := (fresh_assembled hAssembled).map
  rw [Console.reset_eq, clock_eq, restart_eq hMap]
  exact ⟨rfl, hMap⟩

/- Its table is the one that the settings ask for. -/
theorem powerOn_table
    {image : CartridgeImage}
    {settings : Settings}
    {start : Console}
    (hOn : powerOn image settings = .ok start) :
    OpcodeTable.atFidelity settings.fidelity =
      .ok start.cpu.table := by
  rcases assembled_of_powerOn hOn with
    ⟨fresh, hAssembled, rfl⟩
  have hFresh := fresh_assembled hAssembled
  rw [(reset_pc hFresh.map).2.2]
  exact hFresh.table

/-
  Consoles with the same image and settings that agree on
  registers, memories, pads and cycles are equal after a
  reset, whatever else they differ in, and so do the same
  from there on: all calls give the same consoles and the
  same pixels.  The reset itself keeps all memories and the
  registers, but for the program counter: it disables
  interrupts and moves the stack pointer down by three.
-/
theorem reset_erases_transients
    {image : CartridgeImage}
    {settings : Settings}
    {start one other : Console}
    (hOn : powerOn image settings = .ok start)
    (hOne : Visited start one)
    (hOther : Visited start other)
    (hAgree : Agree one other) :
    one.reset = other.reset ∧
    (∀ {σ : Type} [PixelSink σ] (sink : σ)
      (calls : List Call),
      performAll (one.reset, sink) calls =
        performAll (other.reset, sink) calls) ∧
    (let r := one.cpu.registers
     let after := one.reset
     after.board.ram = one.board.ram ∧
      after.board.program = one.board.program ∧
      after.board.ppu.memory = one.board.ppu.memory ∧
      after.board.ppu.oam = one.board.ppu.oam ∧
      after.cpu.registers =
        { r with
          sp := r.sp - 3
          pc := after.pc
          status :=
            { r.status with interruptDisable := true } }) := by
  rcases powerOn_board hOn with ⟨hPowered, hMap⟩
  have hFirst := hOne.sameBuild hPowered
  have hSecond := hOther.sameBuild hPowered
  have hSame := hAgree.reset_eq hFirst hSecond
  rcases reset_memories (hFirst.board.map.trans hMap) with
    ⟨hRam, hProgram, hMemory, hOam⟩
  refine ⟨hSame, ?_, hRam, hProgram, hMemory, hOam, ?_⟩
  · intro σ _ sink calls
    rw [hSame]
  · exact reset_registers (hFirst.powered.trans hPowered)

/- Raised lines and requested sprites are forgotten, too. -/
theorem reset_forgets_requests :
    let image : CartridgeImage :=
      { programRom := Array.replicate 0x4000 0xEA }
    ∃ (start other : Console),
      powerOn image {} = .ok start ∧
        Visited start other ∧
        Agree start other ∧
        other.lines = ⟨true, true⟩ ∧
        other.board.dma = start.board.dma.request 0x02 ∧
        start.reset = other.reset := by
  intro image
  rcases
      powerOn_isOk (Cartridge.ofImage_replicate 0xEA) {} with
    ⟨start, hOn⟩
  have hMap := (powerOn_board hOn).2
  let raised : Console :=
    start.afterAccess (.setLines ⟨true, true⟩)
  let other : Console :=
    raised.afterAccess (.write Hardware.oamDma 0x02)
  have hOther : Visited start other :=
    .call (.call .start () (.access (.setLines _))) ()
      (.access (.write _ _))
  have hBoard :
      other.board =
        { start.board with
          dma := start.board.dma.request 0x02 } :=
    Board.write_oamDma hMap 0x02
  have hAgree : Agree start other :=
    { registers := rfl
      ram := by rw [hBoard]
      oam := by rw [hBoard]
      nametables := by rw [hBoard]
      palette := by rw [hBoard]
      patterns := fun _ => by rw [hBoard]
      cartridge := by rw [hBoard]
      controllers := by rw [hBoard]
      cycles := rfl }
  have hDma :
      other.board.dma = start.board.dma.request 0x02 :=
    congrArg Board.dma hBoard
  exact ⟨start, other, hOn, hOther, hAgree, rfl, hDma,
    (reset_erases_transients hOn .start hOther hAgree).1⟩

end Console

end Famicom
