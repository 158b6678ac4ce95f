import Famicom.Proofs.Console.MemoryTraffic

/-
  The processor's view of memory over whole runs.

  Everything that reaches the board's bus in a call is listed:
  the accesses of instructions and interrupt sequences, the
  reads of transfers and resets, and those of the host.  All
  other things that happen, such as dots, leave the memory and
  the program alone.

  Key definitions include:
    * `Board.transferTraffic`
    * `Console.stepTraffic`
    * `Console.frameTraffic`
    * `Console.callTraffic`
    * `Console.traffic`

  Main declarations:
    * `Console.carried_execute`
    * `Console.carried_perform`
    * `Console.carried_performAll`
    * `Console.memories_of_powerOn`
-/

namespace Famicom

------------------------------------------------------------
-- Transfers
------------------------------------------------------------

namespace Board

/- The reads of a copy of bytes into sprite memory. -/
def copyTraffic
    (board : Board)
    (address : UInt16) : Nat → List BusAccess
  | 0 => []
  | count + 1 =>
      .read address (board.read address).1 ::
        copyTraffic (board.copyToOam address) (address + 1)
          count

/- The reads of the pending transfer, if there is one. -/
def transferTraffic (board : Board) : List BusAccess :=
  match board.dma.take with
  | (none, _) => []
  | (some page, dma) =>
      let taken := { board with dma := dma }
      taken.copyTraffic (Bits.word 0 page) 256

namespace Carried

variable {start now : Board}
variable {traffic : List BusAccess}

theorem copyToOam
    (hCarried : Carried start traffic now)
    (address : UInt16) :
    Carried start
      (traffic ++ [.read address (now.read address).1])
      (now.copyToOam address) :=
  (hCarried.read address).congr rfl rfl rfl

theorem copyBytesToOam
    (hCarried : Carried start traffic now)
    (address : UInt16)
    (count : Nat) :
    Carried start
      (traffic ++ now.copyTraffic address count)
      (now.copyBytesToOam address count) := by
  induction count generalizing now traffic address with
  | zero =>
      show Carried start (traffic ++ []) now
      rw [List.append_nil]
      exact hCarried
  | succ count ih =>
      have hRest := ih (hCarried.copyToOam address)
        (address + 1)
      rw [List.append_assoc] at hRest
      exact hRest

theorem transferOam
    (hCarried : Carried start traffic now)
    (startCycle : Nat) :
    Carried start
      (traffic ++ now.transferTraffic)
      (now.transferOam startCycle).2 := by
  unfold transferTraffic Board.transferOam
  rcases now.dma.take with ⟨requested, dma⟩
  cases requested with
  | none =>
      rw [List.append_nil]
      exact hCarried
  | some page =>
      have hTaken : Carried start traffic
          { now with dma := dma } :=
        hCarried.congr rfl rfl rfl
      dsimp only
      exact hTaken.copyBytesToOam (Bits.word 0 page) 256

end Carried

end Board

------------------------------------------------------------
-- Calls
------------------------------------------------------------

namespace Console

/- The accesses of a step, in order. -/
def stepTraffic (console : Console) : List BusAccess :=
  let recorded : Recorded Board := { bus := console.board }
  match console.cpu.step console.lines recorded with
  | (.error _, recorded) => recorded.accesses
  | (.ok _, recorded) =>
      recorded.accesses ++ recorded.bus.transferTraffic

/- The accesses of a reset. -/
def resetTraffic (console : Console) : List BusAccess :=
  let board :=
    { console.board with
      dma := {}
      ppu := console.board.ppu.reset }
  let recorded : Recorded Board := { bus := board }
  (console.cpu.reset recorded).2.accesses

/- The accesses of a host. -/
def accessTraffic
    (console : Console) : HostAccess → List BusAccess
  | .read address => [.read address (console.read address).1]
  | .write address value => [.write address value]
  | .setLines _ => []
  | .setRegisters _ => []
  | .changePads _ => []

section Calls

variable {σ : Type} [PixelSink σ]

/- The accesses of the steps until a frame is completed. -/
def frameTraffic : Nat → Console → σ → List BusAccess
  | 0, _, _ => []
  | steps + 1, console, sink =>
      console.stepTraffic ++
        match console.step sink with
        | (.error _, _, _) => []
        | (.ok _, next, sink) =>
            if next.frameReady then
              []
            else
              frameTraffic steps next sink

/- The accesses of one call. -/
def callTraffic
    (state : Console × σ) : Call → List BusAccess
  | .step => state.1.stepTraffic
  | .runFrame =>
      frameTraffic state.1.frameSteps state.1 state.2
  | .reset => state.1.resetTraffic
  | .access access => state.1.accessTraffic access

/- The accesses of a number of calls. -/
def traffic
    (state : Console × σ) : List Call → List BusAccess
  | [] => []
  | call :: calls =>
      callTraffic state call ++
        traffic (perform state call) calls

------------------------------------------------------------
-- Runs
------------------------------------------------------------

variable {start : Board}
variable {past : List BusAccess}
variable {console : Console}

theorem carried_clock
    (hCarried : Board.Carried start past console.board)
    (cycles : Nat)
    (sink : σ) :
    Board.Carried start past
      (console.clock cycles sink).1.board := by
  rw [clock_eq]
  exact hCarried.congr rfl rfl rfl

theorem carried_execute
    (hCarried : Board.Carried start past console.board) :
    Board.Carried start
      (past ++ console.stepTraffic)
      console.execute.2.board := by
  have hStep := hCarried.computation
    (console.cpu.step_within console.lines)
  rcases hStep with ⟨hSame, hRecorded⟩
  unfold execute stepTraffic
  rw [hSame]
  dsimp only
  generalize console.cpu.step console.lines
    ({ bus := console.board } : Recorded Board) = stepped
    at hRecorded ⊢
  rcases stepped with ⟨result, recorded⟩
  cases result with
  | error fault => exact hRecorded
  | ok done =>
      have hMoved := hRecorded.transferOam
        (console.cycles + done.cycles)
      rw [List.append_assoc] at hMoved
      exact hMoved

theorem carried_step
    (hCarried : Board.Carried start past console.board)
    (sink : σ) :
    Board.Carried start
      (past ++ console.stepTraffic)
      (console.step sink).2.1.board := by
  have hExecuted := carried_execute hCarried
  rw [step_eq]
  generalize console.execute = executed at hExecuted ⊢
  rcases executed with ⟨result, executed⟩
  cases result with
  | error fault => exact hExecuted
  | ok cycles => exact carried_clock hExecuted cycles sink

theorem carried_stepUntilFrame
    (hCarried : Board.Carried start past console.board)
    (steps : Nat)
    (sink : σ) :
    Board.Carried start
      (past ++ frameTraffic steps console sink)
      (stepUntilFrame steps console sink).2.1.board := by
  induction steps generalizing console past sink with
  | zero =>
      show Board.Carried start (past ++ []) console.board
      rw [List.append_nil]
      exact hCarried
  | succ steps ih =>
      -- The loop and its traffic end after the same step.
      have hStep := carried_step hCarried sink
      unfold stepUntilFrame frameTraffic
      rw [← List.append_assoc]
      generalize console.step sink = stepped at hStep ⊢
      rcases stepped with ⟨result, next, sink⟩
      cases result with
      | error fault =>
          rw [List.append_nil]
          exact hStep
      | ok cycles =>
          dsimp only
          split
          · rw [List.append_nil]
            exact hStep.congr rfl rfl rfl
          · exact ih hStep sink

theorem carried_runFrame
    (hCarried : Board.Carried start past console.board)
    (sink : σ) :
    Board.Carried start
      (past ++ frameTraffic console.frameSteps console sink)
      (console.runFrame sink).2.1.board := by
  have hFrame := carried_stepUntilFrame hCarried
    console.frameSteps sink
  unfold runFrame
  dsimp only
  generalize stepUntilFrame console.frameSteps console sink =
    ran at hFrame ⊢
  rcases ran with ⟨result, next, sink⟩
  cases result <;> exact hFrame

theorem carried_reset
    (hCarried : Board.Carried start past console.board) :
    Board.Carried start
      (past ++ console.resetTraffic)
      console.reset.board := by
  have hCleared : Board.Carried start past
      { console.board with
        dma := {}
        ppu := console.board.ppu.reset } :=
    hCarried.congr rfl rfl rfl
  rcases hCleared.computation console.cpu.reset_within with
    ⟨hSame, hRecorded⟩
  rw [reset_eq]
  refine carried_clock ?_ _ _
  unfold restart
  dsimp only
  rw [hSame]
  exact hRecorded

theorem carried_access
    (hCarried : Board.Carried start past console.board)
    (access : HostAccess) :
    Board.Carried start
      (past ++ console.accessTraffic access)
      (console.afterAccess access).board := by
  cases access with
  | read address => exact hCarried.read address
  | write address value => exact hCarried.write address value
  | setLines lines =>
      exact (List.append_nil past).symm ▸ hCarried
  | setRegisters registers =>
      exact (List.append_nil past).symm ▸ hCarried
  | changePads change =>
      rw [accessTraffic, List.append_nil]
      exact hCarried.congr rfl rfl rfl

/- A call causes its traffic and leaves the rest alone. -/
theorem carried_perform
    {state : Console × σ}
    (hCarried : Board.Carried start past state.1.board)
    (call : Call) :
    Board.Carried start
      (past ++ callTraffic state call)
      (perform state call).1.board := by
  cases call with
  | step => exact carried_step hCarried state.2
  | runFrame => exact carried_runFrame hCarried state.2
  | reset => exact carried_reset hCarried
  | access access => exact carried_access hCarried access

theorem carried_performAll
    {state : Console × σ}
    (hCarried : Board.Carried start past state.1.board)
    (calls : List Call) :
    Board.Carried start
      (past ++ traffic state calls)
      (performAll state calls).1.board := by
  induction calls generalizing state past with
  | nil =>
      show Board.Carried start (past ++ []) state.1.board
      rw [List.append_nil]
      exact hCarried
  | cons call calls ih =>
      have hRest := ih (carried_perform hCarried call)
      rw [List.append_assoc] at hRest
      exact hRest

end Calls

------------------------------------------------------------
-- Power-On
------------------------------------------------------------

/- The first reset leaves both memories as they are. -/
theorem memories_of_powerOn
    {image : CartridgeImage}
    {settings : Settings}
    {start : Console}
    (hOn : powerOn image settings = .ok start) :
    start.board.ram = .filled 0x0800 settings.ram.value ∧
      start.board.program.rom = image.programRom := by
  rcases assembled_of_powerOn hOn with
    ⟨fresh, hAssembled, rfl⟩
  rcases reset_memories (fresh_assembled hAssembled).map with
    ⟨hRam, hProgram, -, -⟩
  rw [hRam, hProgram]
  exact assembled_memories hAssembled

/-
  Once a console is switched on, whatever a host calls and
  whatever the program does:

  The memory changes by the writes below 0x2000 alone.  At any
  time an address below 0x2000 reads as the last byte that was
  written there, up to multiples of 2 kB, or else as memory
  was filled at power-on.  The upper half of the address space
  reads the program of the image.  Both are true of all that
  has been read so far as well.  The addresses from 0x2000 to
  0x3FFF read and write as the first eight of them do,
  whatever state the rest of the board is in.
-/
theorem memory_and_program_follow_traffic
    {σ : Type}
    [PixelSink σ]
    {image : CartridgeImage}
    {settings : Settings}
    {start : Console}
    (hOn : powerOn image settings = .ok start)
    (sink : σ)
    (calls : List Call) :
    let now := (performAll (start, sink) calls).1
    let past := traffic (start, sink) calls
    let fill := settings.ram.value
    let rom := image.programRom
    now.board.ram = (Ram.filled 0x0800 fill).replay past ∧
    (∀ address : UInt16, address.toNat < 0x2000 →
      now.read address =
        ((lastLeft? (BusAccess.leaves? address) past).getD
          fill, now)) ∧
    (∀ address : UInt16, 0x8000 ≤ address.toNat →
      rom[(address.toNat - 0x8000) % rom.size]? =
        some (now.read address).1) ∧
    (∀ before address value behind,
      past = before ++ .read address value :: behind →
        (address.toNat < 0x2000 →
          value =
            (lastLeft? (BusAccess.leaves? address)
              before).getD fill) ∧
        (0x8000 ≤ address.toNat →
          rom[(address.toNat - 0x8000) % rom.size]? =
            some value)) ∧
    ∀ address : UInt16,
      0x2000 ≤ address.toNat → address.toNat < 0x4000 →
      ∀ board : Board, board.map = now.board.map →
        board.read address =
            board.read (0x2000 + address % 8) ∧
          ∀ value,
            board.write address value =
              board.write (0x2000 + address % 8) value := by
  intro now past fill rom
  rcases memories_of_powerOn hOn with ⟨hFilled, hRom⟩
  have hSize : start.board.ram.size = 0x0800 := by
    rw [hFilled, Ram.size_filled]
  have hStart :
      Board.Carried start.board [] (start, sink).1.board :=
    .refl (powerOn_board hOn).2 hSize
  have hCarried :
      Board.Carried start.board past now.board :=
    carried_performAll hStart calls
  have hReplayed
      (some : List BusAccess)
      (address : UInt16) :
      (start.board.ram.replay some).read address =
        (lastLeft? (BusAccess.leaves? address) some).getD
          fill := by
    rw [(Ram.read_replay hSize some address).2, hFilled,
      Ram.read_filled (by decide)]
  refine ⟨?_, ?_, ?_, ?_, ?_⟩
  · rw [hCarried.ram, hFilled]
  · intro address hAddress
    unfold Console.read
    rw [Board.read_memory hCarried.map hCarried.ramSize
      hAddress, hCarried.ram, hReplayed]
  · intro address hUpper
    have hHere := Board.read_upper hCarried.map hUpper
    rw [hCarried.rom, hRom] at hHere
    exact hHere
  · intro before address value behind hPast
    have hRead :=
      hCarried.reads before address value behind hPast
    rw [hReplayed, hRom] at hRead
    exact hRead
  · intro address hFirst hLast board hBoard
    have hStandard := hBoard.trans hCarried.map
    exact ⟨Board.read_mirrored hStandard hFirst hLast,
      Board.write_mirrored hStandard hFirst hLast⟩

/-
  After a frame of any length, a byte that the host writes
  outlives a reset and is read a few mirrors further on.
-/
theorem memory_outlives_reset :
    let image : CartridgeImage :=
      { programRom := Array.replicate 0x4000 0xEA }
    ∃ start,
      powerOn image {} = .ok start ∧
        let now :=
          (performAll (start, ())
            [.runFrame, .access (.write 0x0805 0x42),
              .reset]).1
        now.read 0x1005 = (0x42, now) ∧
          (now.read 0xC123).1 = 0xEA ∧
          now.board.read 0x3FFA = now.board.read 0x2002 := by
  intro image
  rcases powerOn_isOk (Cartridge.ofImage_replicate 0xEA) {}
    with ⟨start, hOn⟩
  rcases memory_and_program_follow_traffic hOn ()
    [.runFrame, .access (.write 0x0805 0x42), .reset] with
    ⟨-, hMemory, hProgram, -, hMirrored⟩
  refine ⟨start, hOn, ?_, ?_, ?_⟩
  · rw [hMemory 0x1005 (by decide)]
    refine congrArg (Prod.mk · _) ?_
    unfold lastLeft? traffic traffic traffic traffic
    rw [List.reverse_append, List.findSome?_append]
    rfl
  · have hByte := hProgram 0xC123 (by decide)
    simpa using hByte.symm
  · exact (hMirrored 0x3FFA (by decide) (by decide) _ rfl).1

end Console

end Famicom
