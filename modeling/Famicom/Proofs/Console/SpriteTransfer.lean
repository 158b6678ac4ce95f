import Famicom.Proofs.Console.MemoryMap
import Famicom.Proofs.Console.SpritePages

/-
  Steps that fill the sprite memory.

  A step that requests a page executes an instruction, which
  changes nothing else on the board.  Then the page is copied,
  the processor is halted for as long, and the dots that pass
  meanwhile leave alone what has been copied.

  Key definitions include:
    * `Console.processorTraffic`
    * `Console.stepUntransferred`

  Main declarations:
    * `Console.step_of_requested`
    * `Console.step_of_none`
    * `Console.transferred_of_requested`
-/

namespace Famicom

namespace Console

variable {console : Console}

/- What goes over the bus while the processor takes a step. -/
def processorTraffic
    (console : Console) : List BusAccess :=
  (console.cpu.step console.lines
    ({ bus := console.board } : Recorded Board)).2.accesses

/-
  An instruction that requests a page succeeds and does
  nothing else to the board.
-/
theorem step_of_requested
    (hMap : console.board.map = Board.standardMap)
    {page : UInt8}
    (hRequested :
      lastLeft? BusAccess.requests?
        console.processorTraffic = some page) :
    ∃ done left,
      console.cpu.step console.lines console.board =
          (.ok done, left) ∧
        left.dma.page = some page ∧
        Board.SameMemory console.board left ∧
        Ppu.SameSprites console.board.ppu left.ppu := by
  have hWithin := console.cpu.step_within console.lines
  have hPage := Board.page_of_within hWithin hMap
  have hKept := Board.kept_of_within hWithin hMap
  rcases List.exists_of_findSome?_eq_some hRequested with
    ⟨access, hAccess, hHere⟩
  rw [List.mem_reverse,
    BusAccess.requests?_eq_some_iff.mp hHere] at hAccess
  have hOutside : ¬Registers.OnStack Hardware.oamDma := by
    unfold Registers.OnStack
    decide
  rcases Cpu.step_of_stored hAccess hOutside with
    ⟨done, recorded, hStep, hWrites⟩
  have hSame := hWithin.recorded console.board
  unfold processorTraffic at hRequested
  rw [hStep] at hSame hRequested hPage hKept
  dsimp only at hSame hRequested hPage hKept
  rcases hKept hWrites with ⟨hMemory, hSprites⟩
  rw [hRequested, Option.some_or] at hPage
  exact ⟨done, recorded.bus, hSame, hPage, hMemory, hSprites⟩

section Steps

variable {σ : Type} [PixelSink σ]

/- A step of the console that transfers nothing. -/
def stepUntransferred
    (console : Console)
    (sink : σ) :
    Except MachineFault Nat × Console × σ :=
  match console.cpu.step console.lines console.board with
  | (.error fault, board) =>
      (.error fault, { console with board := board }, sink)
  | (.ok done, board) =>
      let executed : Console :=
        { console with
          cpu := done.cpu
          lines := done.lines
          board := board }
      (.ok done.cycles, executed.clock done.cycles sink)

/- Without a request that is all there is to a step. -/
theorem step_of_none
    (hMap : console.board.map = Board.standardMap)
    (hPage : console.board.dma.page = none)
    (hNone :
      lastLeft? BusAccess.requests?
        console.processorTraffic = none)
    (sink : σ) :
    console.step sink = console.stepUntransferred sink := by
  have hWithin := console.cpu.step_within console.lines
  have hAfter := Board.page_of_within hWithin hMap
  have hSame := hWithin.recorded console.board
  unfold processorTraffic at hNone
  unfold step stepUntransferred
  dsimp only at hSame hAfter ⊢
  rw [hNone, hPage, Option.none_or] at hAfter
  rw [hSame]
  generalize console.cpu.step console.lines
    ({ bus := console.board } : Recorded Board) = stepped
    at hAfter ⊢
  rcases stepped with ⟨result, recorded⟩
  cases result with
  | error fault => rfl
  | ok done =>
      dsimp only at hAfter ⊢
      rw [Board.transferOam_of_none hAfter]
      rfl

/-
  Whatever a host and the program have done before:

  An instruction that requests a page of memory or of the
  cartridge does nothing else to the board.  The page is then
  transferred as the instruction has left it, which takes 513
  cycles, and one more if the instruction has ended on an odd
  cycle.  So the step ends on an odd cycle.  The request is
  gone, and a step that follows without another one transfers
  nothing.
-/
theorem transferred_of_requested
    {image : CartridgeImage}
    {settings : Settings}
    {start console : Console}
    {page : UInt8}
    (hOn : powerOn image settings = .ok start)
    (hVisited : Visited start console)
    (hPage : page.toNat < 0x20 ∨ 0x41 ≤ page.toNat)
    (hRequested :
      lastLeft? BusAccess.requests?
        console.processorTraffic = some page)
    (sink : σ) :
    ∃ done left next sink',
      console.cpu.step console.lines console.board =
          (.ok done, left) ∧
        Board.SameMemory console.board left ∧
        Ppu.SameSprites console.board.ppu left.ppu ∧
        (let ended := console.cycles + done.cycles
         let cycles := done.cycles + 513 + ended % 2
         console.step sink = (.ok cycles, next, sink') ∧
          next.cycles = console.cycles + cycles ∧
          next.cycles % 2 = 1) ∧
        Board.Transferred page left next.board ∧
        (lastLeft? BusAccess.requests?
            next.processorTraffic = none →
          ∀ {τ : Type} [PixelSink τ] (later : τ),
            next.step later = next.stepUntransferred later) := by
  rcases powerOn_board hOn with ⟨hPowered, hStart⟩
  have hMap : console.board.map = Board.standardMap :=
    (hVisited.sameBuild hPowered).board.map.trans hStart
  rcases step_of_requested hMap hRequested with
    ⟨done, left, hStep, hPending, hMemory, hSprites⟩
  have hLeft := hMemory.map.trans hMap
  let ended := console.cycles + done.cycles
  rcases Board.transferOam_transferred hLeft hPage hPending
    ended with ⟨hHalted, hDone⟩
  let executed : Console :=
    { console with
      cpu := done.cpu
      lines := done.lines
      board := (left.transferOam ended).2 }
  let cycles := done.cycles + 513 + ended % 2
  have hExecute : console.execute = (.ok cycles, executed) := by
    unfold execute
    rw [hStep]
    dsimp only
    rw [hHalted, ← Nat.add_assoc]
  let clocked := executed.clock cycles sink
  have hStepped :
      console.step sink = (.ok cycles, clocked.1, clocked.2) := by
    rw [step_eq, hExecute]
  have hDots := Scan.run_keeps
    (executed.owed cycles / executed.ratio.cycles)
    (executed.scan sink)
  have hAfter :
      Board.Transferred page left clocked.1.board := by
    show Board.Transferred page left
      (executed.clock cycles sink).1.board
    rw [clock_eq]
    exact hDone.congr ⟨rfl, rfl, rfl⟩
      ⟨hDots.oam, hDots.oamAddress⟩ rfl
  refine ⟨done, left, clocked.1, clocked.2, hStep, hMemory,
    hSprites, ⟨hStepped, rfl, ?_⟩, hAfter, ?_⟩
  · show (console.cycles + cycles) % 2 = 1
    dsimp only [cycles, ended]
    omega
  · intro hNone τ _ later
    have hNext := hAfter.memory.map.trans hLeft
    exact step_of_none hNext hAfter.latch hNone later

end Steps

/- A store to a fixed address reads it and writes there. -/
theorem traffic_of_store
    {opcode : UInt8}
    {op : StoreOp}
    (hFetches :
      console.cpu.Fetches console.lines console.board opcode)
    (hOperation :
      (console.cpu.table.lookup opcode).operation = .store op)
    (hMode :
      (console.cpu.table.lookup opcode).mode = .absolute) :
    let r := console.cpu.registers
    ∃ low high,
      console.processorTraffic =
        [.read r.pc opcode, .read (r.behind 1) low,
          .read (r.behind 2) high,
          .write (Bits.word low high) (op.value r)] := by
  intro r
  have hExecuted :
      (console.cpu.table.lookup opcode).isNeverExecuted =
        false := by
    unfold Instruction.isNeverExecuted
    rw [hOperation]
    rfl
  rcases Cpu.step_addresses hFetches hExecuted with
    ⟨executed, recorded, behind, hStep, hSeen, hAddresses⟩
  unfold Instruction.Addresses at hAddresses
  rw [hOperation, hMode] at hAddresses
  rcases hAddresses with ⟨address, lookups, hLocates, rfl⟩
  cases hLocates with
  | adjacent hNone => cases hNone
  | absolute low high =>
      refine ⟨low, high, ?_⟩
      unfold processorTraffic
      rw [hStep, ← Bits.ofNat_word]
      exact hSeen

end Console

/- The address of the sprites is a register of the unit. -/
theorem Board.write_oamAddress
    {board : Board}
    (hMap : board.map = Board.standardMap)
    (place : UInt8) :
    (board.write Hardware.oamAddress place
      ).ppu.registers.oamAddress = place := by
  have hPlace :
      board.map.resolve Hardware.oamAddress = (.ppu, 3) := by
    rw [hMap]
    decide +kernel
  rw [write_ppu, hPlace]
  rfl

namespace Console

/-
  The instruction in memory stores $02 to the latch, and the
  sprites start at the last but one place.  So the fifth byte
  of page two is the attributes of the first sprite.
-/
theorem page_two_transferred :
    let image : CartridgeImage :=
      { programRom := Array.replicate 0x4000 0xEA }
    ∃ (start ready next : Console) (cycles : Nat),
      powerOn image {} = .ok start ∧
        Visited start ready ∧
        lastLeft? BusAccess.requests?
          ready.processorTraffic = some 0x02 ∧
        ready.step () = (.ok cycles, next, ()) ∧
        next.board.ppu.oam.read 0x0002 = 0xE3 := by
  intro image
  rcases powerOn_isOk (Cartridge.ofImage_replicate 0xEA) {}
    with ⟨start, hOn⟩
  rcases powerOn_board hOn with ⟨hPowered, hMap⟩
  let r : Registers :=
    { start.cpu.registers with pc := 0x0000, a := 0x02 }
  let ready :=
    [HostAccess.write 0x0000 0x8D, .write 0x0001 0x14,
      .write 0x0002 0x40, .write 0x0204 0xFF,
      .write 0x2003 0xFE, .setRegisters r,
      .setLines {}].foldl afterAccess start
  have hVisited : Visited start ready :=
    Visited.start.accesses _
  let past : List BusAccess :=
    [.write 0x0000 0x8D, .write 0x0001 0x14,
      .write 0x0002 0x40, .write 0x0204 0xFF,
      .write 0x2003 0xFE]
  have hSize : start.board.ram.size = 0x0800 := by
    rw [(memories_of_powerOn hOn).1, Ram.size_filled]
  have hStored :=
    ((((Board.Carried.refl hMap hSize).write 0x0000 0x8D
      ).write 0x0001 0x14).write 0x0002 0x40
      ).write 0x0204 0xFF
  have hCarried :
      Board.Carried start.board past ready.board :=
    hStored.write 0x2003 0xFE
  have hOpcode : (ready.board.read 0x0000).1 = 0x8D :=
    hCarried.read_last (by decide)
  have hFetches :
      ready.cpu.Fetches ready.lines ready.board 0x8D :=
    ⟨rfl, hOpcode⟩
  let sta : Instruction :=
    { opcode := 0x8D, name := "STA", operation := .store .sta
      mode := .absolute, cycles := 4 }
  have hEntry : ready.cpu.table.lookup 0x8D = sta :=
    OpcodeTable.lookup_of_documented (powerOn_table hOn)
      (i := sta) (by decide +kernel)
  rcases traffic_of_store hFetches
      (congrArg Instruction.operation hEntry)
      (congrArg Instruction.mode hEntry) with
    ⟨low, high, hExecuted⟩
  have hTraffic :
      ready.processorTraffic =
        [.read 0x0000 0x8D, .read 0x0001 low,
          .read 0x0002 high, .write (Bits.word low high) 0x02] :=
    hExecuted
  have hWithin := ready.cpu.step_within ready.lines
  have hLow : low = 0x14 :=
    hCarried.answer hWithin [.read 0x0000 0x8D] hTraffic
      (by decide)
  have hHigh : high = 0x40 :=
    hCarried.answer hWithin
      [.read 0x0000 0x8D, .read 0x0001 low] hTraffic
      (by decide)
  have hRequested :
      lastLeft? BusAccess.requests? ready.processorTraffic =
        some 0x02 := by
    rw [hTraffic, hLow, hHigh]
    decide +kernel
  rcases transferred_of_requested hOn hVisited
      (by decide) hRequested () with
    ⟨done, left, next, sink, -, hMemory, hSprites,
      ⟨hStep, -⟩, hDone, -⟩
  refine ⟨start, ready, next, _, hOn, hVisited, hRequested,
    hStep, ?_⟩
  have hAddress :
      left.ppu.registers.oamAddress = 0xFE := by
    rw [hSprites.oamAddress]
    exact Board.write_oamAddress hStored.map 0xFE
  have hByte : (left.read 0x0204).1 = 0xFF := by
    rw [hMemory.read_eq hCarried.map (.inl (by decide))]
    exact hCarried.read_last (by decide)
  have hPlace := hDone.sprites 4 (by decide)
  rw [hAddress] at hPlace
  refine hPlace.trans ?_
  show (left.read 0x0204).1 &&& 0xE3 = 0xE3
  rw [hByte]
  rfl

end Console

end Famicom
