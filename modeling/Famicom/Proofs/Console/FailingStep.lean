import Famicom.Proofs.Console.RaisingWrites
import Famicom.Proofs.Console.Serving
import Famicom.Proofs.Console.Step
import Famicom.Proofs.Video.FrameProgress

/-
  Steps that fail.

  The only step that fails is one that fetches an opcode
  which is never executed.  All it has done by then is that
  fetch, so where reading has no effect the console is as
  before and fails again in the same way.

  Key definitions include:
    * `Board.ReadKeeps`

  Main declarations:
    * `Console.step_eq_error_iff`
    * `Board.read_of_plain`
    * `Console.failing_step_is_atomic`
-/

namespace Famicom

------------------------------------------------------------
-- Board
------------------------------------------------------------

namespace Board

/-
  Two boards agree on all that no read changes: the map, the
  memories, a pending transfer, the position in the frame and
  the two signals of the picture unit.
-/
structure ReadKeeps (old new : Board) : Prop where
  map : new.map = old.map
  ram : new.ram = old.ram
  program : new.program = old.program
  dma : new.dma = old.dma
  raster : new.ppu.raster = old.ppu.raster
  frameReady : new.ppu.frameReady = old.ppu.frameReady
  nmiRequested : new.ppu.nmiRequested = old.ppu.nmiRequested

theorem read_keeps
    (board : Board)
    (address : UInt16) :
    ReadKeeps board (board.read address).2 where
  map := board.read_map address
  ram := board.read_ram address
  program := board.read_program address
  dma := board.read_dma address
  raster := (read_stable address
    (Ppu.accessKeeps_stable board.ppu) (.refl _)).raster
  frameReady := (read_stable address
    (Ppu.keepsFrame_stable board.ppu)
      ⟨rfl, rfl, rfl⟩).frameReady
  nmiRequested := board.read_nmiRequested address

/- Reading memory or the cartridge has no effect at all. -/
theorem read_of_plain
    {board : Board}
    (hMap : board.map = standardMap)
    {address : UInt16}
    (hPlain :
      address.toNat < 0x2000 ∨
        Hardware.cartridgeStart ≤ address) :
    (board.read address).2 = board := by
  rcases hPlain with hMemory | hCartridge
  · unfold read
    rw [hMap, resolve_ram hMemory]
  · rw [read_cartridge hMap hCartridge]

end Board

------------------------------------------------------------
-- Console
------------------------------------------------------------

namespace Console

/- A failing step has read the opcode and done nothing else. -/
theorem step_eq_error_iff
    {σ : Type}
    [PixelSink σ]
    {fidelity : Fidelity}
    {console next : Console}
    {sink sink' : σ}
    {fault : MachineFault}
    (hTable :
      OpcodeTable.atFidelity fidelity =
        .ok console.cpu.table) :
    console.step sink = (.error fault, next, sink') ↔
      console.cpu.Refuses console.lines console.board fault ∧
        next =
          { console with
            board :=
              (console.board.read
                console.cpu.registers.pc).2 } ∧
        sink' = sink := by
  have hCpu (found : MachineFault) (after : Board) :
      console.cpu.step console.lines console.board =
          (.error found, after) ↔
        console.cpu.Refuses console.lines console.board found ∧
          after =
            (console.board.read console.cpu.registers.pc).2 :=
    Cpu.step_eq_error_iff hTable
  rw [step_eq]
  unfold execute
  cases hStep :
      console.cpu.step console.lines console.board with
  | mk result board =>
  cases result with
  | error found =>
      constructor
      · intro hFails
        cases hFails
        rcases (hCpu _ _).mp hStep with ⟨hRefuses, hBoard⟩
        rw [hBoard]
        exact ⟨hRefuses, rfl, rfl⟩
      · rintro ⟨hRefuses, hNext, hSink⟩
        have hFails := (hCpu _ _).mpr ⟨hRefuses, rfl⟩
        cases hStep.symm.trans hFails
        rw [hNext, hSink]
  | ok done =>
      constructor
      · intro hFails
        cases congrArg Prod.fst hFails
      · rintro ⟨hRefuses, -, -⟩
        have hFails := (hCpu _ _).mpr ⟨hRefuses, rfl⟩
        cases congrArg Prod.fst (hStep.symm.trans hFails)

/-
  A step fails exactly if no interrupt is served and the
  fetched opcode is never executed, and the fault names the
  opcode and its address.  On any bus the fetch is the only
  access.  The console keeps its registers, its lines and its
  clock, nothing on the board changes that reading does not
  change, and no pixel is shown.  If the program counter is
  in memory or in the cartridge, nothing changes at all, and
  the next step fails in the same way.
-/
theorem failing_step_is_atomic
    {β σ : Type}
    [AddressBus β]
    [PixelSink σ]
    {fidelity : Fidelity}
    {cpu : Cpu}
    (hTable :
      OpcodeTable.atFidelity fidelity = .ok cpu.table)
    (lines : InterruptLines)
    (bus : β)
    (board : Board)
    (remainder cycles : Nat)
    (sink : σ)
    (fault : MachineFault) :
    let pc := cpu.registers.pc
    let console : Console :=
      ⟨cpu, lines, board, remainder, cycles⟩
    (∀ after, cpu.step lines bus = (.error fault, after) ↔
      cpu.Refuses lines bus fault ∧
        after = (AddressBus.read pc bus).2) ∧
    (∀ recorded,
      cpu.step lines (Recorded.mk bus []) =
          (.error fault, recorded) ↔
        cpu.Refuses lines bus fault ∧
          recorded.bus = (AddressBus.read pc bus).2 ∧
          recorded.accesses =
            [.read pc (AddressBus.read pc bus).1]) ∧
    (∀ next sink',
      console.step sink = (.error fault, next, sink') ↔
        cpu.Refuses lines board fault ∧
          next =
            { console with board := (board.read pc).2 } ∧
          sink' = sink) ∧
    Board.ReadKeeps board (board.read pc).2 ∧
    (board.map = Board.standardMap →
      (pc.toNat < 0x2000 ∨ Hardware.cartridgeStart ≤ pc) →
      (console.step sink).1 = .error fault →
      ∀ other : σ,
        console.step other =
          (.error fault, console, other)) := by
  intro pc console
  refine ⟨fun _ => Cpu.step_eq_error_iff hTable,
    fun _ => Cpu.recorded_step_eq_error_iff hTable,
    fun _ _ => step_eq_error_iff hTable,
    board.read_keeps pc, ?_⟩
  intro hMap hPlain hFails other
  have hStep :
      console.step sink =
        (.error fault, (console.step sink).2) :=
    Prod.ext hFails rfl
  have hRefuses := ((step_eq_error_iff hTable).mp hStep).1
  refine (step_eq_error_iff hTable).mpr ⟨hRefuses, ?_, rfl⟩
  rw [Board.read_of_plain hMap hPlain]

/- A board whose memory is full of an opcode that jams. -/
def jammingBoard : Board where
  map := Board.standardMap
  ram := .filled 0x0800 0x02
  ppu := .powerOn
    (.ofPatterns ⟨.replicate _ 0, true⟩ .horizontal)
    VideoStandard.ntsc.timing
  controllers := {}
  dma := {}
  program :=
    { rom := Array.replicate 0x4000 0
      ram := .filled 0 0
      rom_size := Or.inl Array.size_replicate }

/- Steps jam at the start of this memory, over and over. -/
theorem step_jams_on_jammingBoard :
    ∃ cpu : Cpu,
      let console : Console := ⟨cpu, {}, jammingBoard, 0, 0⟩
      OpcodeTable.atFidelity .strict = .ok cpu.table ∧
        cpu.registers.pc = 0 ∧
        console.step () =
          (.error (.jammed 0x02 0x0000), console, ()) := by
  rcases OpcodeTable.atFidelity_isOk .strict with
    ⟨table, hTable⟩
  have hJams :
      (Opcodes.atFidelity .strict).all (fun i =>
        i.opcode != 0x02 || i.operation == .jam) = true := by
    decide +kernel
  have hJam : (table.lookup 0x02).operation = .jam := by
    rcases OpcodeTable.lookup_spec hTable 0x02 with
      ⟨hMember, hOpcode⟩
    simpa [hOpcode] using List.all_eq_true.mp hJams _ hMember
  have hFetch : (jammingBoard.read 0).1 = 0x02 := by
    decide +kernel
  let cpu : Cpu := ⟨table, .blank, true⟩
  have hHere :
      OpcodeTable.atFidelity .strict = .ok cpu.table :=
    hTable
  have hRefuses :
      cpu.Refuses {} jammingBoard (.jammed 0x02 0x0000) := by
    refine ⟨rfl, fun hLevel => Bool.false_ne_true hLevel.1, ?_⟩
    left
    show (table.lookup (jammingBoard.read 0).1).operation =
        .jam ∧
      MachineFault.jammed 0x02 0x0000 =
        .jammed (jammingBoard.read 0).1 0x0000
    rw [hFetch]
    exact ⟨hJam, rfl⟩
  have hAtomic := failing_step_is_atomic hHere {}
    jammingBoard jammingBoard 0 0 () (.jammed 0x02 0x0000)
  have hFails :=
    (hAtomic.2.2.1 _ ()).mpr ⟨hRefuses, rfl, rfl⟩
  have hMemory : Registers.blank.pc.toNat < 0x2000 := by
    decide
  exact ⟨cpu, hHere, rfl,
    hAtomic.2.2.2.2 rfl (.inl hMemory)
      (congrArg Prod.fst hFails) ()⟩

end Console

end Famicom
