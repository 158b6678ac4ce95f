import Famicom.Proofs.Cartridge.Accepted
import Famicom.Proofs.Console.Step
import Famicom.Proofs.Cpu.DecodingTable

/-
  The console at power-on.

  Every image that makes a cartridge makes a console, and all
  consoles start alike: nothing is pending, and the picture
  unit is at the start of its first frame.

  Key definitions include:
    * `Console.assembled`
    * `Console.Fresh`

  Main declarations:
    * `Console.powerOn_eq`
    * `Console.parts_of_assembled`
    * `Console.fresh_assembled`
    * `Console.assembled_memories`
    * `Console.powerOn_isOk`
-/

namespace Famicom

/- The program of that cartridge has one byte everywhere. -/
theorem ProgramMemory.read_replicate
    {value : UInt8}
    {program : ProgramMemory}
    (hProgram :
      (Cartridge.ofImage
        { programRom := Array.replicate 0x4000 value }).map
          Cartridge.program = .ok program)
    {address : UInt16}
    (hAddress : Hardware.cartridgeRomStart ≤ address) :
    program.read address = value := by
  rw [Cartridge.ofImage_replicate] at hProgram
  cases hProgram
  unfold read
  rw [if_pos hAddress]
  unfold romByte
  exact Array.getElem_replicate ..

namespace Console

/- A console with a cartridge, before its first reset. -/
def assembled
    (image : CartridgeImage)
    (settings : Settings) :
    Except MachineFault Console := do
  let cartridge ← Cartridge.ofImage image
  let board ←
    (Board.powerOn cartridge settings.standard.timing
      settings.ram).mapError .addressMap
  let cpu ← Cpu.ofFidelity settings.fidelity
  return ⟨cpu, {}, board, 0, 0⟩

/- Power-on ends with a reset. -/
theorem powerOn_eq
    (image : CartridgeImage)
    (settings : Settings) :
    powerOn image settings =
      (assembled image settings).map reset := by
  unfold powerOn assembled
  cases Cartridge.ofImage image with
  | error fault => rfl
  | ok cartridge =>
      cases Cpu.ofFidelity settings.fidelity with
      | error fault => rfl
      | ok cpu => rfl

theorem assembled_of_powerOn
    {image : CartridgeImage}
    {settings : Settings}
    {start : Console}
    (hOn : powerOn image settings = .ok start) :
    ∃ fresh,
      assembled image settings = .ok fresh ∧
        fresh.reset = start := by
  rw [powerOn_eq] at hOn
  cases hAssembled : assembled image settings with
  | error fault =>
      rw [hAssembled] at hOn
      cases hOn
  | ok fresh =>
      rw [hAssembled] at hOn
      exact ⟨fresh, rfl, Except.ok.inj hOn⟩

/- What a console is made of before the first reset. -/
structure Fresh
    (image : CartridgeImage)
    (settings : Settings)
    (console : Console) : Prop where
  map : console.board.map = Board.standardMap
  program :
    (Cartridge.ofImage image).map Cartridge.program =
      .ok console.board.program
  table :
    OpcodeTable.atFidelity settings.fidelity =
      .ok console.cpu.table
  timing :
    console.board.ppu.timing = settings.standard.timing

/- What a console is put together from. -/
theorem parts_of_assembled
    {image : CartridgeImage}
    {settings : Settings}
    {console : Console}
    (hOn : assembled image settings = .ok console) :
    ∃ cartridge table,
      Cartridge.ofImage image = .ok cartridge ∧
      OpcodeTable.atFidelity settings.fidelity = .ok table ∧
      console.cpu = ⟨table, .powerOn, false⟩ ∧
      console.board =
        { map := Board.standardMap
          ram := .filled 0x0800 settings.ram.value
          ppu := .powerOn
            (.ofPatterns cartridge.patterns
              cartridge.mirroring)
            settings.standard.timing
          controllers := {}
          dma := {}
          program := cartridge.program } := by
  unfold assembled at hOn
  cases hCartridge : Cartridge.ofImage image with
  | error fault =>
      rw [hCartridge] at hOn
      cases hOn
  | ok cartridge =>
      rcases OpcodeTable.atFidelity_isOk settings.fidelity
        with ⟨table, hTable⟩
      rw [hCartridge] at hOn
      unfold Cpu.ofFidelity at hOn
      rw [hTable] at hOn
      cases hOn
      exact ⟨cartridge, table, rfl, hTable, rfl, rfl⟩

theorem fresh_assembled
    {image : CartridgeImage}
    {settings : Settings}
    {console : Console}
    (hOn : assembled image settings = .ok console) :
    Fresh image settings console := by
  rcases parts_of_assembled hOn with
    ⟨cartridge, table, hCartridge, hTable, hCpu, hBoard⟩
  constructor
  case map => rw [hBoard]
  case program =>
    rw [hCartridge, hBoard]
    rfl
  case table =>
    rw [hCpu]
    exact hTable
  case timing =>
    rw [hBoard]
    rfl

/- Memory starts filled beside the program of the image. -/
theorem assembled_memories
    {image : CartridgeImage}
    {settings : Settings}
    {console : Console}
    (hOn : assembled image settings = .ok console) :
    console.board.ram = .filled 0x0800 settings.ram.value ∧
      console.board.program.rom = image.programRom := by
  rcases parts_of_assembled hOn with
    ⟨cartridge, -, hCartridge, -, -, hBoard⟩
  rw [hBoard]
  exact ⟨rfl, (Cartridge.program_of_ofImage hCartridge).1⟩

/- Every cartridge is accepted. -/
theorem powerOn_isOk
    {image : CartridgeImage}
    {cartridge : Cartridge}
    (hCartridge : Cartridge.ofImage image = .ok cartridge)
    (settings : Settings) :
    ∃ console, powerOn image settings = .ok console := by
  rcases OpcodeTable.atFidelity_isOk settings.fidelity with
    ⟨table, hTable⟩
  unfold powerOn
  rw [hCartridge]
  unfold Cpu.ofFidelity
  rw [hTable]
  exact ⟨_, rfl⟩

end Console

end Famicom
