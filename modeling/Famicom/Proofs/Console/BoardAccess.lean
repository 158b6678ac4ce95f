import Famicom.Console.Board
import Famicom.Cpu.Addressing
import Famicom.Proofs.AddressMap.Routing
import Famicom.Proofs.Bus.Program
import Famicom.Proofs.Video.RegisterAccess

/-
  What accesses do to the board.

  An access reaches one device.  The map never changes, and
  the picture unit only changes by accesses to its registers.

  Key definitions include:
    * `ProgramMemory.word`
    * `Board.standardMap`

  Main declarations:
    * `Board.addressMap_eq`
    * `Board.resolve_region`
    * `Board.read_cartridge`
    * `Board.read_ppu`
    * `Board.write_ppu`
    * `Board.transferOam_stable`
-/

namespace Famicom

/- The word of the program at an address. -/
def ProgramMemory.word
    (program : ProgramMemory)
    (address : UInt16) : UInt16 :=
  Bits.word (program.read address) (program.read (address + 1))

namespace Board

------------------------------------------------------------
-- Address Map
------------------------------------------------------------

/- The map that the regions of the console give. -/
def standardMap : AddressMap BoardDevice where
  name := "CPU"
  lowest := regions[0]
  others := regions.drop 1

theorem addressMap_eq : addressMap = .ok standardMap := rfl

theorem standardMap_builtOf :
    AddressMap.Laid regions ∧
      standardMap.BuiltOf regions := by
  have hMap : AddressMap.ofRegions "CPU" regions =
      .ok standardMap := addressMap_eq
  rcases AddressMap.ofRegions_eq_ok_iff.mp hMap with
    ⟨hLaid, _, hBuilt⟩
  exact ⟨hLaid, hBuilt⟩

/- A region of the console answers at its addresses. -/
theorem resolve_region
    {region : AddressMap.Region BoardDevice}
    (hIn : region ∈ regions)
    {address : UInt16}
    (hFirst : region.range.first ≤ address)
    (hLast : address ≤ region.range.last) :
    standardMap.resolve address =
      (region.device, region.localAddress address) :=
  (standardMap_builtOf.2.routes standardMap_builtOf.1 hIn
    (AddressRange.contains_iff.mpr ⟨hFirst, hLast⟩)).resolve

/- The first quarter of the lower half is memory. -/
theorem resolve_ram
    {address : UInt16}
    (hAddress : address.toNat < 0x2000) :
    standardMap.resolve address =
      (.ram, address % 0x0800) := by
  have hIn : regions[0] ∈ regions := List.getElem_mem _
  have hFirst : regions[0].range.first ≤ address :=
    UInt16.le_iff_toNat_le.mpr (Nat.zero_le _)
  have hLast : address ≤ regions[0].range.last :=
    UInt16.le_iff_toNat_le.mpr (Nat.le_of_lt_succ hAddress)
  rw [resolve_region hIn hFirst hLast]
  show (_, (address - 0) % 0x0800) = _
  rw [UInt16.sub_zero]
  rfl

/- The end of the address space is the cartridge's. -/
theorem resolve_cartridge
    {address : UInt16}
    (hAddress : Hardware.cartridgeStart ≤ address) :
    standardMap.resolve address =
      (.cartridge, address - Hardware.cartridgeStart) := by
  have hIn : regions[7] ∈ regions := List.getElem_mem _
  have hLast : address ≤ regions[7].range.last :=
    UInt16.le_iff_toNat_le.mpr
      (Nat.le_of_lt_succ address.toNat_lt)
  rw [resolve_region hIn hAddress hLast]
  rfl

------------------------------------------------------------
-- Accesses
------------------------------------------------------------

/- Reading from the cartridge has no effect. -/
theorem read_cartridge
    {board : Board}
    (hMap : board.map = standardMap)
    {address : UInt16}
    (hAddress : Hardware.cartridgeStart ≤ address) :
    board.read address =
      (board.program.read address, board) := by
  unfold read
  rw [hMap, resolve_cartridge hAddress]
  unfold ProgramMemory.cartridgeAddress
  dsimp only
  rw [UInt16.add_comm, UInt16.sub_add_cancel]

theorem readWord_cartridge
    (board : Board)
    (address : UInt16)
    (hMap : board.map = standardMap)
    (hLow : Hardware.cartridgeStart ≤ address)
    (hHigh : Hardware.cartridgeStart ≤ address + 1) :
    AddressBus.readWord address board =
      (board.program.word address, board) := by
  show (Bits.word (board.read address).1
      ((board.read address).2.read (address + 1)).1,
    ((board.read address).2.read (address + 1)).2) = _
  rw [read_cartridge hMap hLow]
  dsimp only
  rw [read_cartridge hMap hHigh]
  rfl

variable (board : Board) (address : UInt16) (value : UInt8)

@[simp] theorem read_map :
    (board.read address).2.map = board.map := by
  unfold read
  dsimp only
  split <;> rfl

@[simp] theorem read_ram :
    (board.read address).2.ram = board.ram := by
  unfold read
  dsimp only
  split <;> rfl

@[simp] theorem read_program :
    (board.read address).2.program = board.program := by
  unfold read
  dsimp only
  split <;> rfl

@[simp] theorem read_dma :
    (board.read address).2.dma = board.dma := by
  unfold read
  dsimp only
  split <;> rfl

@[simp] theorem write_map :
    (board.write address value).map = board.map := by
  unfold write
  dsimp only
  split <;> rfl

/- A read reaches the picture unit or it does not. -/
theorem read_ppu :
    (board.read address).2.ppu = board.ppu ∨
      ∃ place,
        (board.read address).2.ppu =
          (board.ppu.read place).2 := by
  unfold read
  dsimp only
  split
  · exact Or.inl rfl
  · exact Or.inr ⟨_, rfl⟩
  · exact Or.inl rfl
  · exact Or.inl rfl
  · exact Or.inl rfl
  · exact Or.inl rfl

/- So does a write, as the map has it. -/
theorem write_ppu :
    (board.write address value).ppu =
      if (board.map.resolve address).1 = .ppu then
        board.ppu.write (board.map.resolve address).2 value
      else
        board.ppu := by
  unfold write
  dsimp only
  split
  next h => rw [h, if_neg (by decide)]
  next h => rw [h, if_pos rfl]
  next h => rw [h, if_neg (by decide)]
  next h => rw [h, if_neg (by decide)]
  next h => rw [h, if_neg (by decide)]
  next h => rw [h, if_neg (by decide)]

theorem read_stable
    {motive : Ppu → Prop}
    (hStable : Ppu.AccessStable motive)
    {board : Board}
    (hBoard : motive board.ppu) :
    motive (board.read address).2.ppu := by
  rcases board.read_ppu address with hSame | ⟨place, hHere⟩
  · rw [hSame]
    exact hBoard
  · rw [hHere]
    exact hStable.read _ _ hBoard

theorem write_stable
    {motive : Ppu → Prop}
    (hStable : Ppu.AccessStable motive)
    {board : Board}
    (hBoard : motive board.ppu) :
    motive (board.write address value).ppu := by
  rw [board.write_ppu]
  split
  · exact hStable.write _ _ _ hBoard
  · exact hBoard

------------------------------------------------------------
-- Transfers
------------------------------------------------------------

/- A whole transfer keeps what single accesses keep. -/
theorem copyBytesToOam_stable
    {motive : Ppu → Prop}
    (hStable : Ppu.AccessStable motive)
    (count : Nat)
    {board : Board}
    (hBoard : motive board.ppu) :
    motive (board.copyBytesToOam address count).ppu := by
  induction count generalizing board address with
  | zero => exact hBoard
  | succ count ih =>
      have hAfter := read_stable address hStable hBoard
      exact ih _ (hStable.writeOam _ _ hAfter)

@[simp] theorem copyBytesToOam_map
    (count : Nat) :
    (board.copyBytesToOam address count).map =
      board.map := by
  induction count generalizing board address with
  | zero => rfl
  | succ count ih =>
      exact (ih _ _).trans (board.read_map address)

@[simp] theorem copyBytesToOam_dma
    (count : Nat) :
    (board.copyBytesToOam address count).dma =
      board.dma := by
  induction count generalizing board address with
  | zero => rfl
  | succ count ih =>
      exact (ih _ _).trans (board.read_dma address)

theorem transferOam_stable
    {motive : Ppu → Prop}
    (hStable : Ppu.AccessStable motive)
    (startCycle : Nat)
    {board : Board}
    (hBoard : motive board.ppu) :
    motive (board.transferOam startCycle).2.ppu := by
  unfold transferOam
  split
  · exact hBoard
  · exact copyBytesToOam_stable _ hStable _ hBoard

@[simp] theorem transferOam_map (startCycle : Nat) :
    (board.transferOam startCycle).2.map = board.map := by
  unfold transferOam
  split <;> simp

/- Nothing is transferred unless it has been requested. -/
theorem transferOam_of_none
    {board : Board}
    (hPage : board.dma.page = none)
    (startCycle : Nat) :
    board.transferOam startCycle = (0, board) := by
  unfold transferOam OamDma.take
  rw [hPage]

/- After a transfer no further one is pending. -/
@[simp] theorem transferOam_page (startCycle : Nat) :
    (board.transferOam startCycle).2.dma.page = none := by
  unfold transferOam OamDma.take
  dsimp only
  split
  next hNone => exact (Prod.mk.inj hNone).1
  next hPage =>
    rw [copyBytesToOam_dma]
    exact congrArg OamDma.page (Prod.mk.inj hPage).2.symm

/- A transfer halts the processor for a bounded time. -/
theorem transferOam_cycles_le (startCycle : Nat) :
    (board.transferOam startCycle).1 ≤ 514 := by
  unfold transferOam
  split
  · exact Nat.zero_le _
  · have hOdd := Nat.mod_lt startCycle (by decide : 0 < 2)
    have hBase : Hardware.oamDmaCycles = 513 := rfl
    unfold OamDma.transferCycles
    dsimp only
    omega

end Board

end Famicom
