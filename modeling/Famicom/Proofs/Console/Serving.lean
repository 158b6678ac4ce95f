import Famicom.Proofs.Console.BoardAccess
import Famicom.Proofs.Cpu.Actions
import Famicom.Proofs.Cpu.StackPage

/-
  How the processor serves a pending edge.

  Serving the edge takes seven cycles, changes nothing on the
  board but the stack, and goes on where the program's vector
  points to.

  Key definitions include:
    * `Cpu.atNmiEntry`

  Main declarations:
    * `Board.enterInterrupt_onBoard`
    * `Cpu.perform_serveNmi`
-/

namespace Famicom

------------------------------------------------------------
-- The Stack on the Board
------------------------------------------------------------

namespace Board

/- A write to the stack page changes memory and nothing else. -/
theorem write_onStack
    (board : Board)
    (hMap : board.map = standardMap)
    {address : UInt16}
    (hAddress : Registers.OnStack address)
    (value : UInt8) :
    ∃ ram,
      board.write address value =
        { board with ram := ram } := by
  unfold Registers.OnStack at hAddress
  unfold write
  rw [hMap, resolve_ram (by omega)]
  exact ⟨_, rfl⟩

/- So does a push, whose pointer moves down. -/
theorem push_onStack
    (board : Board)
    (hMap : board.map = standardMap)
    (r : Registers)
    (value : UInt8) :
    ∃ ram,
      r.push value board =
        ({ r with sp := r.sp - 1 },
          { board with ram := ram }) := by
  rcases write_onStack board hMap r.onStack_stackAddress value
    with ⟨ram, hWrite⟩
  exact ⟨ram, congrArg (Prod.mk _) hWrite⟩

/- Page one of the console is memory, without wrapping. -/
theorem resolve_stackAt (place : UInt8) :
    standardMap.resolve (stackAt place) =
      (.ram, stackAt place) := by
  have hPlace : place.toNat < 256 := place.toNat_lt
  have hAddress : (stackAt place).toNat = 256 + place.toNat :=
    Registers.toNat_stackPlace place
  have hSame : stackAt place % 0x0800 = stackAt place := by
    apply UInt16.toNat_inj.mp
    rw [UInt16.toNat_mod, hAddress]
    exact Nat.mod_eq_of_lt
      ((Nat.add_lt_add_left hPlace _).trans_le (by decide))
  rw [resolve_ram (by omega), hSame]

/- So the stack of the console is plain memory. -/
def stackPage : StackPage Board where
  Plain board :=
    board.map = standardMap ∧ 0x0200 ≤ board.ram.size
  cell board place := board.ram.read (stackAt place)
  plain_read {board} address hPlain := by
    show (board.read address).2.map = standardMap ∧
      0x0200 ≤ (board.read address).2.ram.size
    rw [read_map, read_ram]
    exact hPlain
  cell_read {board} address _ := by
    show (fun place =>
      (board.read address).2.ram.read (stackAt place)) = _
    rw [read_ram]
  read_place {board} place hPlain := by
    show (board.read (stackAt place)).1 = _
    unfold read
    rw [hPlain.1, resolve_stackAt]
  plain_write {board} place value hPlain := by
    show (board.write (stackAt place) value).map = _ ∧
      _ ≤ (board.write (stackAt place) value).ram.size
    unfold write
    rw [hPlain.1, resolve_stackAt]
    exact ⟨rfl,
      hPlain.2.trans_eq (Ram.size_write _ _ _).symm⟩
  cell_write {board} place value hPlain := by
    funext other
    rw [Function.update_apply]
    show (board.write (stackAt place) value).ram.read _ = _
    unfold write
    rw [hPlain.1, resolve_stackAt]
    exact Ram.read_write_stackAt hPlain.2 place other value

/-
  A hardware interrupt saves the address and the status on
  the stack and goes on where its vector points to.
-/
theorem enterInterrupt_onBoard
    {board : Board}
    (hMap : board.map = standardMap)
    (r : Registers)
    (vector : UInt16)
    (hLow : Hardware.cartridgeStart ≤ vector)
    (hHigh : Hardware.cartridgeStart ≤ vector + 1) :
    ∃ ram,
      r.enterInterrupt vector r.pc false board =
        ({ r.putFlag .interruptDisable true with
            sp := r.sp - 1 - 1 - 1
            pc := board.program.word vector },
          { board with ram := ram }) := by
  rcases push_onStack board hMap r (Bits.highByte r.pc) with
    ⟨first, hFirst⟩
  rcases push_onStack { board with ram := first } hMap
      { r with sp := r.sp - 1 } (Bits.lowByte r.pc) with
    ⟨second, hSecond⟩
  rcases push_onStack { board with ram := second } hMap
      { r with sp := r.sp - 1 - 1 }
      (r.status.toStack false) with
    ⟨third, hThird⟩
  have hVector := readWord_cartridge
    { board with ram := third } vector hMap hLow hHigh
  refine ⟨third, ?_⟩
  unfold Registers.enterInterrupt Registers.pushWord
  dsimp only [bind, StateT.bind, pure, StateT.pure]
  rw [hFirst]
  dsimp only
  rw [hSecond]
  dsimp only
  rw [hThird]
  dsimp only
  rw [hVector]
  rfl

end Board

------------------------------------------------------------
-- Serving an Edge
------------------------------------------------------------

/- The processor at the program's vector. -/
def Cpu.atNmiEntry
    (cpu : Cpu)
    (program : ProgramMemory) : Cpu :=
  let r := cpu.registers
  { cpu with
    registers :=
      { r.putFlag .interruptDisable true with
        sp := r.sp - 1 - 1 - 1
        pc := program.word Hardware.nmiVector } }

/-
  An edge is served whatever the registers hold, and the
  board is as before but for its memory.
-/
theorem Cpu.perform_serveNmi
    (cpu : Cpu)
    (lines : InterruptLines)
    {board : Board}
    (hMap : board.map = Board.standardMap) :
    ∃ ram,
      cpu.perform lines .serveNmi board =
        (.ok ⟨cpu.atNmiEntry board.program, lines.takeNmi.2, 7⟩,
          { board with ram := ram }) := by
  rcases Board.enterInterrupt_onBoard hMap cpu.registers
      Hardware.nmiVector (by decide) (by decide) with
    ⟨ram, hEnter⟩
  refine ⟨ram, ?_⟩
  unfold perform interrupt
  dsimp only [Functor.map, StateT.map, bind, StateT.bind,
    pure, StateT.pure]
  rw [hEnter]
  rfl

end Famicom
