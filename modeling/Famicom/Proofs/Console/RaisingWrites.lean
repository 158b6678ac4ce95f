import Famicom.Proofs.Console.Serving

/-
  The writes that ask for an interrupt.

  A board is given a counter of such writes, and does the
  same with and without it.  Between two of them the control
  register has to be written once more, so that the writes of
  a single step ask at most once.

  Key definitions include:
    * `Board.writeRaises`
    * `TalliedBoard`
    * `TalliedBoard.Tallies`

  Main declarations:
    * `TalliedBoard.computation_eq`
    * `TalliedBoard.tallies_computation`
    * `TalliedBoard.raised_le_one`
-/

namespace Famicom

------------------------------------------------------------
-- Writes on the Board
------------------------------------------------------------

namespace Board

variable (board : Board) (address : UInt16) (value : UInt8)

/- Whether a write asks the picture unit for an interrupt. -/
def writeRaises : Bool :=
  let (device, place) := board.map.resolve address
  device == .ppu && board.ppu.writeRaises place value

theorem write_nmiRequested :
    (board.write address value).ppu.nmiRequested =
      (board.ppu.nmiRequested ||
        board.writeRaises address value) := by
  rw [write_ppu]
  unfold writeRaises
  generalize board.map.resolve address = target
  rcases target with ⟨device, place⟩
  by_cases hDevice : device = .ppu
  · rw [if_pos hDevice, hDevice]
    exact board.ppu.write_nmiRequested place value
  · rw [if_neg hDevice]
    dsimp only
    rw [beq_false_of_ne hDevice, Bool.false_and,
      Bool.or_false]

theorem read_nmiRequested :
    (board.read address).2.ppu.nmiRequested =
      board.ppu.nmiRequested := by
  rcases board.read_ppu address with hSame | ⟨place, hRead⟩
  · rw [hSame]
  · rw [hRead, Ppu.read_nmiRequested]

theorem read_control :
    (board.read address).2.ppu.registers.control =
      board.ppu.registers.control := by
  rcases board.read_ppu address with hSame | ⟨place, hRead⟩
  · rw [hSame]
  · rw [hRead, Ppu.read_control]

/- A transfer writes none of the registers that ask. -/
theorem copyBytesToOam_nmiRequested (count : Nat) :
    (board.copyBytesToOam address count).ppu.nmiRequested =
      board.ppu.nmiRequested := by
  induction count generalizing board address with
  | zero => rfl
  | succ count ih =>
      exact (ih _ _).trans (board.read_nmiRequested address)

theorem transferOam_nmiRequested (startCycle : Nat) :
    (board.transferOam startCycle).2.ppu.nmiRequested =
      board.ppu.nmiRequested := by
  unfold transferOam
  split
  · rfl
  · dsimp only
    rw [copyBytesToOam_nmiRequested]

variable {board address value}

/-
  Such a write finds vertical blank and the interrupt
  disabled, and it enables the interrupt.
-/
theorem of_writeRaises
    (hRaises : board.writeRaises address value = true) :
    board.ppu.registers.status.verticalBlank = true ∧
      board.ppu.registers.control.nmiEnabled = false ∧
      (board.write address value
        ).ppu.registers.control.nmiEnabled = true := by
  unfold writeRaises at hRaises
  rw [write_ppu]
  generalize board.map.resolve address = target
    at hRaises ⊢
  rcases target with ⟨device, place⟩
  unfold Ppu.writeRaises at hRaises
  simp only [Bool.and_eq_true, beq_iff_eq,
    Bool.not_eq_true'] at hRaises
  rcases hRaises with
    ⟨hDevice, hRegister, ⟨hDisabled, hEnables⟩, hBlank⟩
  refine ⟨hBlank, hDisabled, ?_⟩
  rw [if_pos hDevice, Ppu.write_control, if_pos hRegister]
  exact hEnables

/- Writes to the stack page never are of that kind. -/
theorem writeRaises_onStack
    (hMap : board.map = standardMap)
    (hAddress : Registers.OnStack address) :
    board.writeRaises address value = false := by
  unfold Registers.OnStack at hAddress
  unfold writeRaises
  rw [hMap, resolve_ram (by omega)]
  rfl

end Board

------------------------------------------------------------
-- Tallied Boards
------------------------------------------------------------

/- A board and the number of writes that have asked. -/
structure TalliedBoard where
  board : Board
  raised : Nat := 0

namespace TalliedBoard

instance : AddressBus TalliedBoard where
  read address := fun ⟨board, raised⟩ =>
    let (value, board) := board.read address
    (value, ⟨board, raised⟩)
  write address value := fun ⟨board, raised⟩ =>
    let more := (board.writeRaises address value).toNat
    ((), ⟨board.write address value, raised + more⟩)

/-
  What a tallied board has been through since it was a given
  one.  The request latch tells whether a write has asked,
  and if one has then vertical blank was on at the start.
-/
structure Tallies
    (start : Board)
    (tallied : TalliedBoard) : Prop where
  map : tallied.board.map = Board.standardMap
  keeps : Ppu.AccessKeeps start.ppu tallied.board.ppu
  requested :
    tallied.board.ppu.nmiRequested =
      decide (0 < tallied.raised)
  verticalBlank :
    0 < tallied.raised →
      start.ppu.registers.status.verticalBlank = true

theorem tallies_start
    {board : Board}
    (hMap : board.map = Board.standardMap)
    (hQuiet : board.ppu.nmiRequested = false) :
    Tallies board { board := board } where
  map := hMap
  keeps := .refl board.ppu
  requested := hQuiet
  verticalBlank := fun hRaised =>
    absurd hRaised (Nat.lt_irrefl 0)

section Accesses

variable {start : Board} {tallied : TalliedBoard}

theorem Tallies.read
    (hTallies : Tallies start tallied)
    (address : UInt16) :
    Tallies start (AddressBus.read address tallied).2 where
  map := (tallied.board.read_map address).trans hTallies.map
  keeps := Board.read_stable address
    (Ppu.accessKeeps_stable start.ppu) hTallies.keeps
  requested :=
    (tallied.board.read_nmiRequested address).trans
      hTallies.requested
  verticalBlank := hTallies.verticalBlank

theorem Tallies.write
    (hTallies : Tallies start tallied)
    (address : UInt16)
    (value : UInt8) :
    Tallies start
      (AddressBus.write address value tallied).2 where
  map :=
    (tallied.board.write_map address value).trans hTallies.map
  keeps := Board.write_stable address value
    (Ppu.accessKeeps_stable start.ppu) hTallies.keeps
  requested := by
    show (tallied.board.write address value).ppu.nmiRequested =
      decide (0 < tallied.raised +
        (tallied.board.writeRaises address value).toNat)
    rw [Board.write_nmiRequested, hTallies.requested]
    cases tallied.board.writeRaises address value with
    | false => rw [Bool.or_false]; rfl
    | true =>
        rw [Bool.or_true]
        exact (decide_eq_true (Nat.succ_pos _)).symm
  verticalBlank := by
    intro hRaised
    cases hRaises : tallied.board.writeRaises address value
    with
    | false =>
        apply hTallies.verticalBlank
        have hSame : 0 < tallied.raised +
            (tallied.board.writeRaises address value).toNat :=
          hRaised
        rw [hRaises] at hSame
        exact hSame
    | true =>
        exact hTallies.keeps.verticalBlank
          (Board.of_writeRaises hRaises).1

/-
  Two for each write that has asked, and one more while the
  interrupt is disabled.
-/
def level (tallied : TalliedBoard) : Nat :=
  2 * tallied.raised +
    (!tallied.board.ppu.registers.control.nmiEnabled).toNat

theorem level_read
    (tallied : TalliedBoard)
    (address : UInt16) :
    level (AddressBus.read address tallied).2 =
      level tallied := by
  have hSame := tallied.board.read_control address
  show 2 * tallied.raised +
    (!(tallied.board.read address
      ).2.ppu.registers.control.nmiEnabled).toNat = _
  rw [hSame]
  rfl

/- A write raises the level by one at most. -/
theorem level_write
    (tallied : TalliedBoard)
    (address : UInt16)
    (value : UInt8) :
    level (AddressBus.write address value tallied).2 ≤
      level tallied + 1 := by
  show 2 * (tallied.raised +
      (tallied.board.writeRaises address value).toNat) +
    (!(tallied.board.write address value
      ).ppu.registers.control.nmiEnabled).toNat ≤ _
  unfold level
  cases hRaises : tallied.board.writeRaises address value with
  | false =>
      have hAfter := Bool.toNat_le
        (!(tallied.board.write address value
          ).ppu.registers.control.nmiEnabled)
      rw [Bool.toNat_false]
      omega
  | true =>
      rcases Board.of_writeRaises hRaises with
        ⟨-, hBefore, hAfter⟩
      rw [hBefore, hAfter]
      simp only [Bool.not_true, Bool.not_false,
        Bool.toNat_true, Bool.toNat_false]
      omega

theorem level_write_onStack
    (hMap : tallied.board.map = Board.standardMap)
    {address : UInt16}
    (hAddress : Registers.OnStack address)
    (value : UInt8) :
    level (AddressBus.write address value tallied).2 =
      level tallied := by
  rcases tallied.board.write_onStack hMap hAddress value with
    ⟨ram, hWrite⟩
  have hQuiet :
      tallied.board.writeRaises address value = false :=
    Board.writeRaises_onStack hMap hAddress
  show 2 * (tallied.raised +
      (tallied.board.writeRaises address value).toNat) +
    (!(tallied.board.write address value
      ).ppu.registers.control.nmiEnabled).toNat = _
  rw [hQuiet, hWrite]
  rfl

end Accesses

------------------------------------------------------------
-- Computations
------------------------------------------------------------

section Computations

variable {α : Type} {post : α → Prop} {writes : Nat}
variable {computation : OnBus α}
variable (hWithin :
  OnBus.Within Registers.OnStack writes post computation)

include hWithin

/- The counter makes no difference. -/
theorem computation_eq (tallied : TalliedBoard) :
    computation Board tallied.board =
      Prod.map id board (computation TalliedBoard tallied) :=
  hWithin.simulates board (fun _ _ => rfl)
    (fun _ _ _ => rfl) tallied

theorem tallies_computation
    {start : Board}
    {tallied : TalliedBoard}
    (hTallies : Tallies start tallied) :
    Tallies start (computation TalliedBoard tallied).2 :=
  hWithin.preserves (motive := Tallies start)
    (fun address _ hHere => hHere.read address)
    (fun address value _ hHere => hHere.write address value)
    hTallies

/- Three writes are needed to ask twice. -/
theorem raised_le_one
    (hWrites : writes ≤ 2)
    {start : Board}
    {tallied : TalliedBoard}
    (hTallies : Tallies start tallied)
    (hNone : tallied.raised = 0) :
    (computation TalliedBoard tallied).2.raised ≤ 1 := by
  have hLevel := hWithin.raises
    (motive := Tallies start) level
    (fun address here hHere =>
      ⟨hHere.read address, (level_read here address).le⟩)
    (fun address value here hHere =>
      ⟨hHere.write address value,
        level_write here address value⟩)
    (fun _ value _ hHere hInside =>
      (level_write_onStack hHere.map hInside value).le)
    hTallies
  have hDisabled := Bool.toNat_le
    (!tallied.board.ppu.registers.control.nmiEnabled)
  unfold level at hLevel
  rw [hNone] at hLevel
  omega

end Computations

end TalliedBoard

end Famicom
