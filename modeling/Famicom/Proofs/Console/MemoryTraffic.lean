import Famicom.Proofs.Bus.Recording
import Famicom.Proofs.Cartridge.Contents
import Famicom.Proofs.Console.Resetting

/-
  What traffic does to the memory of the board.

  The memory is 2 kB that repeat themselves below 0x2000.  It
  takes the writes to its addresses and nothing else, so it is
  known from the traffic alone, and so is every byte that is
  read from it.  The program is known from the cartridge.

  Key definitions include:
    * `Ram.replay`
    * `BusAccess.leaves?`
    * `Board.Carried`

  Main declarations:
    * `Ram.read_replay`
    * `Board.read_memory`
    * `Board.write_memory`
    * `Board.read_mirrored`
    * `Board.Carried.read`
    * `Board.Carried.write`
    * `Board.Carried.computation`
    * `Board.Carried.answer`
-/

namespace Famicom

------------------------------------------------------------
-- Memory
------------------------------------------------------------

/- The byte that an access leaves in a cell of the memory. -/
def BusAccess.leaves?
    (address : UInt16) : BusAccess → Option UInt8
  | .read _ _ => none
  | .write target value =>
      if target.toNat < 0x2000 ∧
          target.toNat ≡ address.toNat [MOD 0x0800] then
        some value
      else
        none

namespace Ram

/- Memory that is attached below 0x2000, after an access. -/
def take
    (ram : Ram) : BusAccess → Ram
  | .read _ _ => ram
  | .write address value =>
      if address.toNat < 0x2000 then
        ram.write address value
      else
        ram

/- The same after traffic. -/
def replay
    (ram : Ram)
    (traffic : List BusAccess) : Ram :=
  traffic.foldl take ram

theorem size_take
    (ram : Ram)
    (access : BusAccess) :
    (ram.take access).size = ram.size := by
  cases access with
  | read address value => rfl
  | write address value =>
      unfold take
      dsimp only
      split
      · exact size_write ram address value
      · rfl

theorem read_take
    {ram : Ram}
    (hSize : ram.size = 0x0800)
    (address : UInt16)
    (access : BusAccess) :
    (ram.take access).read address =
      (access.leaves? address).getD (ram.read address) := by
  have hPositive : 0 < ram.size := hSize ▸ by decide
  cases access with
  | read target value => rfl
  | write target value =>
      have hCells :
          ram.cellOf target = ram.cellOf address ↔
            target.toNat ≡ address.toNat [MOD 0x0800] := by
        unfold cellOf Nat.ModEq
        rw [hSize]
      unfold take BusAccess.leaves?
      dsimp only
      by_cases hTarget : target.toNat < 0x2000
      · rw [if_pos hTarget, read_write hPositive]
        simp only [hCells, hTarget, true_and]
        split <;> rfl
      · rw [if_neg hTarget, if_neg fun h => hTarget h.1]
        rfl

/- The map folds addresses just as the memory does. -/
theorem cellOf_folded
    {ram : Ram}
    (hSize : ram.size = 0x0800)
    (address : UInt16) :
    ram.cellOf (address % 0x0800) = ram.cellOf address := by
  unfold cellOf
  rw [hSize, UInt16.toNat_mod]
  exact Nat.mod_mod _ _

/- What was written last is read from a cell. -/
theorem read_replay
    {ram : Ram}
    (hSize : ram.size = 0x0800)
    (traffic : List BusAccess)
    (address : UInt16) :
    (ram.replay traffic).size = 0x0800 ∧
      (ram.replay traffic).read address =
        (lastLeft? (BusAccess.leaves? address) traffic).getD
          (ram.read address) :=
  shows_foldl (fun ram : Ram => ram.read address)
    (fun ram : Ram => ram.size = 0x0800)
    (fun ram access hHere =>
      (ram.size_take access).trans hHere)
    (fun _ access hHere => read_take hHere address access)
    hSize traffic

end Ram

------------------------------------------------------------
-- Accesses
------------------------------------------------------------

namespace Board

variable {board : Board}
variable {address : UInt16}

/- No other address leads to the memory. -/
theorem resolve_beyond
    (hAddress : 0x2000 ≤ address.toNat) :
    (standardMap.resolve address).1 ≠ .ram := by
  have hOthers : ∀ region ∈ regions,
      region.device = .ram →
        region.range.last.toNat < 0x2000 := by
    decide
  rcases standardMap_builtOf.2.regionAt_spec address with
    ⟨hIn, hContains⟩
  intro hDevice
  have hEnd := hOthers _ hIn hDevice
  have hLast := UInt16.le_iff_toNat_le.mp
    (AddressRange.contains_iff.mp hContains).2
  omega

/- The registers repeat themselves every eight addresses. -/
theorem resolve_mirrored
    (hFirst : 0x2000 ≤ address.toNat)
    (hLast : address.toNat < 0x4000) :
    standardMap.resolve address =
      standardMap.resolve (0x2000 + address % 8) := by
  have hIn : regions[1] ∈ regions := List.getElem_mem _
  have hHere (other : UInt16)
      (hFrom : 0x2000 ≤ other.toNat)
      (hTo : other.toNat < 0x4000) :
      standardMap.resolve other =
        (.ppu, (other - 0x2000) % 8) :=
    resolve_region hIn
      (UInt16.le_iff_toNat_le.mpr hFrom)
      (UInt16.le_iff_toNat_le.mpr (Nat.le_of_lt_succ hTo))
  have hPlace : (0x2000 + address % 8).toNat =
      0x2000 + address.toNat % 8 := by
    rw [UInt16.toNat_add, UInt16.toNat_mod]
    have hSmall := Nat.mod_lt address.toNat
      (by decide : 0 < 8)
    exact Nat.mod_eq_of_lt (by
      show 0x2000 + address.toNat % 8 < 0x10000
      omega)
  rw [hHere address hFirst hLast, hHere _ (by omega) (by omega)]
  refine congrArg (Prod.mk _) (UInt16.toNat_inj.mp ?_)
  rw [UInt16.toNat_mod, UInt16.toNat_mod,
    UInt16.toNat_sub_of_le, UInt16.toNat_sub_of_le, hPlace]
  · show (address.toNat - 0x2000) % 8 =
      (0x2000 + address.toNat % 8 - 0x2000) % 8
    omega
  · rw [UInt16.le_iff_toNat_le, hPlace]
    exact Nat.le_add_right _ _
  · exact UInt16.le_iff_toNat_le.mpr hFirst

section Standard

variable (hMap : board.map = standardMap)

include hMap

theorem read_mirrored
    (hFirst : 0x2000 ≤ address.toNat)
    (hLast : address.toNat < 0x4000) :
    board.read address =
      board.read (0x2000 + address % 8) := by
  unfold read
  rw [hMap, resolve_mirrored hFirst hLast]

theorem write_mirrored
    (hFirst : 0x2000 ≤ address.toNat)
    (hLast : address.toNat < 0x4000)
    (value : UInt8) :
    board.write address value =
      board.write (0x2000 + address % 8) value := by
  unfold write
  rw [hMap, resolve_mirrored hFirst hLast]

/- The upper half of the address space is the program. -/
theorem read_upper
    (hUpper : 0x8000 ≤ address.toNat) :
    board.program.rom[(address.toNat - 0x8000) %
        board.program.rom.size]? =
      some (board.read address).1 := by
  have hHere : Hardware.cartridgeStart ≤ address :=
    UInt16.le_iff_toNat_le.mpr (le_trans (by decide) hUpper)
  rw [read_cartridge hMap hHere]
  exact ProgramMemory.getElem?_rom hUpper

variable (hSize : board.ram.size = 0x0800)

include hSize

theorem read_memory
    (hAddress : address.toNat < 0x2000) :
    board.read address = (board.ram.read address, board) := by
  unfold read
  rw [hMap, resolve_ram hAddress]
  unfold Ram.read
  dsimp only
  rw [Ram.cellOf_folded hSize]

/- The memory takes what is written to its addresses. -/
theorem write_memory
    (address : UInt16)
    (value : UInt8) :
    (board.write address value).ram =
      board.ram.take (.write address value) := by
  unfold write Ram.take
  rw [hMap]
  dsimp only
  by_cases hAddress : address.toNat < 0x2000
  · rw [if_pos hAddress, resolve_ram hAddress]
    unfold Ram.write
    dsimp only
    rw [Ram.cellOf_folded hSize]
  · have hBeyond := resolve_beyond (Nat.not_lt.mp hAddress)
    rw [if_neg hAddress]
    generalize standardMap.resolve address = target
      at hBeyond ⊢
    rcases target with ⟨device, place⟩
    cases device with
    | ram => exact (hBeyond rfl).elim
    | ppu | silent | oamDma | controllers | cartridge => rfl

end Standard

------------------------------------------------------------
-- Traffic
------------------------------------------------------------

/-
  A board that has carried traffic since it was in another
  state.  The memory follows from the traffic, the program is
  the same, and this is what has been read from both.
-/
structure Carried
    (start : Board)
    (traffic : List BusAccess)
    (now : Board) : Prop where
  map : now.map = standardMap
  size : start.ram.size = 0x0800
  ram : now.ram = start.ram.replay traffic
  rom : now.program.rom = start.program.rom
  reads : ∀ before address value behind,
    traffic = before ++ .read address value :: behind →
      (address.toNat < 0x2000 →
        value = (start.ram.replay before).read address) ∧
      (0x8000 ≤ address.toNat →
        start.program.rom[(address.toNat - 0x8000) %
            start.program.rom.size]? = some value)

namespace Carried

variable {start now : Board}
variable {traffic : List BusAccess}

theorem refl
    (hMap : start.map = standardMap)
    (hSize : start.ram.size = 0x0800) :
    Carried start [] start where
  map := hMap
  size := hSize
  ram := rfl
  rom := rfl
  reads := by
    intro before address value behind hNone
    cases before <;> cases hNone

theorem ramSize
    (hCarried : Carried start traffic now) :
    now.ram.size = 0x0800 := by
  rw [hCarried.ram]
  exact (Ram.read_replay hCarried.size traffic 0).1

/- Whatever happens elsewhere on the board is no traffic. -/
theorem congr
    (hCarried : Carried start traffic now)
    {next : Board}
    (hMap : next.map = now.map)
    (hRam : next.ram = now.ram)
    (hProgram : next.program = now.program) :
    Carried start traffic next :=
  { hCarried with
    map := hMap.trans hCarried.map
    ram := hRam.trans hCarried.ram
    rom := by
      rw [hProgram]
      exact hCarried.rom }

/- One more access, which is answered as the board is. -/
theorem concat
    (hCarried : Carried start traffic now)
    {access : BusAccess}
    {next : Board}
    (hMap : next.map = now.map)
    (hRam : next.ram = now.ram.take access)
    (hRom : next.program.rom = now.program.rom)
    (hAnswer : ∀ address value,
      access = .read address value →
        value = (now.read address).1) :
    Carried start (traffic ++ [access]) next where
  map := hMap.trans hCarried.map
  size := hCarried.size
  ram := by
    unfold Ram.replay
    rw [List.foldl_concat, hRam, hCarried.ram]
    rfl
  rom := hRom.trans hCarried.rom
  reads := by
    intro before address value behind hTraffic
    -- The read is the new access, or it has been there before.
    rcases List.eq_nil_or_concat' behind with
      rfl | ⟨rest, last, rfl⟩
    · rcases List.append_inj' hTraffic rfl with
        ⟨rfl, hAccess⟩
      have hValue :=
        hAnswer address value (List.singleton_inj.mp hAccess)
      refine ⟨fun hMemory => ?_, fun hUpper => ?_⟩
      · rw [hValue, ← hCarried.ram,
          read_memory hCarried.map hCarried.ramSize hMemory]
      · rw [hValue, ← hCarried.rom]
        exact read_upper hCarried.map hUpper
    · rw [← List.cons_append, ← List.append_assoc] at hTraffic
      exact hCarried.reads before address value rest
        (List.append_inj' hTraffic rfl).1

theorem read
    (hCarried : Carried start traffic now)
    (address : UInt16) :
    Carried start
      (traffic ++ [.read address (now.read address).1])
      (now.read address).2 := by
  refine hCarried.concat (now.read_map address)
    (now.read_ram address) ?_ ?_
  · rw [read_program]
  · intro _ _ hRead
    cases hRead
    rfl

theorem write
    (hCarried : Carried start traffic now)
    (address : UInt16)
    (value : UInt8) :
    Carried start
      (traffic ++ [.write address value])
      (now.write address value) :=
  hCarried.concat (now.write_map address value)
    (write_memory hCarried.map hCarried.ramSize address value)
    (SameBuild.write now address value).rom nofun

/- What goes by on a recorded board is such traffic. -/
theorem computation
    {α : Type}
    {inside : UInt16 → Prop}
    {writes : Nat}
    {post : α → Prop}
    {computation : OnBus α}
    (hCarried : Carried start traffic now)
    (hWithin :
      OnBus.Within inside writes post computation) :
    let recorded :=
      computation (Recorded Board) { bus := now }
    computation Board now = (recorded.1, recorded.2.bus) ∧
      Carried start (traffic ++ recorded.2.accesses)
        recorded.2.bus := by
  refine ⟨hWithin.recorded now, ?_⟩
  refine hWithin.traffic
    (motive := fun board seen =>
      Carried start (traffic ++ seen) board) ?_ ?_ ?_
  · intro address board seen hHere
    rw [← List.append_assoc]
    exact hHere.read address
  · intro address value board seen hHere
    rw [← List.append_assoc]
    exact hHere.write address value
  · show Carried start (traffic ++ []) now
    rw [List.append_nil]
    exact hCarried

/- An address of memory reads as it was last written. -/
theorem read_last
    (hCarried : Carried start traffic now)
    {address : UInt16}
    (hAddress : address.toNat < 0x2000) :
    (now.read address).1 =
      (lastLeft? (BusAccess.leaves? address) traffic).getD
        (start.ram.read address) := by
  rw [read_memory hCarried.map hCarried.ramSize hAddress,
    hCarried.ram, (Ram.read_replay hCarried.size _ _).2]

/- So it does in the course of a computation. -/
theorem answer
    {α : Type}
    {inside : UInt16 → Prop}
    {writes : Nat}
    {post : α → Prop}
    {computation : OnBus α}
    (hCarried : Carried start traffic now)
    (hWithin : OnBus.Within inside writes post computation)
    (seen : List BusAccess)
    {address : UInt16}
    {value : UInt8}
    {rest : List BusAccess}
    (hHere :
      (computation (Recorded Board)
        { bus := now }).2.accesses =
          seen ++ .read address value :: rest)
    (hAddress : address.toNat < 0x2000) :
    value =
      (lastLeft? (BusAccess.leaves? address)
        (traffic ++ seen)).getD
          (start.ram.read address) := by
  have hReads := (hCarried.computation hWithin).2.reads
    (traffic ++ seen) address value rest
  rw [List.append_assoc] at hReads
  rw [(hReads (congrArg (traffic ++ ·) hHere)).1 hAddress,
    (Ram.read_replay hCarried.size _ _).2]

end Carried

end Board

end Famicom
