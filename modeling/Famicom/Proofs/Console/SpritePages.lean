import Famicom.Proofs.Console.Resetting
import Famicom.Proofs.Cpu.StoreTargets
import Famicom.Proofs.Histories
import Famicom.Proofs.Video.SpriteBytes

/-
  Pages that a board copies into sprite memory.

  The latch holds the page of the last request, and traffic
  that only makes requests leaves the rest of the board as it
  is.  Pages of memory and of the cartridge are read without
  any effect, so a copy takes them as they are.

  Key definitions include:
    * `BusAccess.requests?`
    * `Ppu.SameSprites`
    * `Board.SameMemory`
    * `Board.IsMemory`
    * `Board.pageBytes`
    * `Board.Transferred`

  Main declarations:
    * `Board.page_of_within`
    * `Board.kept_of_within`
    * `Board.copyBytesToOam_eq`
    * `Board.transferOam_eq`
    * `Board.transferOam_transferred`
-/

namespace Famicom

open BusAccess (WritesTo)

------------------------------------------------------------
-- Requests
------------------------------------------------------------

/- The page of which an access requests a transfer. -/
def BusAccess.requests? : BusAccess → Option UInt8
  | .read _ _ => none
  | .write address page =>
      if address = Hardware.oamDma then some page else none

theorem BusAccess.requests?_eq_some_iff
    {access : BusAccess}
    {page : UInt8} :
    access.requests? = some page ↔
      access = .write Hardware.oamDma page := by
  cases access with
  | read address value => simp [requests?]
  | write address value => simp [requests?]

/- The places and the address of the sprites are the same. -/
structure Ppu.SameSprites (old new : Ppu) : Prop where
  oam : new.oam = old.oam
  oamAddress :
    new.registers.oamAddress = old.registers.oamAddress

namespace Ppu

theorem SameSprites.refl (ppu : Ppu) : SameSprites ppu ppu :=
  ⟨rfl, rfl⟩

theorem SameSprites.trans
    {first second third : Ppu}
    (hFirst : SameSprites first second)
    (hSecond : SameSprites second third) :
    SameSprites first third where
  oam := hSecond.oam.trans hFirst.oam
  oamAddress := hSecond.oamAddress.trans hFirst.oamAddress

/- Reading registers leaves the sprites as they are. -/
theorem read_sameSprites
    (ppu : Ppu)
    (address : UInt16) :
    SameSprites ppu (ppu.read address).2 := by
  unfold read
  split <;> exact ⟨rfl, rfl⟩

end Ppu

namespace Board

variable {board : Board} {address : UInt16}

/- No other address leads to the latch. -/
theorem resolve_ne_oamDma
    (hAddress : address ≠ Hardware.oamDma) :
    (standardMap.resolve address).1 ≠ .oamDma := by
  have hRange : ∀ region ∈ regions,
      region.device = .oamDma →
        region.range = ⟨Hardware.oamDma, Hardware.oamDma⟩ := by
    decide
  rcases standardMap_builtOf.2.regionAt_spec address with
    ⟨hIn, hContains⟩
  intro hDevice
  rw [hRange _ hIn hDevice] at hContains
  rcases AddressRange.contains_iff.mp hContains with
    ⟨hFirst, hLast⟩
  exact hAddress (UInt16.le_antisymm hLast hFirst)

/- The latch holds the page that is written to it. -/
theorem write_page
    (hMap : board.map = standardMap)
    (address : UInt16)
    (value : UInt8) :
    (board.write address value).dma.page =
      (BusAccess.write address value).requests?.or
        board.dma.page := by
  unfold BusAccess.requests?
  dsimp only
  by_cases hAddress : address = Hardware.oamDma
  · rw [if_pos hAddress, hAddress, write_oamDma hMap]
    rfl
  · have hOther := resolve_ne_oamDma hAddress
    rw [if_neg hAddress]
    unfold write
    rw [hMap]
    dsimp only
    generalize standardMap.resolve address = target at hOther ⊢
    rcases target with ⟨device, place⟩
    cases device with
    | oamDma => exact (hOther rfl).elim
    | ram | ppu | silent | controllers | cartridge => rfl

/- What a board keeps while its memories are only read. -/
structure SameMemory (old new : Board) : Prop where
  map : new.map = old.map
  ram : new.ram = old.ram
  program : new.program = old.program

namespace SameMemory

theorem refl (board : Board) : SameMemory board board :=
  ⟨rfl, rfl, rfl⟩

theorem trans
    {first second third : Board}
    (hFirst : SameMemory first second)
    (hSecond : SameMemory second third) :
    SameMemory first third where
  map := hSecond.map.trans hFirst.map
  ram := hSecond.ram.trans hFirst.ram
  program := hSecond.program.trans hFirst.program

theorem read
    (board : Board)
    (address : UInt16) :
    SameMemory board (board.read address).2 :=
  ⟨read_map board address, read_ram board address,
    read_program board address⟩

end SameMemory

/- Reading leaves the sprites alone as well. -/
theorem read_sameSprites
    (board : Board)
    (address : UInt16) :
    Ppu.SameSprites board.ppu (board.read address).2.ppu := by
  rcases board.read_ppu address with hSame | ⟨place, hHere⟩
  · rw [hSame]
    exact .refl board.ppu
  · rw [hHere]
    exact board.ppu.read_sameSprites place

section Within

variable {α : Type}
variable {inside : UInt16 → Prop}
variable {writes : Nat}
variable {post : α → Prop}
variable {computation : OnBus α}

/- After some traffic it holds the page of the last request. -/
theorem page_of_within
    (hWithin : OnBus.Within inside writes post computation)
    (hMap : board.map = standardMap) :
    let recorded :=
      (computation (Recorded Board) { bus := board }).2
    recorded.bus.dma.page =
      (lastLeft? BusAccess.requests? recorded.accesses).or
        board.dma.page := by
  refine And.right (hWithin.traffic
    (motive := fun (bus : Board) seen =>
      bus.map = standardMap ∧
        bus.dma.page =
          (lastLeft? BusAccess.requests? seen).or
            board.dma.page)
    ?_ ?_ ⟨hMap, rfl⟩)
  · rintro address bus seen ⟨hHere, hPage⟩
    refine ⟨(bus.read_map address).trans hHere, ?_⟩
    rw [lastLeft?_concat]
    exact (congrArg OamDma.page (bus.read_dma address)).trans
      hPage
  · rintro address value bus seen ⟨hHere, hPage⟩
    refine ⟨(bus.write_map address value).trans hHere, ?_⟩
    rw [lastLeft?_concat, Option.or_assoc, ← hPage]
    exact write_page hHere address value

/- Traffic that writes nothing else leaves the rest alone. -/
theorem kept_of_within
    (hWithin : OnBus.Within inside writes post computation)
    (hMap : board.map = standardMap) :
    let recorded :=
      (computation (Recorded Board) { bus := board }).2
    WritesTo (· = Hardware.oamDma) recorded.accesses →
      SameMemory board recorded.bus ∧
        Ppu.SameSprites board.ppu recorded.bus.ppu := by
  refine hWithin.traffic
    (motive := fun (bus : Board) seen =>
      WritesTo (· = Hardware.oamDma) seen →
        SameMemory board bus ∧
          Ppu.SameSprites board.ppu bus.ppu)
    ?_ ?_ fun _ => ⟨.refl board, .refl board.ppu⟩
  · intro address bus seen hHere hWrites
    rw [BusAccess.writesTo_append] at hWrites
    rcases hHere hWrites.1 with ⟨hMemory, hSprites⟩
    exact ⟨hMemory.trans (.read bus address),
      hSprites.trans (bus.read_sameSprites address)⟩
  · intro address value bus seen hHere hWrites
    rw [BusAccess.writesTo_append,
      BusAccess.writesTo_write_cons] at hWrites
    rcases hWrites with ⟨hBefore, rfl, -⟩
    rcases hHere hBefore with ⟨hMemory, hSprites⟩
    have hWrite :
        (AddressBus.write Hardware.oamDma value bus).2 =
          { bus with dma := bus.dma.request value } :=
      write_oamDma (hMemory.map.trans hMap) value
    rw [hWrite]
    exact ⟨hMemory.trans ⟨rfl, rfl, rfl⟩, hSprites⟩

end Within

------------------------------------------------------------
-- Copies
------------------------------------------------------------

/- The addresses of memory and of the cartridge. -/
def IsMemory (address : UInt16) : Prop :=
  address.toNat < 0x2000 ∨ 0x4020 ≤ address.toNat

/-
  Reading there has no effect, and what is read follows from
  the memories.
-/
theorem SameMemory.read_eq
    {old new : Board}
    (hSame : SameMemory old new)
    (hMap : old.map = standardMap)
    (hMemory : IsMemory address) :
    new.read address = ((old.read address).1, new) := by
  have hNew := hSame.map.trans hMap
  rcases hMemory with hRam | hCartridge
  · unfold Board.read
    rw [hMap, hNew, resolve_ram hRam, hSame.ram]
  · have hHere : Hardware.cartridgeStart ≤ address :=
      UInt16.le_iff_toNat_le.mpr hCartridge
    rw [read_cartridge hMap hHere, read_cartridge hNew hHere,
      hSame.program]

theorem add_ofNat_succ
    (address : UInt16)
    (index : Nat) :
    address + .ofNat (index + 1) =
      address + 1 + .ofNat index := by
  rw [Nat.add_comm, UInt16.ofNat_add, ← UInt16.add_assoc]
  rfl

/- The bytes at a number of addresses from one on. -/
def bytesFrom
    (board : Board)
    (address : UInt16)
    (count : Nat) : List UInt8 :=
  (List.range count).map fun index =>
    (board.read (address + .ofNat index)).1

theorem length_bytesFrom
    (board : Board)
    (address : UInt16)
    (count : Nat) :
    (board.bytesFrom address count).length = count := by
  simp [bytesFrom]

theorem getElem_bytesFrom
    (board : Board)
    (address : UInt16)
    {count index : Nat}
    (hIndex :
      index < (board.bytesFrom address count).length) :
    (board.bytesFrom address count)[index] =
      (board.read (address + .ofNat index)).1 := by
  simp [bytesFrom]

theorem bytesFrom_succ
    (board : Board)
    (address : UInt16)
    (count : Nat) :
    board.bytesFrom address (count + 1) =
      (board.read address).1 ::
        board.bytesFrom (address + 1) count := by
  unfold bytesFrom
  rw [List.range_succ_eq_map, List.map_cons, List.map_map]
  refine congrArg₂ List.cons ?_ (List.map_congr_left ?_)
  · show (board.read (address + 0)).1 = _
    rw [UInt16.add_zero]
  · intro index _
    exact congrArg (fun place => (board.read place).1)
      (add_ofNat_succ address index)

theorem SameMemory.bytesFrom
    {old new : Board}
    (hSame : SameMemory old new)
    (hMap : old.map = standardMap)
    {count : Nat}
    (hMemory : ∀ index < count,
      IsMemory (address + .ofNat index)) :
    new.bytesFrom address count =
      old.bytesFrom address count := by
  refine List.map_congr_left fun index hIndex => ?_
  have hHere := hMemory index (List.mem_range.mp hIndex)
  rw [hSame.read_eq hMap hHere]

/- Memory that is copied goes to sprite memory in order. -/
theorem copyBytesToOam_eq
    (hMap : board.map = standardMap)
    (count : Nat)
    (hMemory : ∀ index < count,
      IsMemory (address + .ofNat index)) :
    board.copyBytesToOam address count =
      { board with
        ppu := board.ppu.after
          ((board.bytesFrom address count).map .writeOam) } := by
  induction count generalizing board address with
  | zero => rfl
  | succ count ih =>
      have hHere : IsMemory (address + 0) :=
        hMemory 0 (Nat.zero_lt_succ count)
      rw [UInt16.add_zero] at hHere
      have hRest : ∀ index < count,
          IsMemory (address + 1 + .ofNat index) := by
        intro index hIndex
        rw [← add_ofNat_succ]
        exact hMemory (index + 1) (Nat.succ_lt_succ hIndex)
      let copied : Board :=
        { board with
          ppu := board.ppu.writeOam (board.read address).1 }
      have hRead :
          board.read address =
            ((board.read address).1, board) :=
        (SameMemory.refl board).read_eq hMap hHere
      have hCopied : board.copyToOam address = copied := by
        unfold copyToOam
        rw [hRead]
      have hSame : SameMemory board copied := ⟨rfl, rfl, rfl⟩
      have hCopiedMap : copied.map = standardMap := hMap
      show (board.copyToOam address).copyBytesToOam
        (address + 1) count = _
      rw [hCopied, ih hCopiedMap hRest,
        hSame.bytesFrom hMap hRest, bytesFrom_succ]
      rfl

------------------------------------------------------------
-- Pages
------------------------------------------------------------

/- The bytes of a page. -/
def pageBytes
    (board : Board)
    (page : UInt8) : List UInt8 :=
  board.bytesFrom (Bits.word 0 page) 256

theorem length_pageBytes
    (board : Board)
    (page : UInt8) :
    (board.pageBytes page).length = 256 :=
  length_bytesFrom board _ 256

theorem word_add
    (page : UInt8)
    (index : Nat) :
    Bits.word 0 page + .ofNat index =
      .ofNat (256 * page.toNat + index) := by
  rw [UInt16.ofNat_add]
  refine congrArg (· + _) (UInt16.toNat_inj.mp ?_)
  have hPage := page.toNat_lt
  rw [Bits.toNat_word, UInt16.toNat_ofNat']
  show 256 * page.toNat + 0 = 256 * page.toNat % 65536
  omega

theorem isMemory_of_page
    {page : UInt8}
    (hPage : page.toNat < 0x20 ∨ 0x41 ≤ page.toNat)
    (index : Nat)
    (hIndex : index < 256) :
    IsMemory (Bits.word 0 page + .ofNat index) := by
  have hBelow := page.toNat_lt
  have hPlace :
      (UInt16.ofNat (256 * page.toNat + index)).toNat =
        256 * page.toNat + index := by
    rw [UInt16.toNat_ofNat']
    exact Nat.mod_eq_of_lt (by omega)
  unfold IsMemory
  rw [word_add, hPlace]
  omega

/- A page of memory is copied and the request forgotten. -/
theorem transferOam_eq
    (hMap : board.map = standardMap)
    {page : UInt8}
    (hPage : page.toNat < 0x20 ∨ 0x41 ≤ page.toNat)
    (hPending : board.dma.page = some page)
    (startCycle : Nat) :
    board.transferOam startCycle =
      (513 + startCycle % 2,
        { board with
          dma := {}
          ppu := board.ppu.after
            ((board.pageBytes page).map .writeOam) }) := by
  let taken : Board := { board with dma := {} }
  have hSame : SameMemory board taken := ⟨rfl, rfl, rfl⟩
  have hMemory := isMemory_of_page hPage
  have hTaken : taken.map = standardMap := hMap
  have hCopied := copyBytesToOam_eq hTaken 256 hMemory
  unfold transferOam OamDma.take
  rw [hPending]
  dsimp only
  rw [hCopied, hSame.bytesFrom hMap hMemory]
  rfl

/- Each byte has gone to its place, after a whole round. -/
theorem read_after_pageBytes
    (board : Board)
    (page : UInt8)
    {index : Nat}
    (hIndex : index < 256) :
    let place := board.ppu.registers.oamAddress.toNat + index
    let source := UInt16.ofNat (256 * page.toNat + index)
    let byte := (board.read source).1
    let moved := board.ppu.after
      ((board.pageBytes page).map .writeOam)
    moved.oam.read (.ofNat (place % 256)) =
      if place % 4 = 2 then byte &&& 0xE3 else byte := by
  intro place source byte moved
  have hLength := board.length_pageBytes page
  have hHere : index < (board.pageBytes page).length :=
    hLength.symm ▸ hIndex
  have hByte : (board.pageBytes page)[index] = byte := by
    refine (getElem_bytesFrom board _ hHere).trans ?_
    rw [word_add]
  have hRead :=
    board.ppu.read_after_writeOam hLength.le hHere
  rw [hByte] at hRead
  exact hRead

theorem oamAddress_after_pageBytes
    (board : Board)
    (page : UInt8) :
    let moved := board.ppu.after
      ((board.pageBytes page).map .writeOam)
    moved.registers.oamAddress =
      board.ppu.registers.oamAddress := by
  intro moved
  rcases board.ppu.after_writeOam (board.pageBytes page) with
    ⟨oam, hMoved⟩
  show (board.ppu.after _).registers.oamAddress = _
  rw [hMoved, length_pageBytes]
  exact UInt8.add_zero _

/-
  What a transfer does to a board.  The bytes of the page are
  in sprite memory, in a round that starts at the address of
  the sprites and comes back to it.  The memories are as they
  were, and no request is left.
-/
structure Transferred
    (page : UInt8)
    (old new : Board) : Prop where
  sprites : ∀ index < 256,
    let place := old.ppu.registers.oamAddress.toNat + index
    let source := UInt16.ofNat (256 * page.toNat + index)
    let byte := (old.read source).1
    new.ppu.oam.read (.ofNat (place % 256)) =
      if place % 4 = 2 then byte &&& 0xE3 else byte
  oamAddress :
    new.ppu.registers.oamAddress =
      old.ppu.registers.oamAddress
  memory : SameMemory old new
  latch : new.dma.page = none

theorem transferOam_transferred
    (hMap : board.map = standardMap)
    {page : UInt8}
    (hPage : page.toNat < 0x20 ∨ 0x41 ≤ page.toNat)
    (hPending : board.dma.page = some page)
    (startCycle : Nat) :
    (board.transferOam startCycle).1 = 513 + startCycle % 2 ∧
      Transferred page board
        (board.transferOam startCycle).2 := by
  rw [transferOam_eq hMap hPage hPending]
  exact ⟨rfl,
    { sprites := fun index => board.read_after_pageBytes page
      oamAddress := board.oamAddress_after_pageBytes page
      memory := ⟨rfl, rfl, rfl⟩
      latch := rfl }⟩

/- Nothing else that leaves the sprites alone undoes that. -/
theorem Transferred.congr
    {page : UInt8}
    {old new next : Board}
    (hDone : Transferred page old new)
    (hMemory : SameMemory new next)
    (hSprites : Ppu.SameSprites new.ppu next.ppu)
    (hLatch : next.dma = new.dma) :
    Transferred page old next where
  sprites := hSprites.oam ▸ hDone.sprites
  oamAddress := hSprites.oamAddress.trans hDone.oamAddress
  memory := hDone.memory.trans hMemory
  latch := hLatch ▸ hDone.latch

end Board

end Famicom
