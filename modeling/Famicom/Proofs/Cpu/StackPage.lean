import Famicom.Proofs.Bus.Ram
import Famicom.Proofs.Cpu.Traffic
import Famicom.Proofs.Words

/-
  Buses whose page one is plain memory.

  On such a bus the stack is a function from places to bytes.
  Reading anywhere leaves it alone, and a push changes one
  place.  What a computation does to the stack is described
  by its result and by the bytes that it leaves there.

  Key definitions include:
    * `StackPage`
    * `Ram.stackPage`
    * `StackPage.Yields`
    * `StackPage.saveWord`

  Main declarations:
    * `StackPage.pushWord_yields`
    * `StackPage.pullWord_yields`
    * `StackPage.enterInterrupt_yields`
-/

namespace Famicom

------------------------------------------------------------
-- Pages
------------------------------------------------------------

/- The bus address of a place of the stack. -/
def stackAt (place : UInt8) : UInt16 :=
  Hardware.stackPage ||| place.toUInt16

/-
  What it means for page one of a bus to be plain memory.
  `Plain` holds of the states of the bus in which it is, and
  `cell` is the byte at a place.
-/
structure StackPage (β : Type) [AddressBus β] where
  Plain : β → Prop
  cell : β → UInt8 → UInt8
  plain_read : ∀ {bus} address, Plain bus →
    Plain (AddressBus.read address bus).2
  cell_read : ∀ {bus} address, Plain bus →
    cell (AddressBus.read address bus).2 = cell bus
  read_place : ∀ {bus} place, Plain bus →
    (AddressBus.read (stackAt place) bus).1 = cell bus place
  plain_write : ∀ {bus} place value, Plain bus →
    Plain (AddressBus.write (stackAt place) value bus).2
  cell_write : ∀ {bus} place value, Plain bus →
    cell (AddressBus.write (stackAt place) value bus).2 =
      Function.update (cell bus) place value

------------------------------------------------------------
-- Memory
------------------------------------------------------------

namespace Ram

variable {ram : Ram}

/- Two pages are enough for page one not to wrap around. -/
theorem cellOf_stackAt
    (hSize : 0x0200 ≤ ram.size)
    (place : UInt8) :
    ram.cellOf (stackAt place) = 256 + place.toNat := by
  have hPlace : place.toNat < 256 := place.toNat_lt
  unfold cellOf stackAt
  rw [Registers.toNat_stackPlace,
    Nat.mod_eq_of_lt (by omega)]

theorem read_write_stackAt
    (hSize : 0x0200 ≤ ram.size)
    (place other value : UInt8) :
    (ram.write (stackAt place) value).read (stackAt other) =
      if other = place then
        value
      else
        ram.read (stackAt other) := by
  have hPlaces :
      256 + place.toNat = 256 + other.toNat ↔
        other = place := by
    rw [← UInt8.toNat_inj]
    omega
  rw [read_write (by omega), cellOf_stackAt hSize,
    cellOf_stackAt hSize]
  exact if_congr hPlaces rfl rfl

/- Page one of memory with at least two pages. -/
def stackPage : StackPage Ram where
  Plain ram := 0x0200 ≤ ram.size
  cell ram place := ram.read (stackAt place)
  plain_read _ hPlain := hPlain
  cell_read _ _ := rfl
  read_place _ _ := rfl
  plain_write place value hPlain :=
    hPlain.trans_eq (size_write _ _ _).symm
  cell_write place value hPlain := by
    funext other
    rw [Function.update_apply]
    exact read_write_stackAt hPlain place other value

end Ram

------------------------------------------------------------
-- Computations
------------------------------------------------------------

namespace StackPage

variable {β α γ : Type} [AddressBus β]
variable (page : StackPage β)

/-
  The result of a computation has a property, and the bytes
  that it leaves on the stack are known.  The page stays
  plain.
-/
structure Yields
    (bus : β)
    (post : α → Prop)
    (cells : UInt8 → UInt8)
    (computation : StateM β α) : Prop where
  result : post (computation bus).1
  plain : page.Plain (computation bus).2
  cells : page.cell (computation bus).2 = cells

namespace Yields

variable {page}
variable {bus : β}
variable {post : α → Prop} {post' : γ → Prop}
variable {cells cells' : UInt8 → UInt8}
variable {computation : StateM β α}

theorem pure
    {result : α}
    (hPlain : page.Plain bus)
    (hCells : page.cell bus = cells)
    (hPost : post result) :
    page.Yields bus post cells (Pure.pure result) :=
  ⟨hPost, hPlain, hCells⟩

theorem read
    (hPlain : page.Plain bus)
    (address : UInt16) :
    page.Yields bus
      (· = (AddressBus.read address bus).1)
      (page.cell bus) (AddressBus.read address) :=
  ⟨rfl, page.plain_read address hPlain,
    page.cell_read address hPlain⟩

/- The second computation starts with the bytes of the first. -/
theorem bind
    {next : α → StateM β γ}
    (hFirst : page.Yields bus post cells computation)
    (hNext : ∀ result bus', post result →
      page.Plain bus' → page.cell bus' = cells →
        page.Yields bus' post' cells' (next result)) :
    page.Yields bus post' cells' (computation >>= next) :=
  have hLast :=
    hNext _ _ hFirst.result hFirst.plain hFirst.cells
  ⟨hLast.result, hLast.plain, hLast.cells⟩

theorem map
    (f : α → γ)
    (hYields : page.Yields bus post cells computation)
    (hPost : ∀ result, post result → post' (f result)) :
    page.Yields bus post' cells (f <$> computation) :=
  ⟨hPost _ hYields.result, hYields.plain, hYields.cells⟩

end Yields

------------------------------------------------------------
-- The Stack
------------------------------------------------------------

variable {page}
variable {bus : β}

/- A word at a place and the one below it, high byte first. -/
def saveWord
    (cells : UInt8 → UInt8)
    (place : UInt8)
    (value : UInt16) : UInt8 → UInt8 :=
  Function.update
    (Function.update cells place (Bits.highByte value))
    (place - 1) (Bits.lowByte value)

theorem push_yields
    (hPlain : page.Plain bus)
    (r : Registers)
    (value : UInt8) :
    page.Yields bus (· = { r with sp := r.sp - 1 })
      (Function.update (page.cell bus) r.sp value)
      (r.push value) :=
  ⟨rfl, page.plain_write r.sp value hPlain,
    page.cell_write r.sp value hPlain⟩

theorem pull_yields
    (hPlain : page.Plain bus)
    (r : Registers) :
    page.Yields bus
      (· = (page.cell bus (r.sp + 1),
        { r with sp := r.sp + 1 }))
      (page.cell bus) r.pull where
  result := Prod.ext (page.read_place (r.sp + 1) hPlain) rfl
  plain := page.plain_read _ hPlain
  cells := page.cell_read _ hPlain

theorem pushWord_yields
    (hPlain : page.Plain bus)
    (r : Registers)
    (value : UInt16) :
    page.Yields bus (· = { r with sp := r.sp - 1 - 1 })
      (saveWord (page.cell bus) r.sp value)
      (r.pushWord value) := by
  refine (push_yields hPlain r _).bind ?_
  rintro _ after rfl hAfter hCells
  unfold saveWord
  rw [← hCells]
  exact push_yields hAfter { r with sp := r.sp - 1 } _

theorem pullWord_yields
    (hPlain : page.Plain bus)
    (r : Registers) :
    page.Yields bus
      (· = (Bits.word (page.cell bus (r.sp + 1))
        (page.cell bus (r.sp + 1 + 1)),
        { r with sp := r.sp + 1 + 1 }))
      (page.cell bus) r.pullWord := by
  refine (pull_yields hPlain r).bind ?_
  rintro _ after rfl hAfter hCells
  rw [← hCells]
  refine (pull_yields hAfter
    { r with sp := r.sp + 1 }).bind ?_
  rintro _ last rfl hLast hCells
  exact .pure hLast hCells rfl

theorem readWord_yields
    (hPlain : page.Plain bus)
    (address : UInt16) :
    page.Yields bus (fun _ => True) (page.cell bus)
      (AddressBus.readWord address) := by
  refine (Yields.read hPlain address).bind ?_
  rintro _ after rfl hAfter hCells
  rw [← hCells]
  refine (Yields.read hAfter (address + 1)).bind ?_
  rintro _ last rfl hLast hCells
  exact .pure hLast hCells trivial

/-
  An interrupt saves an address and the status, and goes on
  somewhere with interrupts disabled.
-/
theorem enterInterrupt_yields
    (hPlain : page.Plain bus)
    (r : Registers)
    (vector returnAddress : UInt16)
    (software : Bool) :
    page.Yields bus
      (fun entered => ∃ target, entered =
        { r.putFlag .interruptDisable true with
          sp := r.sp - 1 - 1 - 1
          pc := target })
      (Function.update
        (saveWord (page.cell bus) r.sp returnAddress)
        (r.sp - 1 - 1) (r.status.toStack software))
      (r.enterInterrupt vector returnAddress software) := by
  refine (pushWord_yields hPlain r returnAddress).bind ?_
  rintro _ saved rfl hSaved hCells
  rw [← hCells]
  refine (push_yields hSaved
    { r with sp := r.sp - 1 - 1 } _).bind ?_
  rintro _ copied rfl hCopied hCells
  rw [← hCells]
  refine (readWord_yields hCopied vector).bind ?_
  rintro target last - hLast hCells
  exact .pure hLast hCells ⟨target, rfl⟩

------------------------------------------------------------
-- Saved Bytes
------------------------------------------------------------

variable {cells : UInt8 → UInt8} {place : UInt8}

/- Neighbouring places are different ones. -/
theorem sub_one_ne (place : UInt8) : place - 1 ≠ place := by
  intro hSame
  exact absurd (sub_eq_self.mp hSame) (by decide)

theorem sub_two_ne (place : UInt8) :
    place - 1 - 1 ≠ place := by
  intro hSame
  rw [sub_sub] at hSame
  exact absurd (sub_eq_self.mp hSame) (by decide)

/- A saved word is found in its two places. -/
theorem saveWord_low (value : UInt16) :
    saveWord cells place value (place - 1) =
      Bits.lowByte value :=
  Function.update_self _ _ _

theorem saveWord_high (value : UInt16) :
    saveWord cells place value place =
      Bits.highByte value := by
  unfold saveWord
  rw [Function.update_of_ne (sub_one_ne place).symm,
    Function.update_self]

end StackPage

end Famicom
