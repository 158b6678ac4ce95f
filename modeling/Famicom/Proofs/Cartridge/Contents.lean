import Famicom.Proofs.Bus.Ram
import Famicom.Proofs.Cartridge.Accepted
import Famicom.Proofs.Histories

/-
  What a cartridge holds, whatever has been asked of it.

  A cartridge is asked from three sides.  The processor gives
  addresses of its own or distances in the window to which the
  cartridge is attached, and the picture unit gives addresses
  of the pattern tables.  The program never changes, and
  neither do given patterns.  The memory beside the program
  repeats itself in its quarter of the address space.

  Key definitions include:
    * `Cartridge.Side`
    * `Cartridge.Request`
    * `Cartridge.after`
    * `Cartridge.MadeOf`
    * `Cartridge.Answers`

  Main declarations:
    * `ProgramMemory.getElem?_rom`
    * `ProgramMemory.getElem?_ram`
    * `ProgramMemory.read_write_window`
    * `Cartridge.MadeOf.after`
    * `Cartridge.read_window_after`
    * `Cartridge.answers_after`
    * `Cartridge.board_accepts_and_answers`
-/

namespace Famicom

------------------------------------------------------------
-- Program Memory
------------------------------------------------------------

namespace ProgramMemory

variable {program : ProgramMemory}
variable {address : UInt16}

/- The window of the memory is the quarter from 0x6000 on. -/
theorem isRamAddress_iff (address : UInt16) :
    isRamAddress address = true ↔
      0x6000 ≤ address.toNat ∧ address.toNat < 0x8000 := by
  unfold isRamAddress
  rw [Bool.and_eq_true, decide_eq_true_iff,
    decide_eq_true_iff, UInt16.le_iff_toNat_le,
    UInt16.le_iff_toNat_le]
  exact and_congr_right fun _ => Nat.lt_succ_iff.symm

/- The upper half of the address space reads the program. -/
theorem getElem?_rom
    (hUpper : 0x8000 ≤ address.toNat) :
    program.rom[(address.toNat - 0x8000) %
        program.rom.size]? =
      some (program.read address) := by
  have hHere : Hardware.cartridgeRomStart ≤ address :=
    UInt16.le_iff_toNat_le.mpr hUpper
  have hPlace :
      (address - Hardware.cartridgeRomStart).toNat =
        address.toNat - 0x8000 :=
    UInt16.toNat_sub_of_le _ _ hHere
  unfold read romByte
  rw [if_pos hHere]
  simp only [hPlace]
  exact Array.getElem?_eq_getElem _

/- Below the window of the memory nothing answers. -/
theorem read_below
    (hBelow : address.toNat < 0x6000) :
    program.read address = 0 := by
  have hUpper : ¬Hardware.cartridgeRomStart ≤ address := by
    rw [UInt16.le_iff_toNat_le, not_le]
    exact hBelow.trans (by decide)
  have hWindow : ¬isRamAddress address = true := by
    rw [isRamAddress_iff]
    omega
  unfold read
  rw [if_neg hUpper, if_neg hWindow]

/-
  Memory of a size that goes into the start of the window
  selects its cells by the whole address.
-/
theorem cellOf_window
    (hFirst : 0x6000 ≤ address.toNat)
    (hSize : program.ram.size ∣ 0x6000) :
    program.ram.cellOf
        (address - Hardware.cartridgeRamStart) =
      address.toNat % program.ram.size := by
  have hHere : Hardware.cartridgeRamStart ≤ address :=
    UInt16.le_iff_toNat_le.mpr hFirst
  have hPlace :
      (address - Hardware.cartridgeRamStart).toNat =
        address.toNat - 0x6000 :=
    UInt16.toNat_sub_of_le _ _ hHere
  unfold Ram.cellOf
  rw [hPlace]
  exact (Nat.modEq_iff_dvd' (Nat.sub_le _ _)).mpr (by
    rw [Nat.sub_sub_self hFirst]
    exact hSize)

section Window

variable
  (hFirst : 0x6000 ≤ address.toNat)
  (hLast : address.toNat < 0x8000)

include hFirst hLast

/- The window reads the memory. -/
theorem read_window :
    program.read address =
      program.ram.read
        (address - Hardware.cartridgeRamStart) := by
  have hUpper : ¬Hardware.cartridgeRomStart ≤ address := by
    rw [UInt16.le_iff_toNat_le, not_le]
    exact hLast
  unfold read
  rw [if_neg hUpper,
    if_pos ((isRamAddress_iff address).mpr ⟨hFirst, hLast⟩)]

theorem getElem?_ram
    (hSize : program.ram.size ∣ 0x6000) :
    program.ram.cells[address.toNat % program.ram.size]? =
      some (program.read address) := by
  have hInside :
      address.toNat % program.ram.size <
        program.ram.cells.size :=
    Nat.mod_lt _ (Nat.pos_of_dvd_of_pos hSize (by decide))
  rw [read_window hFirst hLast]
  unfold Ram.read
  rw [cellOf_window hFirst hSize,
    Array.getElem?_eq_getElem hInside]
  simp [Array.getD, hInside]

/- A byte of the window is written at all its repetitions. -/
theorem read_write_window
    (hSize : program.ram.size ∣ 0x6000)
    (target : UInt16)
    (value : UInt8) :
    (program.write target value).read address =
      if (0x6000 ≤ target.toNat ∧ target.toNat < 0x8000) ∧
          target.toNat ≡ address.toNat
            [MOD program.ram.size] then
        value
      else
        program.read address := by
  have hPositive : 0 < program.ram.size :=
    Nat.pos_of_dvd_of_pos hSize (by decide)
  unfold write
  by_cases hTarget : isRamAddress target = true
  · have hWithin := (isRamAddress_iff target).mp hTarget
    rw [if_pos hTarget, read_window hFirst hLast,
      read_window hFirst hLast,
      Ram.read_write hPositive,
      cellOf_window hWithin.1 hSize,
      cellOf_window hFirst hSize]
    simp only [hWithin, true_and, and_self]
    rfl
  · rw [if_neg hTarget, if_neg]
    rintro ⟨hWithin, -⟩
    exact hTarget ((isRamAddress_iff target).mpr hWithin)

end Window

/- Without cells the memory reads as 0. -/
theorem read_of_no_cells
    (hSize : program.ram.size = 0)
    (hLower : address.toNat < 0x8000) :
    program.read address = 0 := by
  have hNone (place : UInt16) :
      program.ram.read place = 0 := by
    unfold Ram.read
    rw [Array.getD_eq_getD_getElem?, Array.getElem?_eq_none]
    · rfl
    · exact hSize.trans_le (Nat.zero_le _)
  rcases Nat.lt_or_ge address.toNat 0x6000 with
    hBelow | hFirst
  · exact read_below hBelow
  · rw [read_window hFirst hLower, hNone]

@[simp] theorem write_rom
    (program : ProgramMemory)
    (target : UInt16)
    (value : UInt8) :
    (program.write target value).rom = program.rom := by
  unfold write
  split <;> rfl

@[simp] theorem size_ram_write
    (program : ProgramMemory)
    (target : UInt16)
    (value : UInt8) :
    (program.write target value).ram.size =
      program.ram.size := by
  unfold write
  split
  · exact Ram.size_write _ _ _
  · rfl

end ProgramMemory

------------------------------------------------------------
-- Pattern Memory
------------------------------------------------------------

namespace PatternMemory

theorem getElem?_cells
    (patterns : PatternMemory)
    (address : UInt16) :
    patterns.cells.toArray[address.toNat % 0x2000]? =
      some (patterns.read address) :=
  Array.getElem?_eq_getElem _

theorem write_of_fixed
    {patterns : PatternMemory}
    (hFixed : patterns.writable = false)
    (address : UInt16)
    (value : UInt8) :
    patterns.write address value = patterns := by
  unfold write
  rw [if_neg (Bool.eq_false_iff.mp hFixed)]

end PatternMemory

------------------------------------------------------------
-- Requests
------------------------------------------------------------

namespace Cartridge

/- From where a cartridge is asked for something. -/
inductive Side where
  | processor
  | window
  | patterns
deriving DecidableEq

/- The processor address that is meant, if it is one. -/
def Side.programAddress? : Side → UInt16 → Option UInt16
  | processor, address => some address
  | window, distance =>
      some (ProgramMemory.cartridgeAddress distance)
  | patterns, _ => none

/- What is asked of a cartridge. -/
inductive Request where
  | read (side : Side) (address : UInt16)
  | write (side : Side) (address : UInt16) (value : UInt8)

/- The byte at an address. -/
def read
    (cartridge : Cartridge)
    (side : Side)
    (address : UInt16) : UInt8 :=
  match side with
  | .processor => cartridge.program.read address
  | .window =>
      cartridge.program.read
        (ProgramMemory.cartridgeAddress address)
  | .patterns => cartridge.patterns.read address

/- Store a byte at an address. -/
def write
    (cartridge : Cartridge)
    (side : Side)
    (address : UInt16)
    (value : UInt8) : Cartridge :=
  match side with
  | .processor =>
      { cartridge with
        program := cartridge.program.write address value }
  | .window =>
      { cartridge with
        program :=
          cartridge.program.write
            (ProgramMemory.cartridgeAddress address) value }
  | .patterns =>
      { cartridge with
        patterns := cartridge.patterns.write address value }

/- Only writes change anything. -/
def perform
    (cartridge : Cartridge) : Request → Cartridge
  | .read _ _ => cartridge
  | .write side address value =>
      cartridge.write side address value

/- The cartridge after a sequence of requests. -/
def after
    (cartridge : Cartridge)
    (requests : List Request) : Cartridge :=
  requests.foldl perform cartridge

/-
  The byte that a request leaves at an address of the window,
  which repeats memory of a given size.
-/
def Request.leaves?
    (size : Nat)
    (address : UInt16) : Request → Option UInt8
  | .read _ _ => none
  | .write side place value =>
      (side.programAddress? place).bind fun target =>
        if (0x6000 ≤ target.toNat ∧ target.toNat < 0x8000) ∧
            target.toNat ≡ address.toNat [MOD size] then
          some value
        else
          none

variable {image : CartridgeImage}
variable {cartridge : Cartridge}

/- What is read through a side is what is at the address. -/
theorem read_of_programAddress?
    {side : Side}
    {place address : UInt16}
    (hPlace : side.programAddress? place = some address) :
    cartridge.read side place =
      cartridge.program.read address := by
  cases side <;> cases hPlace <;> rfl

/-
  A cartridge that may have been made of an image some time
  ago: what the image fixes has not changed.
-/
structure MadeOf
    (image : CartridgeImage)
    (cartridge : Cartridge) : Prop where
  rom : cartridge.program.rom = image.programRom
  ramSize : cartridge.program.ram.size = image.programRamSize
  patterns : ∀ contents, image.graphics = .rom contents →
    cartridge.patterns.writable = false ∧
      cartridge.patterns.cells.toArray = contents

namespace MadeOf

theorem ofImage
    (hAccepted : Cartridge.ofImage image = .ok cartridge) :
    MadeOf image cartridge := by
  rcases program_of_ofImage hAccepted with ⟨hRom, hRam⟩
  refine ⟨hRom, ?_, ?_⟩
  · rw [hRam, Ram.size_filled]
  · intro contents hGraphics
    have hMade := (parts_of_ofImage hAccepted).1
    rw [hGraphics] at hMade
    unfold patternsOf? at hMade
    dsimp only at hMade
    split at hMade
    · rw [← Option.some.inj hMade]
      exact ⟨rfl, rfl⟩
    · cases hMade

theorem write
    (hMade : MadeOf image cartridge)
    (side : Side)
    (address : UInt16)
    (value : UInt8) :
    MadeOf image (cartridge.write side address value) := by
  cases side with
  | processor =>
      exact ⟨(ProgramMemory.write_rom ..).trans hMade.rom,
        (ProgramMemory.size_ram_write ..).trans hMade.ramSize,
        hMade.patterns⟩
  | window =>
      exact ⟨(ProgramMemory.write_rom ..).trans hMade.rom,
        (ProgramMemory.size_ram_write ..).trans hMade.ramSize,
        hMade.patterns⟩
  | patterns =>
      refine ⟨hMade.rom, hMade.ramSize, ?_⟩
      intro contents hGraphics
      have hFixed := hMade.patterns contents hGraphics
      have hSame := PatternMemory.write_of_fixed hFixed.1
        address value
      unfold Cartridge.write
      dsimp only
      rw [hSame]
      exact hFixed

theorem perform
    (hMade : MadeOf image cartridge)
    (request : Request) :
    MadeOf image (cartridge.perform request) := by
  cases request with
  | read side address => exact hMade
  | write side address value =>
      exact hMade.write side address value

/- The program is the image's, and repeats if it is short. -/
theorem getElem?_rom
    (hMade : MadeOf image cartridge)
    {address : UInt16}
    (hUpper : 0x8000 ≤ address.toNat) :
    image.programRom[(address.toNat - 0x8000) %
        image.programRom.size]? =
      some (cartridge.program.read address) := by
  have hHere := cartridge.program.getElem?_rom hUpper
  rw [hMade.rom] at hHere
  exact hHere

/- One request leaves its byte in the window, or nothing. -/
theorem read_perform
    (hMade : MadeOf image cartridge)
    (hSize : image.programRamSize ∣ 0x6000)
    {address : UInt16}
    (hFirst : 0x6000 ≤ address.toNat)
    (hLast : address.toNat < 0x8000)
    (request : Request) :
    (cartridge.perform request).program.read address =
      (request.leaves? image.programRamSize address).getD
        (cartridge.program.read address) := by
  rw [← hMade.ramSize] at hSize ⊢
  have hWrite (target : UInt16) (value : UInt8) :=
    cartridge.program.read_write_window hFirst hLast hSize
      target value
  cases request with
  | read side place => rfl
  | write side place value =>
      cases side with
      | patterns => rfl
      | processor =>
          refine (hWrite place value).trans ?_
          unfold Request.leaves? Side.programAddress?
          dsimp only [Option.bind]
          split <;> rfl
      | window =>
          refine (hWrite _ value).trans ?_
          unfold Request.leaves? Side.programAddress?
          dsimp only [Option.bind]
          split <;> rfl

theorem after
    (hMade : MadeOf image cartridge)
    (requests : List Request) :
    MadeOf image (cartridge.after requests) := by
  unfold Cartridge.after
  induction requests generalizing cartridge with
  | nil => exact hMade
  | cons request rest ih => exact ih (hMade.perform request)

end MadeOf

/- The sizes of memory that a board can use fit the window. -/
theorem size_dvd_window
    {size : Nat}
    (hSize : size = 0 ∨ ∃ k, size = 2 ^ k ∧ size ≤ 0x2000)
    (hSome : size ≠ 0) :
    size ∣ 0x6000 := by
  rcases hSize with hNone | ⟨k, rfl, hSmall⟩
  · exact (hSome hNone).elim
  · have hExponent : k ≤ 13 :=
      (Nat.pow_le_pow_iff_right (by decide : 1 < 2)).mp
        hSmall
    exact (pow_dvd_pow 2 hExponent).trans (by decide)

/- The last byte that was written to a cell is still there. -/
theorem read_window_after
    (hAccepted : ofImage image = .ok cartridge)
    (hSome : image.programRamSize ≠ 0)
    (hSize : image.programRamSize ∣ 0x6000)
    {address : UInt16}
    (hFirst : 0x6000 ≤ address.toNat)
    (hLast : address.toNat < 0x8000)
    (requests : List Request) :
    (cartridge.after requests).program.read address =
      (lastLeft? (Request.leaves? image.programRamSize address)
        requests).getD 0 := by
  have hStart : cartridge.program.read address = 0 := by
    rw [cartridge.program.read_window hFirst hLast,
      (program_of_ofImage hAccepted).2,
      Ram.read_filled (Nat.pos_of_ne_zero hSome)]
  have hShows := shows_foldl
    (fun cartridge => cartridge.program.read address)
    (MadeOf image)
    (fun _ request hHere => hHere.perform request)
    (fun _ request hHere =>
      hHere.read_perform hSize hFirst hLast request)
    (MadeOf.ofImage hAccepted) requests
  rw [hStart] at hShows
  exact hShows.2

------------------------------------------------------------
-- Answers
------------------------------------------------------------

/-
  How a cartridge of an image answers after requests.  Every
  byte comes from a cell that exists, unless nothing answers
  at all.
-/
structure Answers
    (image : CartridgeImage)
    (requests : List Request)
    (now : Cartridge) : Prop where
  program : ∀ side place address,
    side.programAddress? place = some address →
    0x8000 ≤ address.toNat →
      image.programRom[(address.toNat - 0x8000) %
          image.programRom.size]? =
        some (now.read side place)
  window : ∀ side place address,
    side.programAddress? place = some address →
    0x6000 ≤ address.toNat → address.toNat < 0x8000 →
    image.programRamSize ≠ 0 →
      now.read side place =
          (lastLeft?
            (Request.leaves? image.programRamSize address)
            requests).getD 0 ∧
        now.program.ram.cells[address.toNat %
            image.programRamSize]? =
          some (now.read side place)
  without : ∀ side place address,
    side.programAddress? place = some address →
    address.toNat < 0x8000 →
    image.programRamSize = 0 →
      now.read side place = 0
  below : ∀ side place address,
    side.programAddress? place = some address →
    address.toNat < 0x6000 →
      now.read side place = 0
  patterns : ∀ address : UInt16,
    now.patterns.cells.toArray[address.toNat % 0x2000]? =
      some (now.read .patterns address)
  fixed : ∀ contents, image.graphics = .rom contents →
    now.patterns.cells.toArray = contents

theorem answers_after
    (hAccepted : ofImage image = .ok cartridge)
    (requests : List Request) :
    Answers image requests (cartridge.after requests) := by
  have hMade := (MadeOf.ofImage hAccepted).after requests
  have hDemands := ofImage_isOk_iff.mp ⟨cartridge, hAccepted⟩
  have hSize := size_dvd_window
    (hDemands _ (List.mem_of_getElem? (i := 4) rfl))
  constructor
  case program =>
    intro side place address hPlace hUpper
    rw [read_of_programAddress? hPlace]
    exact hMade.getElem?_rom hUpper
  case window =>
    intro side place address hPlace hFirst hLast hSome
    rw [read_of_programAddress? hPlace]
    refine ⟨read_window_after hAccepted hSome (hSize hSome)
      hFirst hLast requests, ?_⟩
    let program := (cartridge.after requests).program
    have hCell := program.getElem?_ram hFirst hLast
      (hMade.ramSize ▸ hSize hSome)
    rw [hMade.ramSize] at hCell
    exact hCell
  case without =>
    intro side place address hPlace hLower hNone
    rw [read_of_programAddress? hPlace]
    exact ProgramMemory.read_of_no_cells
      (hMade.ramSize.trans hNone) hLower
  case below =>
    intro side place address hPlace hBelow
    rw [read_of_programAddress? hPlace]
    exact ProgramMemory.read_below hBelow
  case patterns =>
    exact PatternMemory.getElem?_cells _
  case fixed =>
    intro contents hGraphics
    exact (hMade.patterns contents hGraphics).2

/-
  An image is accepted exactly if it is for board 0, has one
  or two banks of program and 8 kB of patterns, and asks for
  no memory or for a power of two up to 8 kB.  Any other one
  is refused with the fault of the first check that fails.

  Whatever is asked of the cartridge of an accepted image, the
  upper half of the address space reads the program of the
  image.  Below it is the window of the memory, which reads
  what was last written to an address that is the same up to
  multiples of the size.  Nothing else answers the processor.
  Given patterns stay as they are, and all answers come from
  cells that exist.
-/
theorem board_accepts_and_answers (image : CartridgeImage) :
    ((∃ cartridge, ofImage image = .ok cartridge) ↔
      image.board = 0 ∧
      (image.programRom.size = 0x4000 ∨
        image.programRom.size = 0x8000) ∧
      image.graphics.size = 0x2000 ∧
      (image.programRamSize = 0 ∨
        ∃ k, image.programRamSize = 2 ^ k ∧
          image.programRamSize ≤ 0x2000)) ∧
    (∀ fault,
      ofImage image = .error fault ↔
        CartridgeImage.FirstUnmet image.demands fault) ∧
    ∀ cartridge, ofImage image = .ok cartridge →
      ∀ requests,
        Answers image requests (cartridge.after requests) := by
  refine ⟨?_, fun fault => ofImage_eq_error_iff,
    fun cartridge => answers_after⟩
  rw [ofImage_isOk_iff]
  unfold CartridgeImage.demands
  simp only [List.forall_mem_cons, List.not_mem_nil,
    IsEmpty.forall_iff, implies_true, and_true]
  refine ⟨fun hAll => hAll.2, fun hAll => ⟨?_, hAll⟩⟩
  have hRom := hAll.2.1
  omega

/-
  Memory of 2 kB appears four times in its window, and given
  patterns take no writes.
-/
theorem answers_of_repeated_memory :
    let image : CartridgeImage :=
      { programRom := Array.replicate 0x4000 0xEA
        graphics := .rom (Array.replicate 0x2000 0x11)
        programRamSize := 0x0800 }
    let requests : List Request :=
      [.write .processor 0x6005 0xAA,
        .write .window 0x37E5 0x42,
        .read .processor 0x6805,
        .write .processor 0xC123 0x00,
        .write .patterns 0x0003 0xFF]
    ∃ cartridge,
      ofImage image = .ok cartridge ∧
        let now := cartridge.after requests
        now.read .processor 0x7005 = 0x42 ∧
          now.read .window 0x2FE6 = 0x00 ∧
          now.read .processor 0xC123 = 0xEA ∧
          now.read .patterns 0x2003 = 0x11 := by
  intro image requests
  rcases board_accepts_and_answers image with
    ⟨hAccepts, -, hAnswers⟩
  rcases hAccepts.mpr ⟨rfl, Or.inl Array.size_replicate,
    Array.size_replicate, Or.inr ⟨11, by decide⟩⟩ with
    ⟨cartridge, hCartridge⟩
  have hHere := hAnswers cartridge hCartridge requests
  have hWritten := (hHere.window .processor 0x7005 0x7005 rfl
    (by decide) (by decide) (by decide)).1
  have hUntouched := (hHere.window .window 0x2FE6 0x7006 rfl
    (by decide) (by decide) (by decide)).1
  have hProgram := hHere.program .processor 0xC123 0xC123 rfl
    (by decide)
  have hPatterns := hHere.patterns 0x2003
  rw [hHere.fixed _ rfl] at hPatterns
  refine ⟨cartridge, hCartridge, hWritten.trans (by decide),
    hUntouched.trans (by decide), ?_, ?_⟩
  · simpa [image] using hProgram.symm
  · simpa using hPatterns.symm

end Cartridge

end Famicom
