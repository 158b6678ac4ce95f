import Famicom.Cartridge
import Mathlib

/-
  What the board demands of an image, and what it makes of
  one that it accepts.

  The patterns are the ones that the image gives and cannot
  be written, or they are memory that starts zeroed.

  Key definitions include:
    * `GraphicsContents.isRom`
    * `GraphicsContents.byteAt`
    * `CartridgeImage.demands`
    * `CartridgeImage.FirstUnmet`

  Main declarations:
    * `Cartridge.ofImage_eq_error_iff`
    * `Cartridge.ofImage_isOk_iff`
    * `Cartridge.patterns_of_patternsOf?`
    * `Cartridge.parts_of_ofImage`
    * `Cartridge.ofImage_oneBank`
-/

namespace Famicom

------------------------------------------------------------
-- Graphics
------------------------------------------------------------

namespace GraphicsContents

/- Whether the contents are given and cannot change. -/
def isRom : GraphicsContents → Bool
  | .rom _ => true
  | .ram _ => false

/- The byte of a cell before anything is written. -/
def byteAt : GraphicsContents → Nat → UInt8
  | .rom contents, cell => contents.getD cell 0
  | .ram _, _ => 0

end GraphicsContents

------------------------------------------------------------
-- Demands
------------------------------------------------------------

namespace CartridgeImage

/-
  What is demanded of an image, in the order in which it is
  checked, each with the fault that is reported otherwise.
-/
def demands
    (image : CartridgeImage) : List (Prop × MachineFault) :=
  let rom := image.programRom.size
  let ram := image.programRamSize
  [ (rom ≠ 0, .cartridge .missingProgramRom),
    (image.board = 0, .unsupportedBoard image.board),
    (rom = 0x4000 ∨ rom = 0x8000,
      .cartridge (.programRomSize 0 rom)),
    (image.graphics.size = 0x2000,
      .cartridge (.graphicsSize 0 image.graphics.size)),
    (ram = 0 ∨ ∃ k, ram = 2 ^ k ∧ ram ≤ 0x2000,
      .cartridge (.programRamSize 0 ram)) ]

/- A fault is the one of the first demand that is not met. -/
def FirstUnmet :
    List (Prop × MachineFault) → MachineFault → Prop
  | [], _ => False
  | (demand, refusal) :: rest, fault =>
      (¬demand ∧ fault = refusal) ∨
        (demand ∧ FirstUnmet rest fault)

/- There is one, unless all demands are met. -/
theorem exists_firstUnmet_iff
    (demands : List (Prop × MachineFault)) :
    (∃ fault, FirstUnmet demands fault) ↔
      ¬∀ demand ∈ demands, demand.1 := by
  induction demands with
  | nil => simp [FirstUnmet]
  | cons first rest ih =>
      rcases first with ⟨demand, refusal⟩
      by_cases hMet : demand
      · simp [FirstUnmet, hMet, ih]
      · simp [FirstUnmet, hMet]

end CartridgeImage

namespace Cartridge

theorem isProgramRamSize_iff (size : Nat) :
    isProgramRamSize size = true ↔
      size = 0 ∨ ∃ k, size = 2 ^ k ∧ size ≤ 0x2000 := by
  have hBound (k : Nat) : k < 14 ↔ 2 ^ k ≤ 0x2000 :=
    Nat.lt_succ_iff.trans
      (Nat.pow_le_pow_iff_right (by decide : 1 < 2)).symm
  unfold isProgramRamSize
  rw [Bool.or_eq_true, beq_iff_eq, List.any_eq_true]
  refine or_congr_right (exists_congr fun k => ?_)
  rw [List.mem_range, beq_iff_eq, hBound]
  constructor
  · rintro ⟨hSmall, rfl⟩
    exact ⟨rfl, hSmall⟩
  · rintro ⟨rfl, hSmall⟩
    exact ⟨hSmall, rfl⟩

theorem patternsOf?_eq_none_iff
    (graphics : GraphicsContents) :
    patternsOf? graphics = none ↔ graphics.size ≠ 0x2000 := by
  unfold patternsOf?
  cases graphics with
  | rom contents =>
      exact dite_eq_right_iff.trans (by simp; rfl)
  | ram size =>
      exact ite_eq_right_iff.trans (by simp; rfl)

/- An image is refused for the first demand it does not meet. -/
theorem ofImage_eq_error_iff
    {image : CartridgeImage}
    {fault : MachineFault} :
    ofImage image = .error fault ↔
      CartridgeImage.FirstUnmet image.demands fault := by
  have hEmpty : image.programRom.size = 0 ↔
      image.programRom.isEmpty = true :=
    Array.isEmpty_iff_size_eq_zero.symm
  have hPatterns := patternsOf?_eq_none_iff image.graphics
  have hRam := isProgramRamSize_iff image.programRamSize
  unfold CartridgeImage.demands
  simp only [CartridgeImage.FirstUnmet, ← hRam, hEmpty,
    ne_eq, not_not, eq_comm (a := fault)]
  unfold ofImage onBoard onBoardZero boardZero
  -- Each check either reports its fault or leads to the next.
  split
  next hHere => simp [hHere]
  next hProgram =>
    split
    next hBoard =>
      split
      next hRom =>
        split
        next hNone =>
          have hSize := hPatterns.mp hNone
          simp [hProgram, hBoard, hRom, hSize,
            Except.mapError]
        next patterns hMade =>
          have hSize : image.graphics.size = 0x2000 := by
            by_contra hNot
            rw [hPatterns.mpr hNot] at hMade
            cases hMade
          by_cases hHere :
            isProgramRamSize image.programRamSize = true
          all_goals
            simp [hProgram, hBoard, hRom, hSize, hHere,
              Except.mapError]
      next hRom =>
        simp [hProgram, hBoard, hRom, Except.mapError]
    next hBoard => simp [hProgram, hBoard]

/- It is accepted if it meets all of them. -/
theorem ofImage_isOk_iff
    {image : CartridgeImage} :
    (∃ cartridge, ofImage image = .ok cartridge) ↔
      ∀ demand ∈ image.demands, demand.1 := by
  rw [← not_iff_not, ← CartridgeImage.exists_firstUnmet_iff]
  simp only [← ofImage_eq_error_iff]
  cases ofImage image with
  | error fault => simp
  | ok cartridge => simp

------------------------------------------------------------
-- Accepted Images
------------------------------------------------------------

variable {image : CartridgeImage}
variable {cartridge : Cartridge}

/- The patterns that a board makes of an image's. -/
theorem patterns_of_patternsOf?
    {graphics : GraphicsContents}
    {patterns : PatternMemory}
    (hMade : patternsOf? graphics = some patterns) :
    patterns.writable = (!graphics.isRom) ∧
      ∀ cell : Fin Hardware.patternMemorySize,
        patterns.cells[cell] = graphics.byteAt cell := by
  unfold patternsOf? at hMade
  cases graphics with
  | rom contents =>
      dsimp only at hMade
      split_ifs at hMade with hSize
      cases hMade
      refine ⟨rfl, fun cell => ?_⟩
      have hInside : cell.val < contents.size := by
        rw [hSize]
        exact cell.isLt
      show contents[cell.val] = contents.getD cell 0
      simp [Array.getD, hInside]
  | ram size =>
      dsimp only at hMade
      split_ifs at hMade
      cases hMade
      exact ⟨rfl, fun cell => Vector.getElem_replicate ..⟩

theorem onBoardZero_of_ofImage
    (hAccepted : ofImage image = .ok cartridge) :
    onBoardZero image = .ok cartridge := by
  unfold ofImage onBoard at hAccepted
  split_ifs at hAccepted
  cases hBoard : onBoardZero image with
  | error fault =>
      rw [hBoard] at hAccepted
      cases hAccepted
  | ok made =>
      rw [hBoard] at hAccepted
      cases hAccepted
      rfl

/- The cartridge of an accepted image. -/
theorem eq_of_ofImage
    (hAccepted : ofImage image = .ok cartridge) :
    ∃ hRom patterns,
      patternsOf? image.graphics = some patterns ∧
        cartridge =
          { program :=
              { rom := image.programRom
                ram := .filled image.programRamSize 0
                rom_size := hRom }
            patterns := patterns
            mirroring := image.mirroring } := by
  have hBoard := onBoardZero_of_ofImage hAccepted
  unfold onBoardZero at hBoard
  cases hPatterns : patternsOf? image.graphics with
  | none =>
      rw [hPatterns] at hBoard
      split at hBoard <;> cases hBoard
  | some patterns =>
      rw [hPatterns] at hBoard
      dsimp only at hBoard
      split_ifs at hBoard with hRom
      cases hBoard
      exact ⟨hRom, patterns, rfl, rfl⟩

/- What an accepted image puts into its cartridge. -/
theorem parts_of_ofImage
    (hAccepted : ofImage image = .ok cartridge) :
    patternsOf? image.graphics = some cartridge.patterns ∧
      cartridge.mirroring = image.mirroring := by
  rcases eq_of_ofImage hAccepted with ⟨_, _, hPatterns, rfl⟩
  exact ⟨hPatterns, rfl⟩

theorem program_of_ofImage
    (hAccepted : ofImage image = .ok cartridge) :
    cartridge.program.rom = image.programRom ∧
      cartridge.program.ram =
        .filled image.programRamSize 0 := by
  rcases eq_of_ofImage hAccepted with ⟨_, _, _, rfl⟩
  exact ⟨rfl, rfl⟩

/- An image of one bank makes a cartridge. -/
theorem ofImage_oneBank
    {rom : Array UInt8}
    (hSize : rom.size = 0x4000) :
    ofImage { programRom := rom } =
      .ok
        { program :=
            { rom := rom
              ram := .filled 0 0
              rom_size := Or.inl hSize }
          patterns := ⟨Vector.replicate _ 0, true⟩
          mirroring := .horizontal } := by
  have hSome : rom.isEmpty = false := by
    simp [Array.isEmpty, hSize]
  unfold ofImage onBoard onBoardZero
  simp [hSome, hSize, boardZero, patternsOf?,
    isProgramRamSize, Except.mapError]

theorem ofImage_replicate (value : UInt8) :
    ofImage { programRom := Array.replicate 0x4000 value } =
      .ok
        { program :=
            { rom := Array.replicate 0x4000 value
              ram := .filled 0 0
              rom_size := Or.inl Array.size_replicate }
          patterns := ⟨Vector.replicate _ 0, true⟩
          mirroring := .horizontal } :=
  ofImage_oneBank Array.size_replicate

end Cartridge

end Famicom
