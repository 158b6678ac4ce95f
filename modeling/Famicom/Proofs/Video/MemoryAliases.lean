import Famicom.Proofs.Cartridge.Accepted
import Famicom.Proofs.Histories
import Famicom.Proofs.Video.MemoryCells

/-
  The picture unit's address space is memory with exactly the
  aliases that it is meant to have.

  What is read at an address is what was last stored in its
  cell, or else what the image of the cartridge puts there.
  Patterns in read-only memory store nothing.  The nametables
  stay in the arrangement of the cartridge.

  Key definitions include:
    * `CartridgeImage.IsReadOnly`
    * `CartridgeImage.lastStored?`
    * `VideoMemory.Suits`
    * `VideoMemory.Request`

  Main declarations:
    * `VideoMemory.Suits.setMirroring`
    * `VideoMemory.Suits.read_write`
    * `VideoMemory.Suits.aliases_iff_seen`
    * `VideoMemory.Suits.read_after`
    * `VideoMemory.memory_with_exact_aliases`
-/

namespace Famicom

------------------------------------------------------------
-- Images
------------------------------------------------------------

namespace CartridgeImage

open VideoMemory (partOf place)

/- The address lies in patterns that cannot change. -/
def IsReadOnly
    (image : CartridgeImage)
    (address : UInt16) : Prop :=
  partOf address = .patterns ∧ image.graphics.isRom = true

instance
    (image : CartridgeImage)
    (address : UInt16) :
    Decidable (image.IsReadOnly address) :=
  inferInstanceAs (Decidable (_ ∧ _))

/- The byte at an address before anything is written. -/
def initialByte
    (image : CartridgeImage)
    (address : UInt16) : UInt8 :=
  match partOf address with
  | .patterns => image.graphics.byteAt (place address)
  | _ => 0

end CartridgeImage

------------------------------------------------------------
-- One Memory
------------------------------------------------------------

namespace VideoMemory

/- Memory as it is with the cartridge of an image. -/
structure Suits
    (image : CartridgeImage)
    (memory : VideoMemory) : Prop where
  mirroring : memory.nametables.mirroring = image.mirroring
  writable :
    memory.patterns.writable = !image.graphics.isRom
  complete :
    memory.nametables.size ≤ memory.nametables.memory.size

namespace Suits

variable {image : CartridgeImage}
variable {memory : VideoMemory}

theorem write
    (hSuits : memory.Suits image)
    (address : UInt16)
    (value : UInt8) :
    (memory.write address value).Suits image where
  mirroring := by
    rw [← hSuits.mirroring, nametables_write]
    split_ifs <;> rfl
  writable := by
    rw [← hSuits.writable, patterns_write]
    unfold PatternMemory.write
    split_ifs <;> rfl
  complete := by
    rw [nametables_write]
    split_ifs
    · exact hSuits.complete.trans_eq
        (Ram.size_write _ _ _).symm
    · exact hSuits.complete

/-
  The arrangement of the cartridge is in force, so that it
  need not be set again before the nametables are accessed.
-/
theorem setMirroring
    (hSuits : memory.Suits image) :
    memory.nametables.setMirroring image.mirroring =
      memory.nametables := by
  rw [← hSuits.mirroring]
  exact Nametables.setMirroring_in_force hSuits.complete

/-
  A write is seen at the aliases of its address and nowhere
  else, and it is seen nowhere if the address is read-only.
-/
theorem read_write
    (hSuits : memory.Suits image)
    (address other : UInt16)
    (value : UInt8) :
    (memory.write address value).read other =
      if ¬image.IsReadOnly address ∧
          Aliases image.mirroring address other then
        shown other value
      else
        memory.read other := by
  rw [read_eq, read_eq, patterns_write, nametables_write,
    palette_write]
  unfold shown
  cases hOther : partOf other with
  | patterns =>
      have hSeen :
          ¬image.IsReadOnly address ∧
              Aliases image.mirroring address other ↔
            partOf address = .patterns ∧
              memory.patterns.writable ∧
                PatternMemory.cellOf address =
                  PatternMemory.cellOf other := by
        rw [aliases_of_patterns hOther, hSuits.writable]
        unfold CartridgeImage.IsReadOnly
        cases partOf address <;> simp
      rw [if_congr hSeen rfl rfl]
      by_cases hPart : partOf address = .patterns
      · simp [hPart, PatternMemory.read_write]
      · simp [hPart]
  | nametables =>
      have hSeen :
          ¬image.IsReadOnly address ∧
              Aliases image.mirroring address other ↔
            partOf address = .nametables ∧
              Nametables.placeOf image.mirroring address =
                Nametables.placeOf image.mirroring other := by
        rw [aliases_of_nametables hOther]
        unfold CartridgeImage.IsReadOnly
        cases partOf address <;> simp
      rw [if_congr hSeen rfl rfl, ← hSuits.mirroring]
      by_cases hPart : partOf address = .nametables
      · simp [hPart, Nametables.read_write hSuits.complete]
      · simp [hPart]
  | palette =>
      have hSeen :
          ¬image.IsReadOnly address ∧
              Aliases image.mirroring address other ↔
            partOf address = .palette ∧
              Palette.entryOf address =
                Palette.entryOf other := by
        rw [aliases_of_palette hOther]
        unfold CartridgeImage.IsReadOnly
        cases partOf address <;> simp
      rw [if_congr hSeen rfl rfl]
      by_cases hPart : partOf address = .palette
      · simp [hPart, Palette.read_write]
      · simp [hPart]

/- An address that refuses writes keeps all of memory. -/
theorem write_of_isReadOnly
    (hSuits : memory.Suits image)
    {address : UInt16}
    (hFixed : image.IsReadOnly address)
    (value : UInt8) :
    memory.write address value = memory := by
  have hWritable : memory.patterns.writable = false := by
    rw [hSuits.writable, hFixed.2]
    rfl
  rw [write_eq, hFixed.1]
  simp [PatternMemory.write, hWritable]

/-
  Two addresses are aliases exactly if every byte that is
  written at the first is what is shown at the second.
-/
theorem aliases_iff_seen
    (hSuits : memory.Suits image)
    {address : UInt16}
    (hOpen : ¬image.IsReadOnly address)
    (other : UInt16) :
    Aliases image.mirroring address other ↔
      ∀ value,
        (memory.write address value).read other =
          shown other value := by
  constructor
  · intro hAliases value
    rw [hSuits.read_write, if_pos ⟨hOpen, hAliases⟩]
  · intro hSeen
    by_contra hApart
    have hKept (value : UInt8) :
        shown other value = memory.read other := by
      rw [← hSeen value, hSuits.read_write,
        if_neg fun hBoth => hApart hBoth.2]
    have hEqual := (hKept 0).trans (hKept 1).symm
    unfold shown at hEqual
    cases hPart : partOf other <;>
      rw [hPart] at hEqual <;>
      exact absurd hEqual (by decide)

/- An accepted image comes with memory that suits it. -/
theorem ofImage
    {cartridge : Cartridge}
    (hAccepted : Cartridge.ofImage image = .ok cartridge) :
    (ofPatterns cartridge.patterns
      cartridge.mirroring).Suits image := by
  rcases Cartridge.parts_of_ofImage hAccepted with
    ⟨hPatterns, hMirroring⟩
  exact
    { mirroring := hMirroring
      writable := (Cartridge.patterns_of_patternsOf? hPatterns).1
      complete := (Ram.size_filled _ _).ge }

end Suits

/- What memory shows before anything is written. -/
theorem read_ofImage
    {image : CartridgeImage}
    {cartridge : Cartridge}
    (hAccepted : Cartridge.ofImage image = .ok cartridge)
    (address : UInt16) :
    (ofPatterns cartridge.patterns
        cartridge.mirroring).read address =
      shown address (image.initialByte address) := by
  rcases Cartridge.parts_of_ofImage hAccepted with
    ⟨hPatterns, hMirroring⟩
  rw [read_eq]
  unfold shown CartridgeImage.initialByte
  cases hPart : partOf address with
  | patterns =>
      have hCell := (Cartridge.patterns_of_patternsOf?
        hPatterns).2 (PatternMemory.cellOf address)
      exact hCell.trans
        (congrArg _ (val_cellOf_of_patterns hPart))
  | nametables =>
      have hSize : 0 < cartridge.mirroring.memorySize := by
        cases cartridge.mirroring <;> decide
      exact Ram.read_filled hSize 0 _
  | palette =>
      show (Vector.replicate 32 (0 : UInt8))[
        Palette.entryOf address] &&& 0x3F = 0 &&& 0x3F
      simp

------------------------------------------------------------
-- Requests
------------------------------------------------------------

/- What is asked of the address space. -/
inductive Request where
  | read (address : UInt16)
  | write (address : UInt16) (value : UInt8)

/- Only writes change memory. -/
def perform
    (memory : VideoMemory) : Request → VideoMemory
  | .read _ => memory
  | .write address value => memory.write address value

/- Memory after a sequence of requests. -/
def after
    (memory : VideoMemory)
    (requests : List Request) : VideoMemory :=
  requests.foldl perform memory

end VideoMemory

namespace CartridgeImage

open VideoMemory

/- What a request stores in the cell of an address. -/
def stored?
    (image : CartridgeImage)
    (address : UInt16) : Request → Option UInt8
  | .read _ => none
  | .write target value =>
      if ¬image.IsReadOnly target ∧
          Aliases image.mirroring target address then
        some value
      else
        none

/- What was stored last in the cell of an address. -/
def lastStored?
    (image : CartridgeImage)
    (address : UInt16)
    (requests : List Request) : Option UInt8 :=
  requests.reverse.findSome? (image.stored? address)

theorem lastStored?_concat
    (image : CartridgeImage)
    (address : UInt16)
    (requests : List Request)
    (request : Request) :
    image.lastStored? address (requests ++ [request]) =
      (image.stored? address request).or
        (image.lastStored? address requests) :=
  lastLeft?_concat (image.stored? address) requests request

end CartridgeImage

namespace VideoMemory

variable {image : CartridgeImage}
variable {memory : VideoMemory}

theorem after_concat
    (memory : VideoMemory)
    (requests : List Request)
    (request : Request) :
    memory.after (requests ++ [request]) =
      (memory.after requests).perform request :=
  List.foldl_concat ..

namespace Suits

theorem perform
    (hSuits : memory.Suits image)
    (request : Request) :
    (memory.perform request).Suits image := by
  cases request with
  | read address => exact hSuits
  | write address value => exact hSuits.write address value

theorem after
    (hSuits : memory.Suits image)
    (requests : List Request) :
    (memory.after requests).Suits image := by
  induction requests using List.reverseRecOn with
  | nil => exact hSuits
  | append_singleton requests request ih =>
      rw [after_concat]
      exact ih.perform request

/- What a request does to what is read at an address. -/
theorem read_perform
    (hSuits : memory.Suits image)
    (request : Request)
    (address : UInt16) :
    (memory.perform request).read address =
      ((image.stored? address request).map
        (shown address)).getD (memory.read address) := by
  cases request with
  | read target => rfl
  | write target value =>
      have hHere := hSuits.read_write target address value
      unfold CartridgeImage.stored?
      dsimp only
      split_ifs at hHere ⊢ <;> exact hHere

/- Memory returns what was stored last, if anything was. -/
theorem read_after
    (hSuits : memory.Suits image)
    (requests : List Request)
    (address : UInt16) :
    (memory.after requests).read address =
      ((image.lastStored? address requests).map
        (shown address)).getD (memory.read address) := by
  induction requests using List.reverseRecOn with
  | nil => rfl
  | append_singleton requests request ih =>
      rw [after_concat, (hSuits.after requests).read_perform,
        ih, CartridgeImage.lastStored?_concat]
      cases image.stored? address request <;> rfl

end Suits

/-
  Memory around the cartridge of an accepted image, after any
  sequence of reads and writes.  An address reads as what was
  stored last at one of its aliases, or else as what the
  image puts there, of which a palette shows six bits.  An
  address that refuses writes changes nothing, and no write
  is seen in another part of the address space.  There is no
  alias too many and none too few: an address shows all that
  is written at another one exactly if they are aliases.  To
  set the arrangement of the cartridge again before an access
  makes no difference.
-/
theorem memory_with_exact_aliases
    {cartridge : Cartridge}
    (hAccepted : Cartridge.ofImage image = .ok cartridge)
    (requests : List Request)
    (address : UInt16) :
    let memory :=
      (ofPatterns cartridge.patterns
        cartridge.mirroring).after requests
    memory.read address =
        shown address
          ((image.lastStored? address requests).getD
            (image.initialByte address)) ∧
      (∀ target value, image.IsReadOnly target →
        memory.write target value = memory) ∧
      (∀ target value, partOf target ≠ partOf address →
        (memory.write target value).read address =
          memory.read address) ∧
      (∀ target, ¬image.IsReadOnly target →
        (Aliases image.mirroring target address ↔
          ∀ value,
            (memory.write target value).read address =
              shown address value)) ∧
      memory.nametables.setMirroring cartridge.mirroring =
        memory.nametables := by
  intro memory
  have hStart := Suits.ofImage hAccepted
  have hSuits : memory.Suits image := hStart.after requests
  refine ⟨?_, ?_, ?_, ?_, ?_⟩
  · rw [hStart.read_after, read_ofImage hAccepted]
    cases image.lastStored? address requests <;> rfl
  · intro target value hFixed
    exact hSuits.write_of_isReadOnly hFixed value
  · intro target value hParts
    rw [hSuits.read_write, if_neg]
    rintro ⟨-, hAliases⟩
    exact hParts (partOf_eq_of_aliases hAliases)
  · intro target hOpen
    exact hSuits.aliases_iff_seen hOpen address
  · rw [(Cartridge.parts_of_ofImage hAccepted).2]
    exact hSuits.setMirroring

/-
  With horizontal mirroring, a byte that is written into the
  second table is read from the first one, also past the
  decoded bits, and the background color is shared.
-/
theorem aliases_of_oneBank :
    let image : CartridgeImage :=
      { programRom := Array.replicate 0x4000 0xEA }
    ∃ cartridge,
      Cartridge.ofImage image = .ok cartridge ∧
        let memory :=
          (ofPatterns cartridge.patterns
            cartridge.mirroring).after
              [.write 0x2005 0x11, .read 0x2405,
                .write 0x2405 0x22, .write 0x3F10 0xFF]
        memory.read 0x6005 = 0x22 ∧
          memory.read 0x2805 = 0 ∧
            memory.read 0x3F20 = 0x3F := by
  intro image
  have hAccepted := Cartridge.ofImage_replicate 0xEA
  refine ⟨_, hAccepted, ?_⟩
  intro memory
  have hRead (address : UInt16) :=
    (memory_with_exact_aliases hAccepted
      [.write 0x2005 0x11, .read 0x2405, .write 0x2405 0x22,
        .write 0x3F10 0xFF] address).1
  exact ⟨(hRead 0x6005).trans rfl, (hRead 0x2805).trans rfl,
    (hRead 0x3F20).trans rfl⟩

end VideoMemory

end Famicom
