import Famicom.Proofs.Bus.Ram
import Famicom.Video.Memory
import Mathlib

/-
  The cells of the picture unit's address space.

  A byte is kept for each cell, and every address selects
  one cell.  Two addresses are aliases if they select the
  same one.  Each of the three parts of the address space
  decodes its addresses in its own way, and a write to a
  part does what it does to one memory of that part.

  Key definitions include:
    * `VideoMemory.partOf`
    * `VideoMemory.cellOf`
    * `VideoMemory.Aliases`
    * `VideoMemory.shown`

  Main declarations:
    * `PatternMemory.read_write`
    * `Nametables.read_write`
    * `Palette.read_write`
    * `VideoMemory.read_eq`
    * `VideoMemory.write_eq`
-/

namespace Famicom

------------------------------------------------------------
-- Parts and Cells
------------------------------------------------------------

namespace VideoMemory

/- The parts of the address space. -/
inductive Part where
  | patterns
  | nametables
  | palette
deriving DecidableEq

/- Addresses repeat after 16 kB. -/
def place (address : UInt16) : Nat :=
  address.toNat % 0x4000

/- The part that an address lies in. -/
def partOf (address : UInt16) : Part :=
  if place address < 0x2000 then
    .patterns
  else if place address < 0x3F00 then
    .nametables
  else
    .palette

/-
  The number of a palette entry.  The first entries of the
  sprite palettes are the ones of the background.
-/
def sharedEntry (address : UInt16) : Nat :=
  match address.toNat % 32 with
  | 0x10 => 0x00
  | 0x14 => 0x04
  | 0x18 => 0x08
  | 0x1C => 0x0C
  | entry => entry

/- What keeps one byte. -/
inductive Cell where
  | pattern (place : Nat)
  | nametable (table : Fin 4) (offset : Nat)
  | entry (number : Nat)
deriving DecidableEq

/- The cell that an address selects. -/
def cellOf
    (mirroring : Mirroring)
    (address : UInt16) : Cell :=
  match partOf address with
  | .patterns => .pattern (place address)
  | .nametables =>
      .nametable
        (mirroring.physicalTable
          (Nametables.tableOf address))
        (place address % 0x400)
  | .palette => .entry (sharedEntry address)

/- Both addresses select the same cell. -/
def Aliases
    (mirroring : Mirroring)
    (first second : UInt16) : Prop :=
  cellOf mirroring first = cellOf mirroring second

instance
    (mirroring : Mirroring)
    (first second : UInt16) :
    Decidable (Aliases mirroring first second) :=
  inferInstanceAs (Decidable (_ = _))

/- Aliases lie in one part. -/
theorem partOf_eq_of_aliases
    {mirroring : Mirroring}
    {first second : UInt16}
    (hAliases : Aliases mirroring first second) :
    partOf first = partOf second := by
  unfold Aliases cellOf at hAliases
  cases hFirst : partOf first <;>
    cases hSecond : partOf second <;>
    simp_all

/- What a byte looks like where it is read. -/
def shown
    (address : UInt16)
    (value : UInt8) : UInt8 :=
  match partOf address with
  | .palette => value &&& 0x3F
  | _ => value

/- A part is read where the decoded bits say. -/
theorem toNat_decoded (address : UInt16) :
    (decoded address).toNat = place address := by
  have hMask : Hardware.pictureAddressMask.toNat =
      2 ^ 14 - 1 := rfl
  unfold decoded
  rw [UInt16.toNat_and, hMask,
    Nat.and_two_pow_sub_one_eq_mod]
  rfl

end VideoMemory

------------------------------------------------------------
-- Patterns
------------------------------------------------------------

namespace PatternMemory

open VideoMemory (decoded place toNat_decoded)

/- Patterns decode fewer bits. -/
theorem cellOf_decoded (address : UInt16) :
    cellOf (decoded address) = cellOf address := by
  apply Fin.ext
  show (decoded address).toNat % 0x2000 =
    address.toNat % 0x2000
  rw [toNat_decoded]
  unfold place
  omega

theorem read_decoded
    (patterns : PatternMemory)
    (address : UInt16) :
    patterns.read (decoded address) =
      patterns.read address := by
  unfold read
  simp only [cellOf_decoded]

theorem write_decoded
    (patterns : PatternMemory)
    (address : UInt16)
    (value : UInt8) :
    patterns.write (decoded address) value =
      patterns.write address value := by
  unfold write
  simp only [cellOf_decoded]

theorem read_write
    (patterns : PatternMemory)
    (address other : UInt16)
    (value : UInt8) :
    (patterns.write address value).read other =
      if patterns.writable ∧ cellOf address = cellOf other then
        value
      else
        patterns.read other := by
  unfold write read
  cases hWritable : patterns.writable with
  | false => simp
  | true => simp [Vector.getElem_set, Fin.ext_iff]

end PatternMemory

------------------------------------------------------------
-- Nametables
------------------------------------------------------------

namespace Nametables

open VideoMemory (decoded place toNat_decoded)

theorem tableOf_decoded (address : UInt16) :
    tableOf (decoded address) = tableOf address := by
  apply Fin.ext
  show (decoded address).toNat / 1024 % 4 =
    address.toNat / 1024 % 4
  rw [toNat_decoded]
  unfold place
  omega

/- The place is the offset in the physical table. -/
theorem toNat_placeOf
    (mirroring : Mirroring)
    (address : UInt16) :
    (placeOf mirroring address).toNat =
      (mirroring.physicalTable (tableOf address)).val * 1024 +
        address.toNat % 1024 := by
  have hTable :=
    (mirroring.physicalTable (tableOf address)).isLt
  have hSize : Hardware.nametableSize.toNat = 1024 := rfl
  unfold placeOf
  simp only [UInt16.toNat_add, UInt16.toNat_mul,
    UInt16.toNat_mod, Nat.toUInt16_eq, UInt16.toNat_ofNat',
    hSize]
  omega

theorem placeOf_decoded
    (mirroring : Mirroring)
    (address : UInt16) :
    placeOf mirroring (decoded address) =
      placeOf mirroring address := by
  apply UInt16.toNat_inj.mp
  rw [toNat_placeOf, toNat_placeOf, tableOf_decoded,
    toNat_decoded]
  unfold place
  omega

/- An arrangement only uses the memory that it asks for. -/
theorem toNat_placeOf_lt
    (mirroring : Mirroring)
    (address : UInt16) :
    (placeOf mirroring address).toNat <
      mirroring.memorySize := by
  have hTable :
      (mirroring.physicalTable (tableOf address)).val * 1024 +
          1024 ≤
        mirroring.memorySize := by
    generalize tableOf address = table
    revert table
    cases mirroring <;> decide
  rw [toNat_placeOf]
  omega

/- To set the arrangement in force again changes nothing. -/
theorem setMirroring_in_force
    {tables : Nametables}
    (hComplete : tables.size ≤ tables.memory.size) :
    tables.setMirroring tables.mirroring = tables := by
  have hEnough :
      tables.memory.growTo tables.mirroring.memorySize =
        tables.memory :=
    if_neg (Nat.not_lt.mpr hComplete)
  unfold setMirroring
  rw [hEnough]

theorem placeOf_eq_iff
    (mirroring : Mirroring)
    (first second : UInt16) :
    placeOf mirroring first = placeOf mirroring second ↔
      mirroring.physicalTable (tableOf first) =
          mirroring.physicalTable (tableOf second) ∧
        place first % 0x400 = place second % 0x400 := by
  rw [← UInt16.toNat_inj, toNat_placeOf, toNat_placeOf,
    Fin.ext_iff]
  unfold place
  omega

theorem read_write
    {tables : Nametables}
    (hComplete : tables.size ≤ tables.memory.size)
    (address other : UInt16)
    (value : UInt8) :
    (tables.write address value).read other =
      if placeOf tables.mirroring address =
          placeOf tables.mirroring other then
        value
      else
        tables.read other := by
  have hInside (address : UInt16) :
      tables.memory.cellOf
          (placeOf tables.mirroring address) =
        (placeOf tables.mirroring address).toNat :=
    Ram.cellOf_of_lt
      ((toNat_placeOf_lt _ _).trans_le hComplete)
  have hSize : 0 < tables.memory.size :=
    Nat.zero_lt_of_lt
      ((toNat_placeOf_lt _ address).trans_le hComplete)
  unfold write read
  rw [Ram.read_write hSize, hInside, hInside]
  exact if_congr UInt16.toNat_inj rfl rfl

end Nametables

------------------------------------------------------------
-- Palette
------------------------------------------------------------

namespace Palette

open VideoMemory (decoded place sharedEntry toNat_decoded)

theorem entryOf_val (address : UInt16) :
    (entryOf address).val = sharedEntry address := by
  have hAll : ∀ place < 32,
      (if place % 4 = 0 then place % 16 else place) =
        match place with
        | 0x10 => 0x00
        | 0x14 => 0x04
        | 0x18 => 0x08
        | 0x1C => 0x0C
        | entry => entry := by
    decide
  have hHere :=
    hAll (address.toNat % 32) (Nat.mod_lt _ (by decide))
  unfold entryOf sharedEntry
  rw [← hHere]
  dsimp only
  split <;> rfl

theorem sharedEntry_decoded (address : UInt16) :
    sharedEntry (decoded address) = sharedEntry address := by
  have hSame :
      (decoded address).toNat % 32 = address.toNat % 32 := by
    rw [toNat_decoded]
    unfold place
    omega
  unfold sharedEntry
  rw [hSame]

theorem entryOf_decoded (address : UInt16) :
    entryOf (decoded address) = entryOf address := by
  apply Fin.ext
  rw [entryOf_val, entryOf_val, sharedEntry_decoded]

theorem read_decoded
    (palette : Palette)
    (address : UInt16) :
    palette.read (decoded address) =
      palette.read address := by
  unfold read
  simp only [entryOf_decoded]

theorem write_decoded
    (palette : Palette)
    (address : UInt16)
    (value : UInt8) :
    palette.write (decoded address) value =
      palette.write address value := by
  unfold write
  simp only [entryOf_decoded]

/- An entry has six bits. -/
theorem read_lt
    (palette : Palette)
    (address : UInt16) : palette.read address < 0x40 := by
  rw [UInt8.lt_iff_toNat_lt]
  unfold read
  rw [UInt8.toNat_and]
  exact Nat.lt_succ_of_le Nat.and_le_right

theorem read_write
    (palette : Palette)
    (address other : UInt16)
    (value : UInt8) :
    (palette.write address value).read other =
      if entryOf address = entryOf other then
        value &&& 0x3F
      else
        palette.read other := by
  unfold write read
  by_cases hSame : entryOf address = entryOf other
  · simp [hSame]
  · have hApart :
        (entryOf address).val ≠ (entryOf other).val :=
      fun hVal => hSame (Fin.ext hVal)
    simp [hSame, Vector.getElem_set_ne _ _ hApart]

end Palette

------------------------------------------------------------
-- Video Memory
------------------------------------------------------------

namespace VideoMemory

variable {mirroring : Mirroring}
variable {first second : UInt16}

/- Patterns decode all bits of their places. -/
theorem val_cellOf_of_patterns
    {address : UInt16}
    (hPart : partOf address = .patterns) :
    (PatternMemory.cellOf address).val = place address := by
  have hPlace : place address < 0x2000 := by
    unfold partOf at hPart
    split_ifs at hPart
    assumption
  show address.toNat % 0x2000 = place address
  unfold place at hPlace ⊢
  omega

/- The aliases of an address in each part. -/
theorem aliases_of_patterns
    (hPart : partOf second = .patterns) :
    Aliases mirroring first second ↔
      partOf first = .patterns ∧
        PatternMemory.cellOf first =
          PatternMemory.cellOf second := by
  unfold Aliases cellOf
  rw [hPart]
  cases hFirst : partOf first with
  | patterns =>
      rw [← val_cellOf_of_patterns hFirst,
        ← val_cellOf_of_patterns hPart]
      simp [Fin.ext_iff]
  | nametables | palette => simp

theorem aliases_of_nametables
    (hPart : partOf second = .nametables) :
    Aliases mirroring first second ↔
      partOf first = .nametables ∧
        Nametables.placeOf mirroring first =
          Nametables.placeOf mirroring second := by
  unfold Aliases cellOf
  rw [hPart, Nametables.placeOf_eq_iff]
  cases hFirst : partOf first <;> simp

theorem aliases_of_palette
    (hPart : partOf second = .palette) :
    Aliases mirroring first second ↔
      partOf first = .palette ∧
        Palette.entryOf first = Palette.entryOf second := by
  unfold Aliases cellOf
  rw [hPart, Fin.ext_iff, Palette.entryOf_val,
    Palette.entryOf_val]
  cases hFirst : partOf first <;> simp

/- What is decoded is not decoded further. -/
theorem decoded_decoded (address : UInt16) :
    decoded (decoded address) = decoded address := by
  apply UInt16.toNat_inj.mp
  rw [toNat_decoded]
  unfold place
  rw [toNat_decoded]
  exact Nat.mod_mod _ _

theorem decoded_of_place
    {address other : UInt16}
    (hPlace : place address = place other) :
    decoded address = decoded other := by
  apply UInt16.toNat_inj.mp
  rw [toNat_decoded, toNat_decoded, hPlace]

/- What is decoded decides the cell. -/
theorem cellOf_decoded
    (mirroring : Mirroring)
    (address : UInt16) :
    cellOf mirroring (decoded address) =
      cellOf mirroring address := by
  have hPlace : place (decoded address) = place address := by
    unfold place
    rw [toNat_decoded]
    exact Nat.mod_mod _ _
  unfold cellOf partOf
  rw [hPlace, Nametables.tableOf_decoded,
    Palette.sharedEntry_decoded]

theorem cellOf_of_place
    (mirroring : Mirroring)
    {address other : UInt16}
    (hPlace : place address = place other) :
    cellOf mirroring address = cellOf mirroring other := by
  rw [← cellOf_decoded, decoded_of_place hPlace,
    cellOf_decoded]

theorem partOf_ne_palette
    {address : UInt16}
    (hPlace : place address < 0x3F00) :
    partOf address ≠ .palette := by
  unfold partOf
  split_ifs <;> simp

theorem shown_of_ne_palette
    {address : UInt16}
    (hPart : partOf address ≠ .palette)
    (value : UInt8) :
    shown address value = value := by
  unfold shown
  cases hHere : partOf address with
  | palette => exact absurd hHere hPart
  | _ => rfl

/- Addresses of one place are one address to the memory. -/
theorem read_decoded
    (memory : VideoMemory)
    (address : UInt16) :
    memory.read (decoded address) = memory.read address := by
  unfold read
  rw [decoded_decoded]

theorem write_decoded
    (memory : VideoMemory)
    (address : UInt16)
    (value : UInt8) :
    memory.write (decoded address) value =
      memory.write address value := by
  unfold write
  rw [decoded_decoded]

/- Each part decodes what it needs by itself. -/
theorem read_eq
    (memory : VideoMemory)
    (address : UInt16) :
    memory.read address =
      match partOf address with
      | .patterns => memory.patterns.read address
      | .nametables => memory.nametables.read address
      | .palette => memory.palette.read address := by
  have hPatterns : Hardware.patternTablesEnd.toNat = 0x1FFF :=
    rfl
  have hTables : Hardware.nametablesEnd.toNat = 0x3EFF := rfl
  unfold read partOf
  simp only [UInt16.le_iff_toNat_le, toNat_decoded, hPatterns,
    hTables, ← Nat.lt_succ_iff]
  rw [PatternMemory.read_decoded, Palette.read_decoded]
  unfold Nametables.read
  rw [Nametables.placeOf_decoded]
  split_ifs <;> rfl

theorem write_eq
    (memory : VideoMemory)
    (address : UInt16)
    (value : UInt8) :
    memory.write address value =
      match partOf address with
      | .patterns =>
          { memory with
            patterns := memory.patterns.write address value }
      | .nametables =>
          { memory with
            nametables :=
              memory.nametables.write address value }
      | .palette =>
          { memory with
            palette := memory.palette.write address value } := by
  have hPatterns : Hardware.patternTablesEnd.toNat = 0x1FFF :=
    rfl
  have hTables : Hardware.nametablesEnd.toNat = 0x3EFF := rfl
  unfold write partOf
  simp only [UInt16.le_iff_toNat_le, toNat_decoded, hPatterns,
    hTables, ← Nat.lt_succ_iff]
  rw [PatternMemory.write_decoded, Palette.write_decoded]
  unfold Nametables.write
  rw [Nametables.placeOf_decoded]
  split_ifs <;> rfl

theorem patterns_write
    (memory : VideoMemory)
    (address : UInt16)
    (value : UInt8) :
    (memory.write address value).patterns =
      if partOf address = .patterns then
        memory.patterns.write address value
      else
        memory.patterns := by
  rw [write_eq]
  cases partOf address <;> rfl

theorem nametables_write
    (memory : VideoMemory)
    (address : UInt16)
    (value : UInt8) :
    (memory.write address value).nametables =
      if partOf address = .nametables then
        memory.nametables.write address value
      else
        memory.nametables := by
  rw [write_eq]
  cases partOf address <;> rfl

theorem palette_write
    (memory : VideoMemory)
    (address : UInt16)
    (value : UInt8) :
    (memory.write address value).palette =
      if partOf address = .palette then
        memory.palette.write address value
      else
        memory.palette := by
  rw [write_eq]
  cases partOf address <;> rfl

end VideoMemory

end Famicom
