import Famicom.Proofs.Words
import Famicom.Video.PatternRow
import Famicom.Video.Pipeline

/-
  Addresses and bits of rows of tiles as numbers.

  Main declarations:
    * `PatternRow.toNat_lowPlane_ofTile`
    * `PatternRow.toNat_highPlane_ofTile`
    * `toNat_twoBits`
    * `Shifters.toNat_pixel`
-/

namespace Famicom

------------------------------------------------------------
-- Addresses
------------------------------------------------------------

namespace PatternRow

/- The row within a tile. -/
theorem toNat_and_rowMask (row : UInt16) :
    (row &&& rowMask).toNat = row.toNat % 8 := by
  rw [rowMask, UInt16.toNat_and]
  exact Nat.and_two_pow_sub_one_eq_mod row.toNat 3

/- The table, the tile and the row do not overlap. -/
theorem toNat_lowPlane_ofTile
    (table row : UInt16)
    (tile : UInt8)
    (hTable : table = 0 ∨ table = tableMask) :
    (ofTile table tile row).lowPlane.toNat =
      table.toNat + 16 * tile.toNat + row.toNat % 8 := by
  have hTile : tile.toNat < 256 := tile.toNat_lt
  have hRow : row.toNat % 8 < 8 := Nat.mod_lt _ (by decide)
  have hShifted :
      (tile.toUInt16 <<< 4).toNat = 16 * tile.toNat := by
    simp only [UInt16.toNat_shiftLeft, UInt8.toNat_toUInt16,
      UInt16.reduceToNat, Nat.reduceMod, Nat.shiftLeft_eq]
    omega
  have hUpper :
      ((table &&& tableMask) ||| (tile.toUInt16 <<< 4)).toNat =
        table.toNat + 16 * tile.toNat := by
    rw [UInt16.toNat_or, hShifted]
    rcases hTable with rfl | rfl
    · simp
    · exact (Nat.two_pow_add_eq_or_of_lt (i := 12)
        (by omega) 1).symm
  have hDisjoint := Nat.two_pow_add_eq_or_of_lt (i := 4)
    (b := row.toNat % 8) (by omega)
    (table.toNat / 16 + tile.toNat)
  have hPlace :
      2 ^ 4 * (table.toNat / 16 + tile.toNat) =
        table.toNat + 16 * tile.toNat := by
    rcases hTable with rfl | rfl
    · simp
    · simp [tableMask]
      omega
  unfold ofTile
  rw [UInt16.toNat_or, hUpper, toNat_and_rowMask, ← hPlace,
    ← hDisjoint]

/- A one bit is added to a number that has a zero there. -/
theorem or_eight_eq_add
    (number : Nat)
    (hZero : number % 16 < 8) :
    number ||| 8 = number + 8 := by
  have hUpper := Nat.two_pow_add_eq_or_of_lt (i := 4)
    (b := number % 16) (by omega) (number / 16)
  have hUpper' := Nat.two_pow_add_eq_or_of_lt (i := 4)
    (b := 8 + number % 16) (by omega) (number / 16)
  have hLower := Nat.two_pow_add_eq_or_of_lt (i := 3)
    hZero 1
  have hSplit : 2 ^ 4 * (number / 16) + number % 16 =
      number := Nat.div_add_mod number 16
  rw [hSplit] at hUpper
  calc number ||| 8
      = 2 ^ 4 * (number / 16) ||| number % 16 ||| 8 := by
        rw [← hUpper]
    _ = 2 ^ 4 * (number / 16) ||| (8 ||| number % 16) := by
        rw [Nat.or_assoc, Nat.or_comm (number % 16)]
    _ = 2 ^ 4 * (number / 16) ||| (8 + number % 16) := by
        rw [show (8 : Nat) ||| number % 16 =
          8 + number % 16 from hLower.symm]
    _ = 2 ^ 4 * (number / 16) + (8 + number % 16) :=
        hUpper'.symm
    _ = number + 8 := by omega

/- The high plane is eight places behind the low one. -/
theorem toNat_highPlane_ofTile
    (table row : UInt16)
    (tile : UInt8)
    (hTable : table = 0 ∨ table = tableMask) :
    (ofTile table tile row).highPlane.toNat =
      table.toNat + 16 * tile.toNat + row.toNat % 8 + 8 := by
  have hLow := toNat_lowPlane_ofTile table row tile hTable
  have hAligned : table.toNat % 16 = 0 := by
    rcases hTable with rfl | rfl <;> rfl
  unfold highPlane
  rw [UInt16.toNat_or, hLow]
  exact or_eight_eq_add _ (by omega)

end PatternRow

------------------------------------------------------------
-- Bits
------------------------------------------------------------

/- Two bits with the higher one first, as one number. -/
theorem toNat_twoBits
    (high low : UInt8)
    (hHigh : high.toNat < 2)
    (hLow : low.toNat < 2) :
    ((high <<< 1) ||| low).toNat =
      2 * high.toNat + low.toNat := by
  have hOr := Nat.two_pow_add_eq_or_of_lt (i := 1)
    (b := low.toNat) (by omega) high.toNat
  have hShift : (high <<< 1).toNat = 2 ^ 1 * high.toNat := by
    simp only [UInt8.toNat_shiftLeft, UInt8.reduceToNat,
      Nat.reduceMod, Nat.shiftLeft_eq]
    omega
  rw [UInt8.toNat_or, hShift, ← hOr]

/- A palette and a color in it, as one number. -/
theorem toNat_paletteEntry
    (palette color : UInt8)
    (hPalette : palette.toNat < 4)
    (hColor : color.toNat < 4) :
    ((palette <<< 2) ||| color).toNat =
      4 * palette.toNat + color.toNat := by
  have hOr := Nat.two_pow_add_eq_or_of_lt (i := 2)
    (b := color.toNat) (by omega) palette.toNat
  have hShift :
      (palette <<< 2).toNat = 2 ^ 2 * palette.toNat := by
    simp only [UInt8.toNat_shiftLeft, UInt8.reduceToNat,
      Nat.reduceMod, Nat.shiftLeft_eq]
    omega
  rw [UInt8.toNat_or, hShift, ← hOr]

namespace Shifters

/- A tap shows one bit of its register. -/
theorem toNat_tap
    (register : UInt16)
    (fineX : UInt8)
    (hFine : fineX.toNat < 16) :
    (tap register fineX).toNat =
      bitAt register.toNat (15 - fineX.toNat) := by
  have hPlace :
      (15 - fineX.toUInt16 : UInt16).toNat =
        15 - fineX.toNat := by
    rw [UInt16.toNat_sub_of_le]
    · rfl
    · rw [UInt16.le_iff_toNat_le]
      simp
      omega
  unfold tap bitAt
  rw [UInt16.toNat_toUInt8, UInt16.toNat_and,
    UInt16.toNat_shiftRight, hPlace,
    Nat.mod_eq_of_lt (by omega : 15 - fineX.toNat < 16),
    Nat.shiftRight_eq_div_pow]
  have hBit := Nat.and_two_pow_sub_one_eq_mod
    (register.toNat / 2 ^ (15 - fineX.toNat)) 1
  have hSmall := Nat.mod_lt
    (register.toNat / 2 ^ (15 - fineX.toNat))
    (by decide : 0 < 2)
  simp only [Nat.reducePow, Nat.add_one_sub_one,
    UInt16.reduceToNat] at hBit ⊢
  omega

/-
  The palette entry of a background color and a palette:
  color 0 is transparent in all palettes.
-/
def entryOf (color palette : Nat) : Nat :=
  if color = 0 then 0 else 4 * palette + color

/- The pixel of the registers as a number. -/
theorem toNat_pixel
    (shifters : Shifters)
    (fineX : UInt8)
    (hFine : fineX.toNat < 8) :
    (shifters.pixel fineX).toNat =
      entryOf
        (2 * bitAt shifters.patternHigh.toNat
              (15 - fineX.toNat) +
          bitAt shifters.patternLow.toNat (15 - fineX.toNat))
        (2 * bitAt shifters.paletteHigh.toNat
              (15 - fineX.toNat) +
          bitAt shifters.paletteLow.toNat
            (15 - fineX.toNat)) := by
  have hTap (register : UInt16) :
      (tap register fineX).toNat =
        bitAt register.toNat (15 - fineX.toNat) :=
    toNat_tap register fineX (by omega)
  have hSmall (register : UInt16) :
      (tap register fineX).toNat < 2 := by
    rw [hTap]
    exact bitAt_lt _ _
  have hPair (high low : UInt16) :
      ((tap high fineX <<< 1) ||| tap low fineX).toNat =
        2 * bitAt high.toNat (15 - fineX.toNat) +
          bitAt low.toNat (15 - fineX.toNat) := by
    rw [toNat_twoBits _ _ (hSmall high) (hSmall low), hTap,
      hTap]
  have hBits (high low : UInt16) :
      ((tap high fineX <<< 1) ||| tap low fineX).toNat < 4 := by
    have hHigh := bitAt_lt high.toNat (15 - fineX.toNat)
    have hLow := bitAt_lt low.toNat (15 - fineX.toNat)
    rw [hPair]
    omega
  have hColor :
      ((tap shifters.patternHigh fineX <<< 1) |||
          tap shifters.patternLow fineX) = 0 ↔
        2 * bitAt shifters.patternHigh.toNat
              (15 - fineX.toNat) +
            bitAt shifters.patternLow.toNat
              (15 - fineX.toNat) = 0 := by
    rw [← UInt8.toNat_inj, hPair]
    rfl
  unfold pixel entryOf
  simp only [beq_iff_eq, hColor]
  split
  · rfl
  · rw [toNat_paletteEntry _ _ (hBits _ _) (hBits _ _),
      hPair, hPair]

end Shifters

end Famicom
