import Famicom.Memory
import Mathlib

/-
  Plain memory obeys the one law of memory: what was written
  last into a cell is what is read from it, and all other
  cells keep their bytes.

  Key definitions include:
    * `Ram.byteAt`

  Main declarations:
    * `Ram.read_filled`
    * `Ram.read_write`
    * `Ram.byteAt_growTo`
-/

namespace Famicom

namespace Ram

variable {ram : Ram}

@[simp] theorem size_write
    (ram : Ram)
    (address : UInt16)
    (value : UInt8) :
    (ram.write address value).size = ram.size :=
  Array.size_setIfInBounds

@[simp] theorem size_filled
    (size : Nat)
    (value : UInt8) :
    (filled size value).size = size :=
  Array.size_replicate

/- Memory with one value in every cell reads as that value. -/
theorem read_filled
    {size : Nat}
    (hSize : 0 < size)
    (value : UInt8)
    (address : UInt16) :
    (filled size value).read address = value := by
  unfold read cellOf Ram.size filled
  simp [Array.getD, Nat.mod_lt _ hSize]

------------------------------------------------------------
-- Cells
------------------------------------------------------------

/- The byte in a cell.  Cells that are not there hold 0. -/
def byteAt
    (ram : Ram)
    (place : Nat) : UInt8 :=
  ram.cells.getD place 0

theorem read_eq_byteAt
    (ram : Ram)
    (address : UInt16) :
    ram.read address = ram.byteAt (ram.cellOf address) := rfl

theorem byteAt_filled_zero
    (size place : Nat) :
    (filled size 0).byteAt place = 0 := by
  unfold byteAt filled
  by_cases hInside : place < size
  · simp [Array.getD, hInside]
  · simp [Array.getD, hInside]

/- A write replaces the byte of one cell. -/
theorem byteAt_write
    (hSize : 0 < ram.size)
    (address : UInt16)
    (value : UInt8)
    (place : Nat) :
    (ram.write address value).byteAt place =
      if ram.cellOf address = place then
        value
      else
        ram.byteAt place := by
  have hInside : ram.cellOf address < ram.cells.size :=
    Nat.mod_lt _ hSize
  unfold write byteAt
  by_cases hSame : ram.cellOf address = place
  · rw [if_pos hSame]
    simp [← hSame, Array.getD, hInside]
  · rw [if_neg hSame]
    simp [Array.getD_eq_getD_getElem?,
      Array.getElem?_setIfInBounds_ne hSame]

/- Two addresses share a byte if they select one cell. -/
theorem read_write
    (hSize : 0 < ram.size)
    (address other : UInt16)
    (value : UInt8) :
    (ram.write address value).read other =
      if ram.cellOf address = ram.cellOf other then
        value
      else
        ram.read other := by
  have hCell :
      (ram.write address value).cellOf other =
        ram.cellOf other :=
    congrArg (other.toNat % ·) (size_write ram address value)
  rw [read_eq_byteAt, hCell, byteAt_write hSize]
  rfl

/- Memory that holds the addresses does not repeat in them. -/
theorem cellOf_of_lt
    {address : UInt16}
    (hAddress : address.toNat < ram.size) :
    ram.cellOf address = address.toNat :=
  Nat.mod_eq_of_lt hAddress

------------------------------------------------------------
-- Growth
------------------------------------------------------------

/- What the first copies have brought into new memory. -/
theorem foldl_copyCell
    (ram : Ram)
    {size count : Nat}
    (hCount : count ≤ ram.size)
    (hRoom : ram.size < size)
    (hWidth : size ≤ 0x10000) :
    let grown :=
      (List.range count).foldl ram.copyCell (filled size 0)
    grown.size = size ∧
      ∀ place, grown.byteAt place =
        if place < count then ram.byteAt place else 0 := by
  intro grown
  induction count with
  | zero =>
      exact ⟨size_filled size 0, byteAt_filled_zero size⟩
  | succ count ih =>
      rcases ih (Nat.le_of_succ_le hCount) with ⟨hSize, hBytes⟩
      have hGrown : grown =
          ram.copyCell
            ((List.range count).foldl ram.copyCell
              (filled size 0)) count := by
        show (List.range (count + 1)).foldl _ _ = _
        rw [List.range_succ, List.foldl_concat]
      generalize (List.range count).foldl ram.copyCell
        (filled size 0) = target at hSize hBytes hGrown
      have hAddress : count.toUInt16.toNat = count :=
        UInt16.toNat_ofNat_of_lt' (by
          show count < 65536
          omega)
      have hSource : ram.cellOf count.toUInt16 = count := by
        rw [cellOf_of_lt (by omega), hAddress]
      have hTarget : target.cellOf count.toUInt16 = count := by
        rw [cellOf_of_lt (by omega), hAddress]
      rw [hGrown]
      unfold copyCell
      dsimp only
      refine ⟨(size_write _ _ _).trans hSize, fun place => ?_⟩
      rw [byteAt_write (by omega), hTarget, hBytes,
        read_eq_byteAt, hSource]
      by_cases hHere : count = place
      · rw [if_pos hHere, if_pos (by omega), hHere]
      · rw [if_neg hHere]
        exact if_congr (by omega) rfl rfl

theorem size_growTo
    (ram : Ram)
    {size : Nat}
    (hWidth : size ≤ 0x10000) :
    (ram.growTo size).size = max ram.size size := by
  unfold growTo
  split
  next hRoom =>
    rw [(foldl_copyCell ram le_rfl hRoom hWidth).1]
    omega
  next => omega

/- Growth keeps all bytes, and what it adds holds zeros. -/
theorem byteAt_growTo
    (ram : Ram)
    {size : Nat}
    (hWidth : size ≤ 0x10000)
    (place : Nat) :
    (ram.growTo size).byteAt place = ram.byteAt place := by
  unfold growTo
  split
  next hRoom =>
    rw [(foldl_copyCell ram le_rfl hRoom hWidth).2]
    split
    next => rfl
    next hOutside =>
      have hCells : ¬place < ram.cells.size := hOutside
      simp [byteAt, Array.getD, hCells]
  next => rfl

end Ram

end Famicom
