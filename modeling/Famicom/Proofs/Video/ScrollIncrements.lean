import Famicom.Proofs.Video.ScrollGroups

/-
  The increments of the scroll address as counters.

  A step across counts columns of tiles modulo 64 and a step
  down counts rows of pixels modulo 480, for as many steps as
  one likes.  The two steps do not disturb each other.  Below
  the tiles of a nametable are sixteen rows of pixels that a
  step down leaves only at their end, without a change of
  nametable.

  Key definitions include:
    * `ScrollAddress.tileLine`

  Main declarations:
    * `ScrollAddress.planeColumn_iterate`
    * `ScrollAddress.planeRow_iterate`
    * `ScrollAddress.digits_iterate_below_tiles`
    * `ScrollAddress.commute_increments`
    * `ScrollAddress.increments_count`
-/

namespace Famicom

namespace ScrollAddress

------------------------------------------------------------
-- Bits in Motion
------------------------------------------------------------

theorem sameOutside_incrementX (address : ScrollAddress) :
    SameOutside horizontalMask address address.incrementX := by
  have hStart := SameOutside.refl horizontalMask address
  unfold incrementX
  split
  · exact (hStart.setDigit selects_coarseX rfl _).setDigit
      selects_nametableX rfl _
  · exact hStart.setDigit selects_coarseX rfl _

theorem SameOutside.incrementCoarseY
    {old new : ScrollAddress}
    (hSame : SameOutside verticalMask old new) :
    SameOutside verticalMask old new.incrementCoarseY := by
  unfold ScrollAddress.incrementCoarseY
  split_ifs
  · exact (hSame.setDigit selects_coarseY rfl _).setDigit
      selects_nametableY rfl _
  · exact hSame.setDigit selects_coarseY rfl _
  · exact hSame.setDigit selects_coarseY rfl _

theorem sameOutside_incrementY (address : ScrollAddress) :
    SameOutside verticalMask address address.incrementY := by
  have hStart := SameOutside.refl verticalMask address
  unfold incrementY
  split
  · exact (hStart.setDigit selects_fineY rfl
      _).incrementCoarseY
  · exact hStart.setDigit selects_fineY rfl _

------------------------------------------------------------
-- Counting
------------------------------------------------------------

theorem planeColumn_iterate
    (address : ScrollAddress)
    (count : Nat) :
    (incrementX^[count] address).planeColumn =
      (address.planeColumn + count) % 64 := by
  induction count with
  | zero =>
      exact (Nat.mod_eq_of_lt address.planeColumn_lt).symm
  | succ count ih =>
      rw [Function.iterate_succ_apply', planeColumn_incrementX,
        ih, Nat.mod_add_mod, Nat.add_assoc]

/- The row is counted as long as the nametables have it. -/
theorem planeRow_iterate
    (address : ScrollAddress)
    (hPlane : address.OnPlane)
    (count : Nat) :
    (incrementY^[count] address).OnPlane ∧
      (incrementY^[count] address).planeRow =
        (address.planeRow + count) % 480 := by
  induction count with
  | zero =>
      exact ⟨hPlane,
        (Nat.mod_eq_of_lt (address.planeRow_lt hPlane)).symm⟩
  | succ count ih =>
      rcases ih with ⟨hOn, hRow⟩
      rw [Function.iterate_succ_apply']
      refine ⟨onPlane_incrementY _ hOn, ?_⟩
      rw [planeRow_incrementY _ hOn, hRow, Nat.mod_add_mod,
        Nat.add_assoc]

------------------------------------------------------------
-- Below the Tiles
------------------------------------------------------------

/- All digits after a step down. -/
theorem digits_incrementY_eq (address : ScrollAddress) :
    address.incrementY.digits =
      if address.digits.fineY = 7 then
        { address.digits with
          coarseY :=
            if address.digits.coarseY = 29 then 0
            else (address.digits.coarseY + 1) % 32
          nametableY :=
            if address.digits.coarseY = 29 then
              (address.digits.nametableY + 1) % 2
            else
              address.digits.nametableY
          fineY := 0 }
      else
        { address.digits with
          fineY := address.digits.fineY + 1 } := by
  rw [digits_incrementY, digits_incrementCoarseY,
    digits_withFineY]

/- The row of pixels among those of 32 rows of tiles. -/
def tileLine (address : ScrollAddress) : Nat :=
  8 * address.digits.coarseY + address.digits.fineY

theorem tileLine_lt (address : ScrollAddress) :
    address.tileLine < 256 := by
  have hBounds := address.digits_lt
  unfold tileLine
  omega

theorem onPlane_iff (address : ScrollAddress) :
    address.OnPlane ↔ address.tileLine < 240 := by
  have hBounds := address.digits_lt
  unfold OnPlane tileLine
  omega

theorem digits_incrementY_below_tiles
    (address : ScrollAddress)
    (hBelow : ¬address.OnPlane) :
    address.incrementY.digits =
      { address.digits with
        coarseY := (address.tileLine + 1) % 256 / 8
        fineY := (address.tileLine + 1) % 8 } := by
  have hBounds := address.digits_lt
  unfold OnPlane at hBelow
  unfold tileLine
  rw [digits_incrementY_eq]
  split
  next hLast =>
    rw [if_neg (by omega), if_neg (by omega)]
    ext <;> dsimp only <;> omega
  next hNotLast =>
    ext <;> dsimp only <;> omega

/-
  Rows of pixels below the tiles are counted like all others
  up to the end of the nametable, which is left for its row
  0.
-/
theorem digits_iterate_below_tiles
    (address : ScrollAddress)
    (hBelow : ¬address.OnPlane)
    (count : Nat)
    (hCount : address.tileLine + count ≤ 256) :
    (incrementY^[count] address).digits =
      { address.digits with
        coarseY := (address.tileLine + count) % 256 / 8
        fineY := (address.tileLine + count) % 8 } := by
  have hLine : 240 ≤ address.tileLine := by
    rwa [onPlane_iff, Nat.not_lt] at hBelow
  induction count with
  | zero =>
      have hBounds := address.digits_lt
      unfold tileLine
      ext <;> dsimp only [Function.iterate_zero, id] <;> omega
  | succ count ih =>
      have hDigits := ih (by omega)
      have hNow :
          (incrementY^[count] address).tileLine =
            address.tileLine + count := by
        rw [tileLine, hDigits]
        dsimp only
        omega
      rw [Function.iterate_succ_apply',
        digits_incrementY_below_tiles _
          (by rw [onPlane_iff]; omega),
        hNow, hDigits]
      rfl

------------------------------------------------------------
-- Both Directions
------------------------------------------------------------

/- Neither step reads or changes what the other one does. -/
theorem commute_increments :
    Function.Commute incrementX incrementY := by
  intro address
  have hX (address : ScrollAddress) :
      SameOutside 0x7FFF address address.incrementX :=
    (sameOutside_incrementX address).mono rfl
  have hY (address : ScrollAddress) :
      SameOutside 0x7FFF address address.incrementY :=
    (sameOutside_incrementY address).mono rfl
  apply eq_of_digits
  · rw [digits_incrementX, digits_incrementY_eq,
      digits_incrementY_eq, digits_incrementX]
    split_ifs <;> rfl
  · exact ((hY address).trans (hX _)).symm.trans
      ((hX address).trans (hY _))

/-
  The increments of any address and what it takes over from
  another one.  Any number of steps across advances the
  column of the tile modulo 64 and touches only the bits of
  the horizontal position.  Any number of steps down from a
  row that the nametables have advances that row modulo 480
  and touches only the bits of the vertical position.  From
  below the tiles, at most sixteen steps down lead to row 0
  of the same nametable.  Steps across and steps down can be
  exchanged.  The two copies take over the bits of the two
  positions, which together are the low fifteen.
-/
theorem increments_count (address : ScrollAddress) :
    (∀ count,
      let moved := incrementX^[count] address
      moved.planeColumn =
          (address.planeColumn + count) % 64 ∧
        SameOutside horizontalMask address moved) ∧
    (address.OnPlane → ∀ count,
      let moved := incrementY^[count] address
      moved.OnPlane ∧
        moved.planeRow = (address.planeRow + count) % 480 ∧
        SameOutside verticalMask address moved) ∧
    (¬address.OnPlane → ∃ count ≤ 16,
      (incrementY^[count] address).digits =
        { address.digits with coarseY := 0, fineY := 0 }) ∧
    (∀ across down,
      incrementX^[across] (incrementY^[down] address) =
        incrementY^[down] (incrementX^[across] address)) ∧
    ∀ source,
      let copied :=
        (address.copyHorizontal source).copyVertical source
      (address.copyHorizontal source).bits =
          merge horizontalMask address.bits source.bits ∧
        (address.copyVertical source).bits =
          merge verticalMask address.bits source.bits ∧
        copied.bits =
          merge 0x7FFF address.bits source.bits := by
  refine ⟨fun count => ⟨planeColumn_iterate address count,
      SameOutside.iterate sameOutside_incrementX _ count⟩,
    fun hPlane count => ?_, fun hBelow => ?_,
    fun across down => commute_increments.iterate_iterate
      across down address, fun source =>
    ⟨bits_copyHorizontal address source,
      bits_copyVertical address source, ?_⟩⟩
  · rcases planeRow_iterate address hPlane count with
      ⟨hOn, hRow⟩
    exact ⟨hOn, hRow,
      SameOutside.iterate sameOutside_incrementY _ count⟩
  · have hLine : 240 ≤ address.tileLine := by
      rwa [onPlane_iff, Nat.not_lt] at hBelow
    have hEnd := address.tileLine_lt
    refine ⟨256 - address.tileLine, by omega, ?_⟩
    rw [digits_iterate_below_tiles address hBelow _ (by omega),
      Nat.add_sub_cancel' hEnd.le]
  · rw [bits_copyVertical, bits_copyHorizontal, merge_merge]
    rfl

/-
  From the last column and the last row that hold a tile, and
  from the first row of pixels that holds none.
-/
theorem counts_from_last_tile :
    let last : ScrollAddress := ⟨0x77BF⟩
    let below : ScrollAddress := ⟨0x0BC5⟩
    (incrementX^[1000] last).planeColumn = 39 ∧
      (incrementY^[1000] last).planeRow = 279 ∧
      (∃ count ≤ 16,
        (incrementY^[count] below).digits =
          { below.digits with coarseY := 0, fineY := 0 }) ∧
      ((last.copyHorizontal below).copyVertical below).bits =
        0x0BC5 := by
  intro last below
  have hLast : last.OnPlane := by
    unfold OnPlane
    decide
  have hNotOnPlane : ¬below.OnPlane := by
    unfold OnPlane
    decide
  rcases increments_count last with
    ⟨hAcross, hDown, -, -, hCopies⟩
  rcases increments_count below with ⟨-, -, hBelow, -⟩
  refine ⟨(hAcross 1000).1.trans (by decide),
    (hDown hLast 1000).2.1.trans (by decide),
    hBelow hNotOnPlane,
    (hCopies below).2.2.trans (by decide)⟩

end ScrollAddress

end Famicom
