import Famicom.Video.ScrollAddress
import Mathlib

/-
  The scroll address as a number in mixed radix, and as two
  counters.

  Across, the address counts the 64 columns of tiles of two
  nametables side by side.  Down, it counts the 480 rows of
  pixels of two nametables on top of each other, as long as
  it stays out of the rows of tiles that hold none.

  Main declarations:
    * `ScrollAddress.Digits`
    * `ScrollAddress.digits_incrementX`
    * `ScrollAddress.digits_incrementY`
    * `ScrollAddress.planeColumn_incrementX`
    * `ScrollAddress.planeRow_incrementY`
-/

namespace Famicom

------------------------------------------------------------
-- Digits of Numbers
------------------------------------------------------------

/- A number with the digit of a weight and radix replaced. -/
def replaceDigit
    (number weight radix digit : Nat) : Nat :=
  number - number / weight % radix * weight + digit * weight

section ReplaceDigit

variable (number weight radix digit : Nat)

/- The digits above, the digit itself and those below. -/
theorem replaceDigit_eq :
    replaceDigit number weight radix digit =
      weight * (radix * (number / weight / radix) + digit) +
        number % weight := by
  have hOuter := Nat.div_add_mod number weight
  have hInner := Nat.div_add_mod (number / weight) radix
  have hSplit :
      weight * (radix * (number / weight / radix)) +
          number / weight % radix * weight +
          number % weight = number := by
    calc weight * (radix * (number / weight / radix)) +
            number / weight % radix * weight +
            number % weight
        = weight * (radix * (number / weight / radix) +
              number / weight % radix) +
            number % weight := by ring
      _ = weight * (number / weight) + number % weight := by
            rw [hInner]
      _ = number := hOuter
  have hDistrib :
      weight * (radix * (number / weight / radix) + digit) =
        weight * (radix * (number / weight / radix)) +
          digit * weight := by ring
  unfold replaceDigit
  omega

variable {number weight radix digit}

theorem replaceDigit_self
    (hWeight : 0 < weight)
    (hDigit : digit < radix) :
    replaceDigit number weight radix digit / weight %
      radix = digit := by
  rw [replaceDigit_eq, Nat.mul_add_div hWeight,
    Nat.div_eq_of_lt (Nat.mod_lt _ hWeight),
    Nat.add_zero, Nat.mul_add_mod,
    Nat.mod_eq_of_lt hDigit]

theorem replaceDigit_above
    {other : Nat}
    (hWeight : 0 < weight)
    (hDigit : digit < radix)
    (hAbove : weight * radix ∣ other) :
    replaceDigit number weight radix digit / other =
      number / other := by
  rcases hAbove with ⟨factor, rfl⟩
  have hHigh :
      replaceDigit number weight radix digit / weight /
          radix = number / weight / radix := by
    rw [replaceDigit_eq, Nat.mul_add_div hWeight,
      Nat.div_eq_of_lt (Nat.mod_lt _ hWeight),
      Nat.add_zero, Nat.mul_add_div (by omega),
      Nat.div_eq_of_lt hDigit, Nat.add_zero]
  rw [← Nat.div_div_eq_div_mul, ← Nat.div_div_eq_div_mul,
    hHigh, Nat.div_div_eq_div_mul, Nat.div_div_eq_div_mul,
    Nat.mul_assoc]

theorem replaceDigit_below
    {other : Nat}
    (hBelow : other ∣ weight) :
    replaceDigit number weight radix digit % other =
      number % other := by
  rcases hBelow with ⟨factor, rfl⟩
  rw [replaceDigit_eq, Nat.mul_assoc, Nat.mul_add_mod,
    Nat.mod_mul_right_mod]

theorem replaceDigit_lt
    {limit : Nat}
    (hWeight : 0 < weight)
    (hDigit : digit < radix)
    (hLimit : weight * radix ∣ limit)
    (hNumber : number < limit) :
    replaceDigit number weight radix digit < limit := by
  have hPositive : 0 < limit := by omega
  have hNone :
      replaceDigit number weight radix digit / limit = 0 := by
    rw [replaceDigit_above hWeight hDigit hLimit]
    exact Nat.div_eq_of_lt hNumber
  exact (Nat.div_eq_zero_iff_lt hPositive).mp hNone

end ReplaceDigit

namespace ScrollAddress

------------------------------------------------------------
-- Digits of Addresses
------------------------------------------------------------

/- All digits of an address as numbers. -/
@[ext] structure Digits where
  coarseX : Nat
  coarseY : Nat
  nametableX : Nat
  nametableY : Nat
  fineY : Nat

/- The digits of an address. -/
def digits (address : ScrollAddress) : Digits where
  coarseX := address.coarseX.toNat
  coarseY := address.coarseY.toNat
  nametableX := address.nametableX.toNat
  nametableY := address.nametableY.toNat
  fineY := address.fineY.toNat

theorem toNat_digit
    (address : ScrollAddress)
    (weight radix : UInt16) :
    (address.digit weight radix).toNat =
      address.bits.toNat / weight.toNat % radix.toNat := by
  simp [digit]

/-
  Replacing a digit of the register replaces it in the number
  that the register stands for.
-/
theorem toNat_setDigit
    (address : ScrollAddress)
    (weight radix value : UInt16)
    (hWeight : 0 < weight.toNat)
    (hRadix : 0 < radix.toNat)
    (hLimit : weight.toNat * radix.toNat ∣ 65536) :
    (address.setDigit weight radix value).bits.toNat =
      replaceDigit address.bits.toNat weight.toNat
        radix.toNat (value.toNat % radix.toNat) := by
  have hBits : address.bits.toNat < 65536 :=
    address.bits.toNat_lt
  have hOld :
      address.bits.toNat / weight.toNat % radix.toNat *
          weight.toNat ≤ address.bits.toNat :=
    (Nat.mul_le_mul_right _ (Nat.mod_le _ _)).trans
      (Nat.div_mul_le_self _ _)
  have hSum := replaceDigit_lt hWeight
    (Nat.mod_lt value.toNat hRadix) hLimit hBits
  unfold replaceDigit at hSum ⊢
  simp only [setDigit, UInt16.toNat_add, UInt16.toNat_sub,
    UInt16.toNat_mul, UInt16.toNat_mod, toNat_digit]
  omega

section SetDigit

variable {address : ScrollAddress}
variable {weight radix value : UInt16}

theorem digit_setDigit_self
    (hWeight : 0 < weight.toNat)
    (hRadix : 0 < radix.toNat)
    (hLimit : weight.toNat * radix.toNat ∣ 65536) :
    ((address.setDigit weight radix value).digit
        weight radix).toNat =
      value.toNat % radix.toNat := by
  rw [toNat_digit,
    toNat_setDigit address weight radix value hWeight hRadix
      hLimit,
    replaceDigit_self hWeight (Nat.mod_lt _ hRadix)]

theorem digit_setDigit_above
    {otherWeight otherRadix : UInt16}
    (hWeight : 0 < weight.toNat)
    (hRadix : 0 < radix.toNat)
    (hLimit : weight.toNat * radix.toNat ∣ 65536)
    (hAbove :
      weight.toNat * radix.toNat ∣ otherWeight.toNat) :
    ((address.setDigit weight radix value).digit
        otherWeight otherRadix).toNat =
      (address.digit otherWeight otherRadix).toNat := by
  rw [toNat_digit, toNat_digit,
    toNat_setDigit address weight radix value hWeight hRadix
      hLimit,
    replaceDigit_above hWeight (Nat.mod_lt _ hRadix) hAbove]

theorem digit_setDigit_below
    {otherWeight otherRadix : UInt16}
    (hWeight : 0 < weight.toNat)
    (hRadix : 0 < radix.toNat)
    (hLimit : weight.toNat * radix.toNat ∣ 65536)
    (hBelow :
      otherWeight.toNat * otherRadix.toNat ∣
        weight.toNat) :
    ((address.setDigit weight radix value).digit
        otherWeight otherRadix).toNat =
      (address.digit otherWeight otherRadix).toNat := by
  rw [toNat_digit, toNat_digit,
    toNat_setDigit address weight radix value hWeight hRadix
      hLimit,
    ← Nat.mod_mul_right_div_self,
    ← Nat.mod_mul_right_div_self,
    replaceDigit_below hBelow]

end SetDigit

theorem digits_withCoarseX
    (address : ScrollAddress)
    (value : UInt16) :
    (address.withCoarseX value).digits =
      { address.digits with
        coarseX := value.toNat % 32 } := by
  ext <;> simp (disch := decide) only [digits, withCoarseX,
    coarseX, coarseY, nametableX, nametableY, fineY,
    digit_setDigit_self, digit_setDigit_above,
    UInt16.reduceToNat]

theorem digits_withCoarseY
    (address : ScrollAddress)
    (value : UInt16) :
    (address.withCoarseY value).digits =
      { address.digits with
        coarseY := value.toNat % 32 } := by
  ext <;> simp (disch := decide) only [digits, withCoarseY,
    coarseX, coarseY, nametableX, nametableY, fineY,
    digit_setDigit_self, digit_setDigit_above,
    digit_setDigit_below, UInt16.reduceToNat]

theorem digits_withNametableX
    (address : ScrollAddress)
    (value : UInt16) :
    (address.withNametableX value).digits =
      { address.digits with
        nametableX := value.toNat % 2 } := by
  ext <;> simp (disch := decide) only [digits,
    withNametableX, coarseX, coarseY, nametableX, nametableY,
    fineY, digit_setDigit_self, digit_setDigit_above,
    digit_setDigit_below, UInt16.reduceToNat]

theorem digits_withNametableY
    (address : ScrollAddress)
    (value : UInt16) :
    (address.withNametableY value).digits =
      { address.digits with
        nametableY := value.toNat % 2 } := by
  ext <;> simp (disch := decide) only [digits,
    withNametableY, coarseX, coarseY, nametableX, nametableY,
    fineY, digit_setDigit_self, digit_setDigit_above,
    digit_setDigit_below, UInt16.reduceToNat]

theorem digits_withFineY
    (address : ScrollAddress)
    (value : UInt16) :
    (address.withFineY value).digits =
      { address.digits with
        fineY := value.toNat % 8 } := by
  ext <;> simp (disch := decide) only [digits, withFineY,
    coarseX, coarseY, nametableX, nametableY, fineY,
    digit_setDigit_self, digit_setDigit_below,
    UInt16.reduceToNat]

/- The bounds of the digits. -/
theorem digits_lt (address : ScrollAddress) :
    address.digits.coarseX < 32 ∧
      address.digits.coarseY < 32 ∧
      address.digits.nametableX < 2 ∧
      address.digits.nametableY < 2 ∧
      address.digits.fineY < 8 := by
  simp only [digits, coarseX, coarseY, nametableX,
    nametableY, fineY, toNat_digit]
  exact ⟨Nat.mod_lt _ (by decide), Nat.mod_lt _ (by decide),
    Nat.mod_lt _ (by decide), Nat.mod_lt _ (by decide),
    Nat.mod_lt _ (by decide)⟩

------------------------------------------------------------
-- Steps
------------------------------------------------------------

/- Words are compared as the numbers that they stand for. -/
theorem word_beq_iff (a b : UInt16) :
    (a == b) = true ↔ a.toNat = b.toNat := by
  rw [beq_iff_eq, UInt16.toNat_inj]

/-
  A step across: the column of tiles counts modulo 32 and
  carries into the column of nametables.
-/
theorem digits_incrementX (address : ScrollAddress) :
    address.incrementX.digits =
      { address.digits with
        coarseX := (address.digits.coarseX + 1) % 32
        nametableX :=
          if address.digits.coarseX = 31 then
            (address.digits.nametableX + 1) % 2
          else
            address.digits.nametableX } := by
  have hBounds := address.digits_lt
  unfold incrementX
  simp only [word_beq_iff, UInt16.reduceToNat]
  split
  next hLast =>
    have hLast' : address.digits.coarseX = 31 := hLast
    rw [digits_withNametableX, digits_withCoarseX, hLast']
    ext <;> simp [digits]
  next hNotLast =>
    have hNotLast' : ¬address.digits.coarseX = 31 := hNotLast
    rw [digits_withCoarseX, if_neg hNotLast']
    ext <;> simp [digits]

/-
  A step to the next row of tiles: the row after 29 is row 0
  of the other nametable, and the row after 31 is row 0 of
  the same one.
-/
theorem digits_incrementCoarseY (address : ScrollAddress) :
    address.incrementCoarseY.digits =
      { address.digits with
        coarseY :=
          if address.digits.coarseY = 29 then 0
          else (address.digits.coarseY + 1) % 32
        nametableY :=
          if address.digits.coarseY = 29 then
            (address.digits.nametableY + 1) % 2
          else
            address.digits.nametableY } := by
  have hBounds := address.digits_lt
  unfold incrementCoarseY
  simp only [word_beq_iff, UInt16.reduceToNat]
  split
  next hLast =>
    have hLast' : address.digits.coarseY = 29 := hLast
    rw [digits_withNametableY, digits_withCoarseY, hLast']
    ext <;> simp [digits]
  next hNotLast =>
    have hNotLast' : ¬address.digits.coarseY = 29 := hNotLast
    rw [if_neg hNotLast', if_neg hNotLast']
    split
    next hEnd =>
      have hEnd' : address.digits.coarseY = 31 := hEnd
      rw [digits_withCoarseY, hEnd']
      ext <;> simp [digits]
    next =>
      rw [digits_withCoarseY]
      ext <;> simp [digits]

/- A step down: the row of pixels carries into that of tiles. -/
theorem digits_incrementY (address : ScrollAddress) :
    address.incrementY.digits =
      if address.digits.fineY = 7 then
        { (address.withFineY 0).incrementCoarseY.digits with
          fineY := 0 }
      else
        { address.digits with
          fineY := address.digits.fineY + 1 } := by
  have hBounds := address.digits_lt
  unfold incrementY
  simp only [word_beq_iff, UInt16.reduceToNat]
  split
  next hLast =>
    have hLast' : address.digits.fineY = 7 := hLast
    rw [if_pos hLast', digits_incrementCoarseY,
      digits_withFineY]
    ext <;> simp
  next hNotLast =>
    have hNotLast' : ¬address.digits.fineY = 7 := hNotLast
    have hStep :
        (address.fineY + 1).toNat % 8 =
          address.digits.fineY + 1 := by
      have hFine : address.digits.fineY = address.fineY.toNat :=
        rfl
      simp only [UInt16.toNat_add, UInt16.reduceToNat]
      omega
    rw [if_neg hNotLast', digits_withFineY, hStep]

/- The horizontal position is two digits. -/
theorem digits_copyHorizontal
    (address source : ScrollAddress) :
    (address.copyHorizontal source).digits =
      { address.digits with
        coarseX := source.digits.coarseX
        nametableX := source.digits.nametableX } := by
  have hBounds := source.digits_lt
  unfold copyHorizontal
  rw [digits_withNametableX, digits_withCoarseX]
  ext
  · exact Nat.mod_eq_of_lt hBounds.1
  · rfl
  · exact Nat.mod_eq_of_lt hBounds.2.2.1
  · rfl
  · rfl

/- The vertical position is the other three. -/
theorem digits_copyVertical
    (address source : ScrollAddress) :
    (address.copyVertical source).digits =
      { address.digits with
        coarseY := source.digits.coarseY
        nametableY := source.digits.nametableY
        fineY := source.digits.fineY } := by
  have hBounds := source.digits_lt
  unfold copyVertical
  rw [digits_withFineY, digits_withNametableY,
    digits_withCoarseY]
  ext
  · rfl
  · exact Nat.mod_eq_of_lt hBounds.2.1
  · rfl
  · exact Nat.mod_eq_of_lt hBounds.2.2.2.1
  · exact Nat.mod_eq_of_lt hBounds.2.2.2.2

------------------------------------------------------------
-- Counters
------------------------------------------------------------

/- The column of the tile among those of two nametables. -/
def planeColumn (address : ScrollAddress) : Nat :=
  32 * address.digits.nametableX + address.digits.coarseX

/- The row of pixels among those of two nametables. -/
def planeRow (address : ScrollAddress) : Nat :=
  240 * address.digits.nametableY +
    8 * address.digits.coarseY + address.digits.fineY

/- The row of tiles is one that the nametables have. -/
def OnPlane (address : ScrollAddress) : Prop :=
  address.digits.coarseY ≤ 29

theorem planeColumn_lt (address : ScrollAddress) :
    address.planeColumn < 64 := by
  have hBounds := address.digits_lt
  unfold planeColumn
  omega

theorem planeRow_lt
    (address : ScrollAddress)
    (hPlane : address.OnPlane) :
    address.planeRow < 480 := by
  have hBounds := address.digits_lt
  unfold OnPlane at hPlane
  unfold planeRow
  omega

/- A step across is a step of the column. -/
theorem planeColumn_incrementX (address : ScrollAddress) :
    address.incrementX.planeColumn =
      (address.planeColumn + 1) % 64 := by
  have hBounds := address.digits_lt
  unfold planeColumn
  rw [digits_incrementX]
  dsimp only
  split <;> omega

/- A step across stays in its row. -/
theorem planeRow_incrementX (address : ScrollAddress) :
    address.incrementX.planeRow = address.planeRow := by
  unfold planeRow
  rw [digits_incrementX]

theorem onPlane_incrementX
    (address : ScrollAddress)
    (hPlane : address.OnPlane) :
    address.incrementX.OnPlane := by
  unfold OnPlane at hPlane ⊢
  rw [digits_incrementX]
  exact hPlane

/- A step down is a step of the row. -/
theorem planeRow_incrementY
    (address : ScrollAddress)
    (hPlane : address.OnPlane) :
    address.incrementY.planeRow =
      (address.planeRow + 1) % 480 := by
  have hBounds := address.digits_lt
  unfold OnPlane at hPlane
  unfold planeRow
  rw [digits_incrementY]
  split
  next hLast =>
    rw [digits_incrementCoarseY, digits_withFineY]
    dsimp only
    split_ifs <;> omega
  next hNotLast =>
    dsimp only
    omega

theorem onPlane_incrementY
    (address : ScrollAddress)
    (hPlane : address.OnPlane) :
    address.incrementY.OnPlane := by
  unfold OnPlane at hPlane ⊢
  rw [digits_incrementY]
  split
  · rw [digits_incrementCoarseY, digits_withFineY]
    dsimp only
    split_ifs <;> omega
  · exact hPlane

/- The column is what a horizontal position consists of. -/
theorem planeColumn_copyHorizontal
    (address source : ScrollAddress) :
    (address.copyHorizontal source).planeColumn =
      source.planeColumn := by
  unfold planeColumn
  rw [digits_copyHorizontal]

theorem planeRow_copyHorizontal
    (address source : ScrollAddress) :
    (address.copyHorizontal source).planeRow =
      address.planeRow := by
  unfold planeRow
  rw [digits_copyHorizontal]

theorem onPlane_copyHorizontal
    (address source : ScrollAddress)
    (hPlane : address.OnPlane) :
    (address.copyHorizontal source).OnPlane := by
  unfold OnPlane at hPlane ⊢
  rw [digits_copyHorizontal]
  exact hPlane

/- The row is what a vertical position consists of. -/
theorem planeRow_copyVertical
    (address source : ScrollAddress) :
    (address.copyVertical source).planeRow =
      source.planeRow := by
  unfold planeRow
  rw [digits_copyVertical]

theorem planeColumn_copyVertical
    (address source : ScrollAddress) :
    (address.copyVertical source).planeColumn =
      address.planeColumn := by
  unfold planeColumn
  rw [digits_copyVertical]

theorem onPlane_copyVertical
    (address source : ScrollAddress)
    (hPlane : source.OnPlane) :
    (address.copyVertical source).OnPlane := by
  unfold OnPlane at hPlane ⊢
  rw [digits_copyVertical]
  exact hPlane

end ScrollAddress

end Famicom
