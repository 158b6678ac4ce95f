import Famicom.Proofs.Fields
import Famicom.Proofs.Video.ScrollCounters

/-
  The digits of the scroll address as groups of its bits.

  A digit whose weight and radix are powers of two is what a
  mask selects.  So replacing a digit leaves the bits outside
  its mask, and taking digits over from another address takes
  over the bits of their masks.

  Key definitions include:
    * `ScrollAddress.Selects`
    * `ScrollAddress.SameOutside`
    * `ScrollAddress.merge`
    * `ScrollAddress.horizontalMask`
    * `ScrollAddress.verticalMask`

  Main declarations:
    * `ScrollAddress.field_eq_digit`
    * `ScrollAddress.setField_eq_setDigit`
    * `ScrollAddress.bits_copyHorizontal`
    * `ScrollAddress.bits_copyVertical`
    * `ScrollAddress.eq_of_digits`
-/

namespace Famicom

------------------------------------------------------------
-- Bits of Numbers
------------------------------------------------------------

/- Replacing a digit of a power of two replaces its bits. -/
theorem testBit_replaceDigit
    {number start count digit place : Nat}
    (hDigit : digit < 2 ^ count) :
    (replaceDigit number (2 ^ start) (2 ^ count)
        digit).testBit place =
      if start ≤ place ∧ place < start + count then
        digit.testBit (place - start)
      else
        number.testBit place := by
  rw [replaceDigit_eq,
    Nat.testBit_two_pow_mul_add _
      (Nat.mod_lt _ (Nat.two_pow_pos start)),
    Nat.testBit_two_pow_mul_add _ hDigit,
    Nat.testBit_mod_two_pow, Nat.testBit_div_two_pow,
    Nat.testBit_div_two_pow]
  rcases Nat.lt_or_ge place start with hBelow | hFrom
  · rw [if_pos hBelow, if_neg (by omega),
      decide_eq_true hBelow, Bool.true_and]
  · rw [if_neg (by omega)]
    rcases Nat.lt_or_ge place (start + count) with
      hInside | hAbove
    · rw [if_pos (by omega), if_pos ⟨hFrom, hInside⟩]
    · rw [if_neg (by omega), if_neg (by omega),
        show place - start - count + count + start = place by
          omega]

namespace ScrollAddress

------------------------------------------------------------
-- Digits and Masks
------------------------------------------------------------

/- The mask selects the digit of a weight and a radix. -/
def Selects (mask weight radix : UInt16) : Prop :=
  ∃ start count,
    0 < count ∧
      Bits.Field.Covers ⟨mask.toBitVec⟩ start count ∧
      weight.toNat = 2 ^ start ∧ radix.toNat = 2 ^ count

theorem selects_coarseX : Selects coarseXMask 1 32 :=
  ⟨0, 5, by decide, ⟨by decide, by decide⟩, rfl, rfl⟩

theorem selects_coarseY : Selects coarseYMask 32 32 :=
  ⟨5, 5, by decide, ⟨by decide, by decide⟩, rfl, rfl⟩

theorem selects_nametableX : Selects nametableXMask 1024 2 :=
  ⟨10, 1, by decide, ⟨by decide, by decide⟩, rfl, rfl⟩

theorem selects_nametableY : Selects nametableYMask 2048 2 :=
  ⟨11, 1, by decide, ⟨by decide, by decide⟩, rfl, rfl⟩

theorem selects_fineY : Selects fineYMask 4096 8 :=
  ⟨12, 3, by decide, ⟨by decide, by decide⟩, rfl, rfl⟩

theorem selects_highest : Selects 0x8000 32768 2 :=
  ⟨15, 1, by decide, ⟨by decide, by decide⟩, rfl, rfl⟩

section Selects

variable {mask weight radix : UInt16}
variable (hSelects : Selects mask weight radix)

include hSelects

theorem field_eq_digit (address : ScrollAddress) :
    address.field mask = address.digit weight radix := by
  rcases hSelects with
    ⟨start, count, hCount, hCovers, hWeight, hRadix⟩
  apply UInt16.toNat_inj.mp
  rw [toNat_digit, hWeight, hRadix]
  apply Nat.eq_of_testBit_eq
  intro place
  show ((Bits.Field.get ⟨mask.toBitVec⟩
    address.bits.toBitVec).toNat).testBit place = _
  rw [BitVec.testBit_toNat, Bits.Field.getLsbD_get,
    hCovers.getLsbD_eq,
    hCovers.offset_eq (by decide) hCount,
    Nat.testBit_mod_two_pow, Nat.testBit_div_two_pow,
    Nat.add_comm place, Bool.and_comm]
  show _ = (decide (place < count) &&
    address.bits.toBitVec.toNat.testBit (start + place))
  rw [BitVec.testBit_toNat]
  congr 1
  exact decide_eq_decide.mpr (by omega)

theorem setField_eq_setDigit
    (address : ScrollAddress)
    (value : UInt16) :
    address.setField mask value =
      address.setDigit weight radix value := by
  rcases hSelects with
    ⟨start, count, hCount, hCovers, hWeight, hRadix⟩
  have hLimit : weight.toNat * radix.toNat ∣ 65536 := by
    rw [hWeight, hRadix, ← Nat.pow_add]
    exact Nat.pow_dvd_pow 2 hCovers.fits
  have hDigit :
      (address.setDigit weight radix value).bits.toNat = _ :=
    toNat_setDigit address weight radix value
      (hWeight ▸ Nat.two_pow_pos _)
      (hRadix ▸ Nat.two_pow_pos _) hLimit
  suffices hBits :
      (address.setField mask value).bits =
        (address.setDigit weight radix value).bits from
    congrArg ScrollAddress.mk hBits
  apply UInt16.toNat_inj.mp
  apply Nat.eq_of_testBit_eq
  intro place
  rw [hDigit, hWeight, hRadix,
    testBit_replaceDigit (Nat.mod_lt _ (Nat.two_pow_pos _))]
  show ((Bits.Field.set ⟨mask.toBitVec⟩ value.toBitVec
    address.bits.toBitVec).toNat).testBit place = _
  rw [BitVec.testBit_toNat,
    Bits.Field.getLsbD_set (by decide),
    hCovers.offset_eq (by decide) hCount,
    hCovers.getLsbD_eq, Nat.testBit_mod_two_pow]
  by_cases hInside : start ≤ place ∧ place < start + count
  · rw [if_pos (decide_eq_true hInside), if_pos hInside,
      decide_eq_true (by omega), Bool.true_and]
    rfl
  · rw [if_neg (by rwa [decide_eq_true_iff]),
      if_neg hInside]
    rfl

end Selects

------------------------------------------------------------
-- Outside a Mask
------------------------------------------------------------

/- Two addresses differ in bits of a mask at most. -/
def SameOutside
    (mask : UInt16)
    (old new : ScrollAddress) : Prop :=
  new.bits &&& ~~~mask = old.bits &&& ~~~mask

namespace SameOutside

variable {mask : UInt16}
variable {old middle new : ScrollAddress}

theorem refl
    (mask : UInt16)
    (address : ScrollAddress) :
    SameOutside mask address address :=
  rfl

theorem symm (hSame : SameOutside mask old new) :
    SameOutside mask new old :=
  Eq.symm hSame

theorem trans
    (hOld : SameOutside mask old middle)
    (hNew : SameOutside mask middle new) :
    SameOutside mask old new :=
  Eq.trans hNew hOld

/- Bits outside a mask are outside every part of it. -/
theorem mono
    {whole : UInt16}
    (hSame : SameOutside mask old new)
    (hPart : ~~~mask &&& ~~~whole = ~~~whole) :
    SameOutside whole old new := by
  unfold SameOutside at hSame ⊢
  rw [← hPart, ← UInt16.and_assoc, hSame, UInt16.and_assoc]

/- The group of a mask outside another one is the same. -/
theorem field_eq
    {other : UInt16}
    (hSame : SameOutside mask old new)
    (hOther : ~~~mask &&& other = other) :
    new.field other = old.field other := by
  have hBits : new.bits &&& other = old.bits &&& other := by
    rw [← hOther, ← UInt16.and_assoc, hSame, UInt16.and_assoc]
  unfold field Bits.Field.get
  rw [← UInt16.toBitVec_and, hBits, UInt16.toBitVec_and]

/- Steps that stay within a mask do so together. -/
theorem iterate
    {step : ScrollAddress → ScrollAddress}
    (hStep : ∀ address,
      SameOutside mask address (step address))
    (address : ScrollAddress)
    (count : Nat) :
    SameOutside mask address (step^[count] address) := by
  induction count with
  | zero => exact refl mask address
  | succ count ih =>
      rw [Function.iterate_succ_apply']
      exact ih.trans (hStep _)

end SameOutside

theorem sameOutside_setDigit
    {mask weight radix : UInt16}
    (hSelects : Selects mask weight radix)
    (address : ScrollAddress)
    (value : UInt16) :
    SameOutside mask address
      (address.setDigit weight radix value) := by
  rw [← setField_eq_setDigit hSelects]
  apply UInt16.toBitVec_inj.mp
  exact Bits.Field.set_outside (by decide) _ _ _

/- A digit within a mask may change without a difference. -/
theorem SameOutside.setDigit
    {mask whole weight radix : UInt16}
    {old new : ScrollAddress}
    (hSame : SameOutside whole old new)
    (hSelects : Selects mask weight radix)
    (hPart : ~~~mask &&& ~~~whole = ~~~whole)
    (value : UInt16) :
    SameOutside whole old (new.setDigit weight radix value) :=
  hSame.trans
    ((sameOutside_setDigit hSelects new value).mono hPart)

/- All digits and the bit above them make up the address. -/
theorem eq_of_digits
    {one other : ScrollAddress}
    (hDigits : one.digits = other.digits)
    (hHighest : SameOutside 0x7FFF one other) :
    one = other := by
  have hTop : (one.digit 32768 2).toNat =
      (other.digit 32768 2).toNat := by
    rw [← field_eq_digit selects_highest,
      ← field_eq_digit selects_highest,
      hHighest.field_eq rfl]
  have hOne := one.bits.toNat_lt
  have hOther := other.bits.toNat_lt
  simp only [digits, coarseX, coarseY, nametableX, nametableY,
    fineY, Digits.mk.injEq, toNat_digit,
    UInt16.reduceToNat] at hDigits hTop
  rcases hDigits with
    ⟨hCoarseX, hCoarseY, hNametableX, hNametableY, hFineY⟩
  apply congrArg ScrollAddress.mk
  apply UInt16.toNat_inj.mp
  omega

------------------------------------------------------------
-- Copies
------------------------------------------------------------

/- A word with the bits of a mask taken from another one. -/
def merge (mask value source : UInt16) : UInt16 :=
  (value &&& ~~~mask) ||| (source &&& mask)

/- Two masks are taken over one after the other. -/
theorem merge_merge (mask other value source : UInt16) :
    merge other (merge mask value source) source =
      merge (mask ||| other) value source := by
  apply UInt16.toBitVec_inj.mp
  apply BitVec.eq_of_getLsbD_eq
  intro place hPlace
  simp only [merge, UInt16.toBitVec_or, UInt16.toBitVec_and,
    UInt16.toBitVec_not, BitVec.getLsbD_or,
    BitVec.getLsbD_and, BitVec.getLsbD_not]
  cases mask.toBitVec.getLsbD place <;>
    cases other.toBitVec.getLsbD place <;> simp [hPlace]

theorem bits_setDigit_digit
    {mask weight radix : UInt16}
    (hSelects : Selects mask weight radix)
    (address source : ScrollAddress) :
    (address.setDigit weight radix
        (source.digit weight radix)).bits =
      merge mask address.bits source.bits := by
  rw [← field_eq_digit hSelects,
    ← setField_eq_setDigit hSelects]
  apply UInt16.toBitVec_inj.mp
  exact Bits.Field.set_get (by decide) _ _ _

/- The bits of the horizontal position. -/
def horizontalMask : UInt16 :=
  nametableXMask ||| coarseXMask

/- The bits of the vertical position. -/
def verticalMask : UInt16 :=
  fineYMask ||| nametableYMask ||| coarseYMask

theorem bits_copyHorizontal (address source : ScrollAddress) :
    (address.copyHorizontal source).bits =
      merge horizontalMask address.bits source.bits := by
  unfold copyHorizontal withNametableX nametableX withCoarseX
    coarseX
  rw [bits_setDigit_digit selects_nametableX,
    bits_setDigit_digit selects_coarseX, merge_merge]
  rfl

theorem bits_copyVertical (address source : ScrollAddress) :
    (address.copyVertical source).bits =
      merge verticalMask address.bits source.bits := by
  unfold copyVertical withFineY fineY withNametableY nametableY
    withCoarseY coarseY
  rw [bits_setDigit_digit selects_fineY,
    bits_setDigit_digit selects_nametableY,
    bits_setDigit_digit selects_coarseY, merge_merge,
    merge_merge]
  rfl

end ScrollAddress

end Famicom
