import Famicom.Bits
import Mathlib

/-
  Bits, and words of two bytes, as the numbers that they
  stand for.

  Key definitions include:
    * `bitAt`

  Main declarations:
    * `Bits.toNat_bit`
    * `Bits.toNat_word`
    * `Bits.word_lowByte_highByte`
    * `Bits.toNat_page`
    * `Bits.differentPages_iff`
-/

namespace Famicom

------------------------------------------------------------
-- Bits
------------------------------------------------------------

/- One bit of a number, as the number 0 or 1. -/
def bitAt (number place : Nat) : Nat :=
  number / 2 ^ place % 2

theorem bitAt_lt (number place : Nat) :
    bitAt number place < 2 :=
  Nat.mod_lt _ (by decide)

theorem bitAt_eq_testBit (number place : Nat) :
    bitAt number place = (number.testBit place).toNat :=
  (Nat.toNat_testBit number place).symm

/- A bit of a byte is a bit of the number it stands for. -/
theorem Bits.toNat_bit
    (value place : UInt8)
    (hPlace : place.toNat < 8) :
    (Bits.bit value place).toNat =
      bitAt value.toNat place.toNat := by
  unfold Bits.bit bitAt
  rw [UInt8.toNat_and, UInt8.toNat_shiftRight,
    Nat.mod_eq_of_lt hPlace, Nat.shiftRight_eq_div_pow]
  exact Nat.and_two_pow_sub_one_eq_mod _ 1

namespace Bits

------------------------------------------------------------
-- Bytes of Words
------------------------------------------------------------

/- A byte that is put below an empty one is added. -/
theorem toNat_or_below
    {high low : UInt16}
    (hHigh : high.toNat % 256 = 0)
    (hLow : low.toNat < 256) :
    (high ||| low).toNat = high.toNat + low.toNat := by
  have hSplit : high.toNat = 2 ^ 8 * (high.toNat / 256) := by
    omega
  rw [UInt16.toNat_or, hSplit]
  exact (Nat.two_pow_add_eq_or_of_lt (i := 8) hLow _).symm

/- A byte that is moved up by eight places. -/
theorem toNat_shiftLeft_byte (value : UInt8) :
    (value.toUInt16 <<< 8).toNat = 256 * value.toNat := by
  have hValue := value.toNat_lt
  simp only [UInt16.toNat_shiftLeft, UInt8.toNat_toUInt16,
    UInt16.reduceToNat, Nat.reduceMod, Nat.shiftLeft_eq]
  omega

theorem toNat_word
    (low high : UInt8) :
    (word low high).toNat =
      256 * high.toNat + low.toNat := by
  have hHigh := toNat_shiftLeft_byte high
  have hLow : low.toUInt16.toNat < 256 := low.toNat_lt
  unfold word
  rw [toNat_or_below (by omega) hLow, hHigh]
  rfl

theorem toNat_lowByte (value : UInt16) :
    (lowByte value).toNat = value.toNat % 256 :=
  UInt16.toNat_toUInt8 value

theorem toNat_highByte (value : UInt16) :
    (highByte value).toNat = value.toNat / 256 := by
  have hValue := value.toNat_lt
  unfold highByte
  simp only [UInt16.toNat_toUInt8, UInt16.toNat_shiftRight,
    UInt16.reduceToNat, Nat.reduceMod,
    Nat.shiftRight_eq_div_pow]
  omega

/- A word is made of its two bytes. -/
theorem word_lowByte_highByte (value : UInt16) :
    word (lowByte value) (highByte value) = value := by
  apply UInt16.toNat_inj.mp
  rw [toNat_word, toNat_lowByte, toNat_highByte]
  omega

------------------------------------------------------------
-- Pages
------------------------------------------------------------

/- The start of the page of an address. -/
theorem toNat_page (address : UInt16) :
    (address &&& 0xFF00).toNat =
      256 * (address.toNat / 256) := by
  have hAddress : address.toNat < 65536 := address.toNat_lt
  have hPage :
      (address.toNat &&& 0xFF00) / 2 ^ 8 =
        address.toNat / 256 := by
    rw [Nat.and_div_two_pow]
    show address.toNat / 256 &&& 2 ^ 8 - 1 = _
    rw [Nat.and_two_pow_sub_one_eq_mod]
    omega
  have hPlace :
      (address.toNat &&& 0xFF00) % 2 ^ 8 = 0 := by
    rw [Nat.and_mod_two_pow]
    exact Nat.and_zero _
  rw [UInt16.toNat_and]
  show address.toNat &&& 0xFF00 = _
  omega

theorem differentPages_iff (a b : UInt16) :
    differentPages a b = true ↔
      a.toNat / 256 ≠ b.toNat / 256 := by
  unfold differentPages
  rw [bne_iff_ne, Ne, ← UInt16.toNat_inj, toNat_page,
    toNat_page]
  omega

end Bits

end Famicom
