import Famicom.Proofs.Video.Background
import Famicom.Proofs.Video.RegisterAccess

/-
  Scroll addresses have fifteen bits.

  What the processor writes is cut to fifteen bits, and the
  unit itself only replaces digits of the address by others.

  Key definitions include:
    * `ScrollAddress.Fits`
    * `Scroll.Fits`

  Main declarations:
    * `Ppu.fits_handle`
    * `Ppu.fits_after`
-/

namespace Famicom

------------------------------------------------------------
-- Fifteen Bits
------------------------------------------------------------

namespace ScrollAddress

/- The address has fifteen bits. -/
def Fits (address : ScrollAddress) : Prop :=
  address.bits.toNat < 2 ^ 15

theorem toNat_ofWord (value : UInt16) :
    (ofWord value).bits.toNat = value.toNat % 2 ^ 15 := by
  unfold ofWord
  rw [UInt16.toNat_and]
  exact Nat.and_two_pow_sub_one_eq_mod value.toNat 15

theorem fits_ofWord (value : UInt16) : (ofWord value).Fits := by
  unfold Fits
  rw [toNat_ofWord]
  exact Nat.mod_lt _ (by decide)

namespace Fits

variable {address : ScrollAddress}
variable (hFits : address.Fits)

include hFits

/- A digit of fifteen bits is replaced by another one. -/
theorem setDigit
    {weight radix : UInt16}
    (value : UInt16)
    (hWeight : 0 < weight.toNat)
    (hRadix : 0 < radix.toNat)
    (hLimit : weight.toNat * radix.toNat ∣ 2 ^ 15) :
    (address.setDigit weight radix value).Fits := by
  have hWord : weight.toNat * radix.toNat ∣ 65536 :=
    hLimit.trans (by decide)
  unfold Fits
  rw [toNat_setDigit _ _ _ _ hWeight hRadix hWord]
  exact replaceDigit_lt hWeight (Nat.mod_lt _ hRadix) hLimit
    hFits

theorem withCoarseX (value : UInt16) :
    (address.withCoarseX value).Fits :=
  hFits.setDigit value (by decide) (by decide) (by decide)

theorem withCoarseY (value : UInt16) :
    (address.withCoarseY value).Fits :=
  hFits.setDigit value (by decide) (by decide) (by decide)

theorem withNametableX (value : UInt16) :
    (address.withNametableX value).Fits :=
  hFits.setDigit value (by decide) (by decide) (by decide)

theorem withNametableY (value : UInt16) :
    (address.withNametableY value).Fits :=
  hFits.setDigit value (by decide) (by decide) (by decide)

theorem withNametable (value : UInt16) :
    (address.withNametable value).Fits :=
  hFits.setDigit value (by decide) (by decide) (by decide)

theorem withFineY (value : UInt16) :
    (address.withFineY value).Fits :=
  hFits.setDigit value (by decide) (by decide) (by decide)

theorem incrementX : address.incrementX.Fits := by
  unfold ScrollAddress.incrementX
  split
  · exact (hFits.withCoarseX _).withNametableX _
  · exact hFits.withCoarseX _

theorem incrementCoarseY : address.incrementCoarseY.Fits := by
  unfold ScrollAddress.incrementCoarseY
  split_ifs
  · exact (hFits.withCoarseY _).withNametableY _
  · exact hFits.withCoarseY _
  · exact hFits.withCoarseY _

theorem incrementY : address.incrementY.Fits := by
  unfold ScrollAddress.incrementY
  split
  · exact (hFits.withFineY _).incrementCoarseY
  · exact hFits.withFineY _

theorem copyHorizontal (source : ScrollAddress) :
    (address.copyHorizontal source).Fits :=
  (hFits.withCoarseX _).withNametableX _

theorem copyVertical (source : ScrollAddress) :
    (address.copyVertical source).Fits :=
  ((hFits.withCoarseY _).withNametableY _).withFineY _

end Fits

end ScrollAddress

/- Both addresses have fifteen bits. -/
structure Scroll.Fits (scroll : Scroll) : Prop where
  current : scroll.current.Fits
  temporary : scroll.temporary.Fits

theorem Scroll.fits_default : Scroll.Fits {} :=
  ⟨Nat.two_pow_pos 15, Nat.two_pow_pos 15⟩

namespace Scroll.Fits

variable {scroll : Scroll}
variable (hFits : scroll.Fits)

include hFits

theorem writeControl (nametable : UInt8) :
    (scroll.writeControl nametable).Fits :=
  ⟨hFits.current, hFits.temporary.withNametable _⟩

theorem writeScroll (value : UInt8) :
    (scroll.writeScroll value).Fits := by
  unfold Scroll.writeScroll
  dsimp only
  split
  · exact ⟨hFits.current, hFits.temporary.withCoarseX _⟩
  · exact ⟨hFits.current,
      (hFits.temporary.withCoarseY _).withFineY _⟩

theorem writeAddress (value : UInt8) :
    (scroll.writeAddress value).Fits := by
  unfold Scroll.writeAddress
  split
  · exact ⟨hFits.current, ScrollAddress.fits_ofWord _⟩
  · exact ⟨ScrollAddress.fits_ofWord _,
      ScrollAddress.fits_ofWord _⟩

end Scroll.Fits

namespace Ppu

variable {ppu : Ppu}

/- Fetches move the current address by whole digits. -/
theorem fits_fetchBackground
    (hCurrent : ppu.scroll.current.Fits) :
    ppu.fetchBackground.scroll.current.Fits := by
  rw [fetchBackground_current]
  split
  · exact hCurrent.incrementX
  · exact hCurrent

theorem fits_updateScroll
    (hCurrent : ppu.scroll.current.Fits) :
    ppu.updateScroll.scroll.current.Fits := by
  unfold updateScroll
  dsimp only
  split_ifs
  · exact hCurrent
  · exact hCurrent.incrementY
  · rw [evaluateSprites_scroll]
    exact hCurrent.copyHorizontal _
  · exact hCurrent.copyVertical _
  · exact hCurrent
  · exact hCurrent

theorem fits_tick
    (hFits : ppu.scroll.Fits) : ppu.tick.2.scroll.Fits where
  current := by
    rw [tick_scroll]
    unfold atOutput fetch
    dsimp only
    split_ifs
    · exact fits_updateScroll
        (fits_fetchBackground hFits.current)
    · exact fits_updateScroll hFits.current
    · exact hFits.current
  temporary := by
    rw [(tick_keeps ppu).temporary]
    exact hFits.temporary

/- A data access moves it by an increment or by digits. -/
theorem fits_advanceAddress
    (hFits : ppu.scroll.Fits) :
    ppu.advanceAddress.scroll.Fits := by
  refine ⟨?_, hFits.temporary⟩
  unfold advanceAddress
  dsimp only
  split
  · exact hFits.current.incrementX.incrementY
  · exact ScrollAddress.fits_ofWord _

theorem fits_handle
    (event : Event)
    (hFits : ppu.scroll.Fits) :
    (ppu.handle event).scroll.Fits := by
  cases event with
  | dot => exact fits_tick hFits
  | read address =>
      show (ppu.read address).2.scroll.Fits
      rw [read_scroll]
      split
      · exact ⟨hFits.current, hFits.temporary⟩
      · exact fits_advanceAddress hFits
      · exact hFits
  | write address value =>
      show (ppu.write address value).scroll.Fits
      rw [write_scroll]
      split
      · exact hFits.writeControl _
      · exact hFits.writeScroll value
      · exact hFits.writeAddress value
      · exact fits_advanceAddress hFits
      · exact hFits
  | writeOam value => exact hFits
  | acceptNmi => exact hFits
  | acceptFrame => exact hFits
  | reset => exact Scroll.fits_default

theorem fits_after
    (events : List Event)
    (hFits : ppu.scroll.Fits) :
    (ppu.after events).scroll.Fits :=
  after_invariant (motive := fun now => now.scroll.Fits)
    (fun _ => fits_handle) hFits events

end Ppu

end Famicom
