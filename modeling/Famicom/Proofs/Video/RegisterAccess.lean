import Famicom.Proofs.Video.Events

/-
  What register accesses change.

  No access moves the raster or starts vertical blank, and
  only a write to the control register asks for an interrupt.
  Few registers reach the scroll registers.

  Key definitions include:
    * `Ppu.AccessStable`
    * `Ppu.AccessKeeps`
    * `Ppu.writeRaises`

  Main declarations:
    * `Ppu.accessKeeps_stable`
    * `Ppu.handle_accessKeeps`
    * `Ppu.write_nmiRequested`
    * `Ppu.read_scroll`
    * `Ppu.write_scroll`
-/

namespace Famicom

namespace Ppu

variable (ppu : Ppu) (address : UInt16) (value : UInt8)

------------------------------------------------------------
-- What Accesses Keep
------------------------------------------------------------

/- Properties that accesses and transferred bytes keep. -/
structure AccessStable (motive : Ppu → Prop) : Prop where
  read : ∀ (ppu : Ppu) address,
    motive ppu → motive (ppu.read address).2
  write : ∀ (ppu : Ppu) address value,
    motive ppu → motive (ppu.write address value)
  writeOam : ∀ (ppu : Ppu) value,
    motive ppu → motive (ppu.writeOam value)

/- The raster, the timing, and vertical blank not started. -/
structure AccessKeeps (old new : Ppu) : Prop where
  timing : new.timing = old.timing
  raster : new.raster = old.raster
  verticalBlank :
    new.registers.status.verticalBlank = true →
      old.registers.status.verticalBlank = true

namespace AccessKeeps

theorem refl : AccessKeeps ppu ppu := ⟨rfl, rfl, id⟩

theorem trans
    {first second third : Ppu}
    (hFirst : AccessKeeps first second)
    (hSecond : AccessKeeps second third) :
    AccessKeeps first third where
  timing := hSecond.timing.trans hFirst.timing
  raster := hSecond.raster.trans hFirst.raster
  verticalBlank := hFirst.verticalBlank ∘ hSecond.verticalBlank

end AccessKeeps

theorem read_accessKeeps :
    AccessKeeps ppu (ppu.read address).2 := by
  unfold read
  split
  · refine ⟨rfl, rfl, ?_⟩
    intro hBlank
    simp [readStatus, PpuRegisters.setVerticalBlank] at hBlank
  · exact .refl ppu
  · exact ⟨rfl, rfl, id⟩
  · exact .refl ppu

theorem write_accessKeeps :
    AccessKeeps ppu (ppu.write address value) := by
  unfold write
  dsimp only
  split <;> exact ⟨rfl, rfl, id⟩

/- All of them keep what a single access keeps. -/
theorem accessKeeps_stable :
    AccessStable (AccessKeeps ppu) where
  read := fun ppu address hKeeps =>
    hKeeps.trans (ppu.read_accessKeeps address)
  write := fun ppu address value hKeeps =>
    hKeeps.trans (ppu.write_accessKeeps address value)
  writeOam := fun _ _ hKeeps =>
    hKeeps.trans ⟨rfl, rfl, id⟩

/- Events that are neither dots nor resets keep it too. -/
theorem handle_accessKeeps
    {event : Event}
    (hDot : event ≠ .dot)
    (hReset : event ≠ .reset) :
    AccessKeeps ppu (ppu.handle event) := by
  cases event with
  | dot => exact absurd rfl hDot
  | reset => exact absurd rfl hReset
  | read address => exact read_accessKeeps ppu address
  | write address value =>
      exact write_accessKeeps ppu address value
  | writeOam value => exact ⟨rfl, rfl, id⟩
  | acceptNmi => exact ⟨rfl, rfl, id⟩
  | acceptFrame => exact ⟨rfl, rfl, id⟩

------------------------------------------------------------
-- Requests
------------------------------------------------------------

@[simp] theorem read_nmiRequested :
    (ppu.read address).2.nmiRequested =
      ppu.nmiRequested := by
  unfold read
  split <;> rfl

@[simp] theorem read_control :
    (ppu.read address).2.registers.control =
      ppu.registers.control := by
  unfold read
  split <;> rfl

/-
  Whether a write asks for an interrupt: it enables the
  interrupt, which was disabled, during vertical blank.
-/
def writeRaises : Bool :=
  (PpuRegister.ofAddress address == .control) &&
    (!ppu.registers.control.nmiEnabled &&
      (PpuControl.mk value).nmiEnabled &&
      ppu.registers.status.verticalBlank)

theorem write_nmiRequested :
    (ppu.write address value).nmiRequested =
      (ppu.nmiRequested ||
        ppu.writeRaises address value) := by
  unfold write writeRaises
  dsimp only
  split
  next h =>
    rw [h]
    rfl
  all_goals
    next h =>
      rw [h]
      exact (Bool.or_false _).symm

theorem write_control :
    (ppu.write address value).registers.control =
      if PpuRegister.ofAddress address = .control then
        ⟨value⟩
      else
        ppu.registers.control := by
  unfold write
  dsimp only
  split
  next h =>
    rw [h, if_pos rfl]
    rfl
  all_goals
    next h =>
      rw [h, if_neg (by decide)]
      rfl

------------------------------------------------------------
-- Scroll Registers
------------------------------------------------------------

/- What a read does to the scroll registers. -/
theorem read_scroll :
    (ppu.read address).2.scroll =
      match PpuRegister.ofAddress address with
      | .status => ppu.scroll.resetLatch
      | .data => ppu.advanceAddress.scroll
      | _ => ppu.scroll := by
  unfold read
  cases PpuRegister.ofAddress address <;> rfl

/- What a write does to them. -/
theorem write_scroll :
    (ppu.write address value).scroll =
      match PpuRegister.ofAddress address with
      | .control =>
          ppu.scroll.writeControl (PpuControl.mk value).nametable
      | .scroll => ppu.scroll.writeScroll value
      | .address => ppu.scroll.writeAddress value
      | .data => ppu.advanceAddress.scroll
      | _ => ppu.scroll := by
  unfold write
  cases PpuRegister.ofAddress address <;> rfl

end Ppu

end Famicom
