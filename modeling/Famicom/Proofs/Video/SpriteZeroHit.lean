import Famicom.Proofs.Video.Background
import Famicom.Proofs.Video.BlankInterrupt
import Famicom.Proofs.Video.SpriteZeroUnits

/-
  When sprite 0 hits the background.

  The flag rises on the dots that output a pixel of both at
  once, wherever the clipping and the last column allow it,
  and whichever of the two is seen.  It falls on the dot that
  ends vertical blank.

  Key definitions include:
    * `Ppu.zeroHit`
    * `Ppu.ZeroMeets`
    * `Ppu.AtStatusEnd`

  Main declarations:
    * `Ppu.tick_zeroHit`
    * `Ppu.meetsZero_iff`
    * `Ppu.zeroHit_changes`
-/

namespace Famicom

------------------------------------------------------------
-- Columns
------------------------------------------------------------

namespace PpuMask

variable {mask : PpuMask} {x : Nat}

theorem backgroundAt_iff :
    mask.backgroundAt x = true ↔
      mask.background = true ∧
        (8 ≤ x ∨
          Bits.meets mask.bits leftBackgroundMask = true) := by
  unfold backgroundAt
  rw [Bool.and_eq_true, Bool.or_eq_true, decide_eq_true_iff]

theorem spritesAt_iff :
    mask.spritesAt x = true ↔
      mask.sprites = true ∧
        (8 ≤ x ∨
          Bits.meets mask.bits leftSpritesMask = true) := by
  unfold spritesAt
  rw [Bool.and_eq_true, Bool.or_eq_true, decide_eq_true_iff]

end PpuMask

------------------------------------------------------------
-- Background Pixels
------------------------------------------------------------

namespace Shifters

/- What is loaded is not shown before it has been shifted. -/
theorem tap_reload
    (register : UInt16)
    (value fineX : UInt8)
    (hFine : fineX < 8) :
    tap (reload register value) fineX =
      tap register fineX := by
  have hFineNat : fineX.toNat < 8 := hFine
  have hPlace : 15 - fineX.toNat = (7 - fineX.toNat) + 8 := by
    omega
  apply UInt8.toNat_inj.mp
  rw [toNat_tap _ _ (by omega), toNat_tap _ _ (by omega),
    hPlace, bitAt_reload_upper _ _ _ (by omega)]

theorem pixel_load
    (shifters : Shifters)
    (next : TileLatch)
    {fineX : UInt8}
    (hFine : fineX < 8) :
    (shifters.load next).pixel fineX =
      shifters.pixel fineX := by
  unfold pixel load
  dsimp only
  rw [tap_reload _ _ _ hFine, tap_reload _ _ _ hFine,
    tap_reload _ _ _ hFine, tap_reload _ _ _ hFine]

end Shifters

namespace Ppu

variable {ppu : Ppu}

theorem fetchBackground_pixel
    {fineX : UInt8}
    (hFine : fineX < 8) :
    ppu.fetchBackground.pipeline.backgroundPixel fineX =
      ppu.pipeline.backgroundPixel fineX := by
  unfold fetchBackground
  split
  · exact Shifters.pixel_load _ _ hFine
  all_goals rfl

/- The pixel of a dot is there before the dot. -/
theorem atOutput_backgroundPixel
    (hFetch : isFetchDot ppu.raster.dot = true)
    (hFine : ppu.scroll.fineX < 8) :
    ppu.atOutput.pipeline.backgroundPixel
        ppu.atOutput.scroll.fineX =
      ppu.pipeline.backgroundPixel ppu.scroll.fineX := by
  rw [(atOutput_keeps ppu).fineX]
  by_cases hRendering : ppu.isRendering = true
  · rw [atOutput_pipeline hRendering hFetch]
    exact fetchBackground_pixel hFine
  · rw [atOutput, if_neg hRendering]

/- What competes for a pixel is there before its dot. -/
theorem atOutput_layersAt
    (hDot : 1 ≤ ppu.raster.dot ∧ ppu.raster.dot ≤ 256)
    (hFine : ppu.scroll.fineX < 8)
    (x : Nat) :
    ppu.atOutput.layersAt x = ppu.layersAt x := by
  have hFetch : isFetchDot ppu.raster.dot = true :=
    (isFetchDot_iff _).mpr (.inl hDot)
  have hNotReturn : ppu.raster.dot ≠ 257 := by omega
  unfold layersAt Pipeline.spritePixel
  rw [atOutput_backgroundPixel hFetch hFine,
    atOutput_sprites hNotReturn, (atOutput_keeps ppu).mask]

------------------------------------------------------------
-- The Flag
------------------------------------------------------------

/- Whether sprite 0 has hit the background. -/
def zeroHit (ppu : Ppu) : Bool :=
  ppu.registers.status.spriteZeroHit

theorem evaluateSprites_zeroHit (ppu : Ppu) :
    ppu.evaluateSprites.zeroHit = ppu.zeroHit := by
  unfold evaluateSprites
  dsimp only
  split
  · rfl
  · unfold zeroHit
    dsimp only
    split <;> rfl

theorem updateScroll_zeroHit (ppu : Ppu) :
    ppu.updateScroll.zeroHit = ppu.zeroHit := by
  unfold updateScroll
  dsimp only
  split_ifs
  · rfl
  · rfl
  · exact evaluateSprites_zeroHit _
  · rfl
  · rfl
  · rfl

/- Fetching leaves the flag alone. -/
theorem atOutput_zeroHit (ppu : Ppu) :
    ppu.atOutput.zeroHit = ppu.zeroHit := by
  have hFetch : ppu.fetchBackground.zeroHit = ppu.zeroHit := by
    unfold fetchBackground
    split <;> rfl
  unfold atOutput fetch
  dsimp only
  split
  · split
    · exact (updateScroll_zeroHit _).trans hFetch
    · exact updateScroll_zeroHit ppu
  · rfl

/- Whether a dot outputs pixels of both. -/
def meetsZero (ppu : Ppu) : Bool :=
  ppu.isPixelDot && ppu.registers.mask.rendering &&
    (ppu.layersAt (ppu.raster.dot - 1)).hitsAt
      (ppu.raster.dot - 1)

/- The output raises the flag and nothing else does. -/
theorem output_zeroHit (ppu : Ppu) :
    ppu.output.2.zeroHit = (ppu.zeroHit || ppu.meetsZero) := by
  unfold output outputPixel meetsZero
  dsimp only
  split_ifs with hDot hRendering hHit
  · rw [hDot, hRendering, hHit]
    exact (Bool.or_true _).symm
  · rw [Bool.eq_false_iff.mpr hHit, Bool.and_false,
      Bool.or_false]
  · rw [Bool.eq_false_iff.mpr hRendering, Bool.and_false,
      Bool.false_and, Bool.or_false]
  · rw [Bool.eq_false_iff.mpr hDot, Bool.false_and,
      Bool.false_and, Bool.or_false]

theorem drawn_zeroHit (ppu : Ppu) :
    ppu.drawn.zeroHit =
      (ppu.zeroHit || ppu.atOutput.meetsZero) := by
  have hShift (shown : Ppu) :
      shown.shift.zeroHit = shown.zeroHit := by
    unfold shift
    split <;> rfl
  rw [← atOutput_zeroHit ppu, ← output_zeroHit]
  unfold drawn
  split
  · exact hShift _
  · rfl

/- Where all flags end. -/
def AtStatusEnd (ppu : Ppu) : Prop :=
  ppu.raster.scanline = ppu.timing.prerenderScanline ∧
    ppu.raster.dot = 1

theorem updateFlags_zeroHit_of_end
    (hTiming : ppu.timing.Standard)
    (hEnd : ppu.AtStatusEnd) :
    ppu.updateFlags.zeroHit = false := by
  have hBelow := hTiming.below
  have hNotBlank :
      ppu.raster.scanline ≠ ppu.timing.vblankScanline := by
    rw [hEnd.1, hTiming.blank]
    exact Nat.ne_of_gt hBelow
  unfold updateFlags
  rw [if_pos hEnd.2, if_neg hNotBlank,
    if_pos (isPrerenderLine_iff.mpr hEnd.1)]
  rfl

theorem updateFlags_zeroHit_of_not_end
    (hElsewhere : ¬ppu.AtStatusEnd) :
    ppu.updateFlags.zeroHit = ppu.zeroHit := by
  unfold updateFlags
  split_ifs with hDot hBlank hLine
  · rfl
  · exact absurd ⟨isPrerenderLine_iff.mp hLine, hDot⟩
      hElsewhere
  · rfl
  · rfl

/- A dot ends the flag, or raises it if both are met. -/
theorem tick_zeroHit
    (hTiming : ppu.timing.Standard) :
    ppu.tick.2.zeroHit = true ↔
      ¬ppu.AtStatusEnd ∧
        (ppu.zeroHit = true ∨
          ppu.atOutput.meetsZero = true) := by
  have hKeeps := drawn_keeps ppu
  have hTick : ppu.tick.2.zeroHit =
      ppu.drawn.updateFlags.zeroHit := rfl
  have hPlace : ppu.drawn.AtStatusEnd ↔ ppu.AtStatusEnd := by
    unfold AtStatusEnd
    rw [drawn_raster, hKeeps.timing]
  rw [hTick]
  by_cases hEnd : ppu.AtStatusEnd
  · rw [updateFlags_zeroHit_of_end
      (hKeeps.timing.symm ▸ hTiming) (hPlace.mpr hEnd)]
    constructor
    · intro hFalse
      cases hFalse
    · intro hElsewhere
      exact absurd hEnd hElsewhere.1
  · rw [updateFlags_zeroHit_of_not_end (mt hPlace.mp hEnd),
      drawn_zeroHit, Bool.or_eq_true]
    exact (and_iff_right hEnd).symm

------------------------------------------------------------
-- Meetings
------------------------------------------------------------

/-
  The dot outputs a pixel where neither the background nor
  sprite 0 is transparent, and where a hit counts.
-/
structure ZeroMeets (ppu : Ppu) : Prop where
  line : ppu.raster.scanline < Hardware.visibleScanlines
  dot : 1 ≤ ppu.raster.dot ∧ ppu.raster.dot ≤ 256
  background : ppu.registers.mask.background = true
  sprites : ppu.registers.mask.sprites = true
  column : ppu.raster.dot - 1 ≠ 255
  unclipped :
    ¬(ppu.raster.dot - 1 < 8 ∧
      ¬(Bits.meets ppu.registers.mask.bits
            PpuMask.leftBackgroundMask = true ∧
          Bits.meets ppu.registers.mask.bits
            PpuMask.leftSpritesMask = true))
  backgroundPixel :
    ppu.pipeline.backgroundPixel ppu.scroll.fineX ≠ 0
  unit : ∃ unit,
    ppu.HoldsZero unit ∧ unit.ShowsAt (ppu.raster.dot - 1)

/- Both layers are shown at a column. -/
theorem layers_shown_iff
    {mask : PpuMask}
    {x : Nat} :
    mask.backgroundAt x = true ∧ mask.spritesAt x = true ↔
      (mask.background = true ∧ mask.sprites = true) ∧
      ¬(x < 8 ∧
        ¬(Bits.meets mask.bits
              PpuMask.leftBackgroundMask = true ∧
            Bits.meets mask.bits
              PpuMask.leftSpritesMask = true)) := by
  rw [PpuMask.backgroundAt_iff, PpuMask.spritesAt_iff,
    ← Nat.not_lt]
  tauto

/- A hit in terms of the two layers. -/
theorem hitsAt_layersAt_iff
    (hLeads : ppu.pipeline.ZeroLeads)
    {x : Nat} :
    (ppu.layersAt x).hitsAt x = true ↔
      (ppu.registers.mask.backgroundAt x = true ∧
        ppu.registers.mask.spritesAt x = true) ∧
      x ≠ 255 ∧
      ppu.pipeline.backgroundPixel ppu.scroll.fineX ≠ 0 ∧
      ∃ unit, ppu.HoldsZero unit ∧ unit.ShowsAt x := by
  have hZero := hLeads.spritePixel_isZero_iff (x := x)
  have hUnits :
      (∃ unit, ppu.HoldsZero unit ∧ unit.ShowsAt x) ↔
        ∃ unit ∈ ppu.pipeline.sprites,
          unit.isZero = true ∧ unit.ShowsAt x := by
    unfold HoldsZero
    simp only [and_assoc]
  rw [hUnits, ← hZero]
  unfold Layers.hitsAt layersAt
  dsimp only
  cases hSprites : ppu.registers.mask.spritesAt x with
  | false => simp
  | true =>
      rw [if_pos rfl]
      cases hPixel : ppu.pipeline.spritePixel x with
      | none => simp
      | some pixel =>
          cases hShown :
              ppu.registers.mask.backgroundAt x with
          | false => simp
          | true =>
              simp only [if_true, Bool.and_eq_true,
                bne_iff_ne, Option.some.injEq,
                exists_eq_left', true_and]
              tauto

/-
  The dot outputs both exactly if they meet.  The first unit
  decides about sprites, and what is fetched on the dot does
  not matter yet.
-/
theorem meetsZero_iff
    (hFine : ppu.scroll.fineX < 8)
    (hLeads : ppu.pipeline.ZeroLeads) :
    ppu.atOutput.meetsZero = true ↔ ppu.ZeroMeets := by
  unfold meetsZero
  rw [Bool.and_eq_true, Bool.and_eq_true,
    atOutput_isPixelDot, isPixelDot_iff,
    (atOutput_keeps ppu).mask, atOutput_raster]
  by_cases hDot :
      1 ≤ ppu.raster.dot ∧ ppu.raster.dot ≤ 256
  · rw [atOutput_layersAt hDot hFine,
      hitsAt_layersAt_iff hLeads, layers_shown_iff]
    constructor
    · rintro ⟨⟨⟨hLine, _⟩, _⟩, ⟨hLayers, hLeft⟩, hX, hPixel,
        hUnit⟩
      exact ⟨hLine, hDot, hLayers.1, hLayers.2, hX, hLeft,
        hPixel, hUnit⟩
    · intro hMeets
      have hRendering :
          ppu.registers.mask.rendering = true := by
        unfold PpuMask.rendering
        rw [hMeets.background]
        rfl
      exact ⟨⟨⟨hMeets.line, hDot⟩, hRendering⟩,
        ⟨⟨hMeets.background, hMeets.sprites⟩,
          hMeets.unclipped⟩,
        hMeets.column, hMeets.backgroundPixel, hMeets.unit⟩
  · constructor
    · rintro ⟨⟨⟨_, hHere⟩, _⟩, _⟩
      exact absurd hHere hDot
    · intro hMeets
      exact absurd hMeets.dot hDot

/- The picture is not where the flags end. -/
theorem ZeroMeets.not_atStatusEnd
    (hTiming : ppu.timing.Standard)
    (hMeets : ppu.ZeroMeets) :
    ¬ppu.AtStatusEnd := by
  intro hEnd
  have hPicture := hTiming.picture_lt
  have hLine := hMeets.line
  rw [hEnd.1] at hLine
  exact Nat.lt_asymm hLine hPicture

------------------------------------------------------------
-- Runs
------------------------------------------------------------

/-
  What an event does to the flag: dots raise it and end it,
  resets end it, and nothing else touches it.
-/
theorem handle_zeroHit
    (event : Event)
    (hTiming : ppu.timing.Standard)
    (hFine : ppu.scroll.fineX < 8)
    (hLeads : ppu.pipeline.ZeroLeads) :
    (ppu.handle event).zeroHit = true ↔
      event = .dot ∧ ppu.ZeroMeets ∨
        ppu.zeroHit = true ∧
          ¬(event = .reset ∨
            event = .dot ∧ ppu.AtStatusEnd) := by
  cases event with
  | dot =>
      have hApart := ZeroMeets.not_atStatusEnd hTiming
      refine (tick_zeroHit hTiming).trans ?_
      rw [meetsZero_iff hFine hLeads]
      simp only [reduceCtorEq, true_and, false_or]
      tauto
  | reset =>
      have hLow : ppu.reset.zeroHit = false := rfl
      simp [handle, hLow]
  | read address =>
      have hSame : (ppu.read address).2.zeroHit =
          ppu.zeroHit := by
        unfold zeroHit read
        split <;> rfl
      simp [handle, hSame]
  | write address value =>
      have hSame : (ppu.write address value).zeroHit =
          ppu.zeroHit := by
        unfold zeroHit write
        dsimp only
        split <;> rfl
      simp [handle, hSame]
  | writeOam value =>
      have hSame : (ppu.writeOam value).zeroHit =
          ppu.zeroHit := rfl
      simp [handle, hSame]
  | acceptNmi =>
      have hSame : ppu.acceptNmi.zeroHit = ppu.zeroHit := rfl
      simp [handle, hSame]
  | acceptFrame =>
      have hSame : ppu.acceptFrame.zeroHit = ppu.zeroHit := rfl
      simp [handle, hSame]

/- A unit at power-on is as after a reset. -/
theorem reset_powerOn
    (memory : VideoMemory)
    (timing : FrameTiming) :
    (powerOn memory timing).reset =
      powerOn memory timing := rfl

/-
  The flag through any run from a reset.  It rises exactly on
  the dots on which sprite 0 meets the background, and then
  stays until the dot that ends all flags or the next reset.
  The unit that counts is the one that was loaded for sprite
  0 on dot 257 of the last line that evaluated sprites.
-/
theorem zeroHit_changes
    (start : Ppu)
    (standard : VideoStandard)
    (events : List Event)
    (event : Event)
    (hTiming : start.timing = standard.timing) :
    let ppu := start.reset.after events
    let next := ppu.handle event
    ((ppu.zeroHit = false ∧ next.zeroHit = true) ↔
      ppu.zeroHit = false ∧
        event = .dot ∧ ppu.ZeroMeets) ∧
    ((ppu.zeroHit = true ∧ next.zeroHit = false) ↔
      ppu.zeroHit = true ∧
        (event = .reset ∨
          event = .dot ∧ ppu.AtStatusEnd)) ∧
    ∀ unit, next.HoldsZero unit ↔
      match event with
      | .reset => False
      | .dot =>
          if ppu.isRendering = true ∧
              ppu.raster.dot = 257 then
            ppu.isPrerenderLine = false ∧
              ppu.zeroUnit = some unit
          else
            ppu.HoldsZero unit
      | _ => ppu.HoldsZero unit := by
  intro ppu next
  have hStandard : ppu.timing.Standard := by
    rw [after_timing]
    exact hTiming.symm ▸ standard.standard
  have hFine : ppu.scroll.fineX < 8 :=
    after_fineX events (by decide : (0 : UInt8) < 8)
  have hLeads : ppu.pipeline.ZeroLeads :=
    zeroLeads_after events
      fun unit hUnit => absurd hUnit List.not_mem_nil
  have hNext := handle_zeroHit event hStandard hFine hLeads
  refine ⟨?_, ?_, ppu.handle_holdsZero event⟩
  · refine and_congr_right fun hLow => ?_
    rw [hNext, hLow]
    simp only [Bool.false_eq_true, false_and, or_false]
  · refine and_congr_right fun hHigh => ?_
    rw [← Bool.not_eq_true, hNext]
    constructor
    · intro hNeither
      by_contra hStays
      exact hNeither (.inr ⟨hHigh, hStays⟩)
    · rintro hEnds (⟨hDot, hMeets⟩ | ⟨-, hStays⟩)
      · rcases hEnds with hReset | ⟨-, hEnd⟩
        · cases hDot.symm.trans hReset
        · exact hMeets.not_atStatusEnd hStandard hEnd
      · exact hStays hEnds

/- The start of a picture that shows both everywhere. -/
def solidStart : Ppu :=
  powerOn
    (.ofPatterns ⟨.replicate _ 0xFF, false⟩ .horizontal)
    VideoStandard.ntsc.timing

/- Rendering is switched on behind the picture of line 0. -/
def solidEvents : List Event :=
  .replicate 257 .dot ++
    .write 0x2001 0x1E :: .replicate 85 .dot

set_option maxRecDepth 2000 in
theorem solidEvents_rise :
    (solidStart.after solidEvents).zeroHit = false ∧
      ((solidStart.after solidEvents).handle .dot).zeroHit =
        true := by
  decide +kernel

/- Sprite 0 of cleared sprite memory meets the background. -/
theorem zeroMeets_at_corner :
    (solidStart.reset.after solidEvents).ZeroMeets := by
  have hStart : solidStart.reset = solidStart :=
    reset_powerOn _ _
  have hChanges := zeroHit_changes solidStart .ntsc
    solidEvents .dot rfl
  have hRise := solidEvents_rise
  rw [← hStart] at hRise
  exact (hChanges.1.mp hRise).2.2

end Ppu

end Famicom
