import Famicom.Proofs.Video.FrameProgress

/-
  Dots while nothing is rendered.

  Such dots fetch nothing and show nothing but the backdrop,
  so a run of them only moves the raster, as far as it meets
  neither end of vertical blank.

  Key definitions include:
    * `Ppu.movedTo`
    * `Ppu.ChangesFlags`

  Main declarations:
    * `Ppu.tick_of_idle`
    * `Ppu.afterDots_movedTo`
    * `Ppu.afterDots_to_blank`
    * `Ppu.afterDots_over_blank`
-/

namespace Famicom

namespace Ppu

variable {ppu : Ppu}

------------------------------------------------------------
-- Single Dots
------------------------------------------------------------

/- An idle dot can change the flags and moves the raster. -/
theorem tick_of_idle
    (hIdle : ppu.registers.mask.rendering = false) :
    ppu.tick.2 = ppu.updateFlags.advance := by
  have hRendering : ppu.isRendering = false := by
    unfold isRendering
    rw [hIdle, Bool.and_false]
  have hDrawn : ppu.drawn = ppu := by
    unfold drawn atOutput output outputPixel
    simp only [hRendering, hIdle, Bool.false_eq_true,
      if_false]
    split <;> rfl
  rw [tick_snd, hDrawn]

/- The unit at another place of the same frame. -/
def movedTo
    (ppu : Ppu)
    (place : Nat) : Ppu :=
  { ppu with
    raster :=
      ⟨place / Hardware.dotsPerScanline,
        place % Hardware.dotsPerScanline,
        ppu.raster.frame⟩ }

theorem movedTo_of_raster
    {place frame : Nat}
    (hRaster :
      ppu.raster =
        ⟨place / Hardware.dotsPerScanline,
          place % Hardware.dotsPerScanline, frame⟩) :
    ppu.movedTo place = ppu := by
  have hSame : (ppu.movedTo place).raster = ppu.raster := by
    unfold movedTo
    rw [hRaster]
  exact congrArg (fun raster => { ppu with raster := raster })
    hSame

/- Where vertical blank starts and where it ends. -/
def ChangesFlags
    (timing : FrameTiming)
    (place : Nat) : Prop :=
  place = dotsBeforeBlank ∨
    place =
      timing.prerenderScanline * Hardware.dotsPerScanline + 1

/- Elsewhere no flag changes. -/
theorem updateFlags_movedTo
    (hTiming : ppu.timing.Standard)
    {place : Nat}
    (hQuiet : ¬ChangesFlags ppu.timing place) :
    (ppu.movedTo place).updateFlags = ppu.movedTo place := by
  have hPerLine : Hardware.dotsPerScanline = 341 := rfl
  have hBlank : dotsBeforeBlank = 82182 := rfl
  have hVblank : Hardware.vblankScanline = 241 := rfl
  have hStart := hTiming.blank
  have hLine :
      (ppu.movedTo place).raster.scanline = place / 341 := rfl
  have hDot : (ppu.movedTo place).raster.dot = place % 341 :=
    rfl
  have hTimed : (ppu.movedTo place).timing = ppu.timing := rfl
  unfold ChangesFlags at hQuiet
  rw [hPerLine, hBlank] at hQuiet
  unfold updateFlags
  rw [hDot]
  split_ifs with hOne hBegin hEnd
  · rw [hLine, hTimed] at hBegin
    omega
  · rw [isPrerenderLine_iff, hLine, hTimed] at hEnd
    omega
  · rfl
  · rfl

/- On the pre-render line all flags end. -/
theorem updateFlags_of_prerender
    (hTiming : ppu.timing.Standard)
    (hLine :
      ppu.raster.scanline = ppu.timing.prerenderScanline)
    (hDot : ppu.raster.dot = 1) :
    ppu.updateFlags = ppu.clearStatus := by
  have hNotBlank :
      ppu.raster.scanline ≠ ppu.timing.vblankScanline := by
    rw [hLine, hTiming.blank]
    exact Nat.ne_of_gt hTiming.below
  unfold updateFlags
  rw [if_pos hDot, if_neg hNotBlank,
    if_pos (isPrerenderLine_iff.mpr hLine)]

/- In a frame of full length the place goes up by one. -/
theorem advance_movedTo
    (hIdle : ppu.registers.mask.rendering = false)
    {place : Nat}
    (hPlace :
      place + 1 <
        ppu.timing.scanlines * Hardware.dotsPerScanline) :
    (ppu.movedTo place).advance = ppu.movedTo (place + 1) := by
  have hPerLine : Hardware.dotsPerScanline = 341 := rfl
  have hLastDot : Hardware.lastDot = 340 := rfl
  have hLong : (ppu.movedTo place).isShortFrame = false := by
    unfold isShortFrame movedTo
    rw [hIdle, Bool.and_false]
  have hRaster :
      (ppu.movedTo place).raster.advance ppu.timing false =
        (ppu.movedTo (place + 1)).raster := by
    unfold Raster.advance Raster.nextLine movedTo
    simp only [Bool.false_and, Bool.not_false, Bool.and_true,
      decide_eq_true_eq, beq_iff_eq, hPerLine, hLastDot]
    rw [hPerLine] at hPlace
    split_ifs with hInside hLast
    · simp only [Raster.mk.injEq, and_true]
      omega
    · omega
    · simp only [Raster.mk.injEq, and_true]
      omega
  unfold advance
  rw [hLong]
  exact congrArg (fun raster => { ppu with raster := raster })
    hRaster

/- What becomes of the unit on an idle dot at a place. -/
theorem tick_movedTo
    (hIdle : ppu.registers.mask.rendering = false)
    {place : Nat}
    {flagged : Ppu}
    (hFlags :
      (ppu.movedTo place).updateFlags = flagged.movedTo place)
    (hStill : flagged.registers.mask.rendering = false)
    (hPlace :
      place + 1 <
        flagged.timing.scanlines * Hardware.dotsPerScanline) :
    (ppu.movedTo place).tick.2 =
      flagged.movedTo (place + 1) := by
  have hIdle' :
      (ppu.movedTo place).registers.mask.rendering = false :=
    hIdle
  rw [tick_of_idle hIdle', hFlags]
  exact advance_movedTo hStill hPlace

------------------------------------------------------------
-- Runs of Dots
------------------------------------------------------------

/- A run of idle dots moves the raster and nothing else. -/
theorem afterDots_movedTo
    (hTiming : ppu.timing.Standard)
    (hIdle : ppu.registers.mask.rendering = false)
    {first last : Nat}
    (hFirst : first ≤ last)
    (hLast :
      last < ppu.timing.scanlines * Hardware.dotsPerScanline)
    (hQuiet : ∀ place, first ≤ place → place < last →
      ¬ChangesFlags ppu.timing place) :
    (ppu.movedTo first).afterDots (last - first) =
      ppu.movedTo last := by
  induction last, hFirst using Nat.le_induction with
  | base =>
      rw [Nat.sub_self]
      rfl
  | succ last hFirst ih =>
      have hBefore := ih (Nat.lt_of_succ_lt hLast)
        fun place hFrom hTo =>
          hQuiet place hFrom (Nat.lt_succ_of_lt hTo)
      have hHere := hQuiet last hFirst (Nat.lt_succ_self last)
      rw [Nat.succ_sub hFirst, afterDots_succ_right, hBefore]
      exact tick_movedTo hIdle
        (updateFlags_movedTo hTiming hHere) hIdle hLast

/- Idle dots up to the one that starts vertical blank. -/
theorem afterDots_to_blank
    (hTiming : ppu.timing.Standard)
    (hIdle : ppu.registers.mask.rendering = false)
    {first : Nat}
    (hFirst : first ≤ dotsBeforeBlank) :
    (ppu.movedTo first).afterDots
        (dotsBeforeBlank - first + 1) =
      ppu.enterVerticalBlank.movedTo
        (dotsBeforeBlank + 1) := by
  have hRoom := blank_lt_prerender hTiming
  have hEnd :
      dotsBeforeBlank + 1 <
        ppu.timing.scanlines * Hardware.dotsPerScanline := by
    have hDots : 1 < Hardware.dotsPerScanline := by decide
    rw [← hTiming.last, Nat.add_one_mul]
    omega
  have hBefore :
      (ppu.movedTo first).afterDots (dotsBeforeBlank - first) =
        ppu.movedTo dotsBeforeBlank := by
    refine afterDots_movedTo hTiming hIdle hFirst
      (Nat.lt_of_succ_lt hEnd) fun place _ hTo => ?_
    unfold ChangesFlags
    omega
  rw [afterDots_succ_right, hBefore]
  exact tick_movedTo hIdle
    (updateFlags_of_blankStart hTiming ⟨rfl, rfl⟩) hIdle hEnd

/-
  A run of idle dots over the whole of vertical blank also
  completes the frame and ends all flags.
-/
theorem afterDots_over_blank
    (hTiming : ppu.timing.Standard)
    (hIdle : ppu.registers.mask.rendering = false)
    {first last : Nat}
    (hFirst : first ≤ dotsBeforeBlank)
    (hBehind :
      ppu.timing.prerenderScanline *
          Hardware.dotsPerScanline + 1 < last)
    (hLast :
      last < ppu.timing.scanlines * Hardware.dotsPerScanline) :
    (ppu.movedTo first).afterDots (last - first) =
      ppu.enterVerticalBlank.clearStatus.movedTo last := by
  let blank := ppu.enterVerticalBlank
  let ended := blank.clearStatus
  have hBlankTiming : blank.timing.Standard := hTiming
  have hBlankIdle : blank.registers.mask.rendering = false :=
    hIdle
  have hEndedTiming : ended.timing.Standard := hTiming
  have hEndedIdle : ended.registers.mask.rendering = false :=
    hIdle
  have hRoom := blank_lt_prerender hTiming
  generalize hFinish :
    ppu.timing.prerenderScanline *
      Hardware.dotsPerScanline + 1 = finish at hBehind
  have hStarts : dotsBeforeBlank + 1 < finish := by omega
  have hFinishIn := hBehind.trans hLast
  -- the run is cut where the flags change
  have hToFinish :
      (blank.movedTo (dotsBeforeBlank + 1)).afterDots
          (finish - (dotsBeforeBlank + 1)) =
        blank.movedTo finish := by
    refine afterDots_movedTo hBlankTiming hBlankIdle
      (Nat.le_of_lt hStarts) hFinishIn
      fun place hFrom hTo => ?_
    show ¬ChangesFlags ppu.timing place
    unfold ChangesFlags
    omega
  have hEnds :
      (blank.movedTo finish).updateFlags =
        ended.movedTo finish := by
    have hPerLine : Hardware.dotsPerScanline = 341 := rfl
    rw [hPerLine] at hFinish
    refine updateFlags_of_prerender hBlankTiming ?_ ?_
    · show finish / 341 = ppu.timing.prerenderScanline
      omega
    · show finish % 341 = 1
      omega
  have hLeave :
      (blank.movedTo finish).tick.2 =
        ended.movedTo (finish + 1) :=
    tick_movedTo hBlankIdle hEnds hEndedIdle
      (Nat.lt_of_le_of_lt hBehind hLast)
  have hToLast :
      (ended.movedTo (finish + 1)).afterDots
          (last - (finish + 1)) =
        ended.movedTo last := by
    refine afterDots_movedTo hEndedTiming hEndedIdle hBehind
      hLast fun place hFrom _ => ?_
    show ¬ChangesFlags ppu.timing place
    unfold ChangesFlags
    omega
  have hParts :
      last - first =
        dotsBeforeBlank - first + 1 +
          (finish - (dotsBeforeBlank + 1)) + 1 +
            (last - (finish + 1)) := by
    omega
  rw [hParts, afterDots_add, afterDots_succ_right,
    afterDots_add, afterDots_to_blank hTiming hIdle hFirst,
    hToFinish, hLeave, hToLast]

end Ppu

end Famicom
