import Famicom.Proofs.Video.BlankInterrupt
import Famicom.Proofs.Video.RasterOrder

/-
  Frames are completed where vertical blank starts, behind
  their last pixel.

  From everywhere a bounded number of dots leads there, and
  until then the pixels that have been output are the first
  ones of the frame.

  Key definitions include:
    * `Ppu.dotsToBlank`
    * `Ppu.Progress`
    * `Ppu.KeepsFrame`

  Main declarations:
    * `Ppu.tick_frameReady`
    * `Ppu.tick_dotsToBlank`
    * `Ppu.Progress.tick`
    * `Ppu.keepsFrame_stable`
-/

namespace Famicom

namespace Ppu

variable {ppu : Ppu}

------------------------------------------------------------
-- Completed Frames
------------------------------------------------------------

theorem fetchBackground_frameReady (ppu : Ppu) :
    ppu.fetchBackground.frameReady = ppu.frameReady := by
  unfold fetchBackground
  split <;> rfl

theorem updateScroll_frameReady (ppu : Ppu) :
    ppu.updateScroll.frameReady = ppu.frameReady := by
  unfold updateScroll evaluateSprites
  dsimp only
  split_ifs <;> rfl

theorem output_frameReady (ppu : Ppu) :
    ppu.output.2.frameReady = ppu.frameReady := by
  unfold output outputPixel
  dsimp only
  split_ifs <;> rfl

theorem shift_frameReady (ppu : Ppu) :
    ppu.shift.frameReady = ppu.frameReady := by
  unfold shift
  split <;> rfl

/- Drawing completes no frame. -/
theorem drawn_frameReady (ppu : Ppu) :
    ppu.drawn.frameReady = ppu.frameReady := by
  have hOutput :
      ppu.atOutput.output.2.frameReady = ppu.frameReady := by
    rw [output_frameReady]
    unfold atOutput fetch
    dsimp only
    split
    · split
      · rw [updateScroll_frameReady]
        exact fetchBackground_frameReady ppu
      · exact updateScroll_frameReady ppu
    · rfl
  unfold drawn
  split
  · exact (shift_frameReady _).trans hOutput
  · exact hOutput

/- A frame is complete where vertical blank starts. -/
theorem tick_frameReady
    (hTiming : ppu.timing.Standard) :
    ppu.tick.2.frameReady =
      (ppu.frameReady || decide ppu.AtBlankStart) := by
  have hRaster := drawn_raster ppu
  have hTiming' : ppu.drawn.timing.Standard :=
    (drawn_keeps ppu).timing.symm ▸ hTiming
  have hPlace : ppu.drawn.AtBlankStart ↔ ppu.AtBlankStart := by
    unfold AtBlankStart
    rw [hRaster]
  have hTick : ppu.tick.2.frameReady =
      ppu.drawn.updateFlags.frameReady := rfl
  rw [hTick, ← drawn_frameReady ppu]
  by_cases hStart : ppu.AtBlankStart
  · rw [decide_eq_true hStart, Bool.or_true,
      updateFlags_of_blankStart hTiming' (hPlace.mpr hStart)]
    rfl
  · rw [decide_eq_false hStart, Bool.or_false]
    unfold updateFlags
    split_ifs with hDot hLine hPre
    · refine absurd (hPlace.mp ⟨?_, hDot⟩) hStart
      exact hLine.trans hTiming'.blank
    · rfl
    · rfl
    · rfl

theorem atBlankStart_iff
    (hDot : ppu.raster.dot ≤ Hardware.lastDot) :
    ppu.AtBlankStart ↔
      ppu.raster.place = dotsBeforeBlank := by
  have hLastDot : Hardware.lastDot = 340 := rfl
  have hPerLine : Hardware.dotsPerScanline = 341 := rfl
  have hBlank : Hardware.vblankScanline = 241 := rfl
  unfold AtBlankStart Raster.place dotsBeforeBlank
  rw [hPerLine, hBlank]
  omega

theorem place_origin (frame : Nat) :
    Raster.place ⟨0, 0, frame⟩ = 0 := by
  simp [Raster.place]

theorem pixelsBefore_origin (frame : Nat) :
    Raster.pixelsBefore ⟨0, 0, frame⟩ = 0 := by
  simp [Raster.pixelsBefore]

/- Where vertical blank starts the picture is complete. -/
theorem pixelsBefore_of_blank
    {raster : Raster}
    (hDot : raster.dot ≤ Hardware.lastDot)
    (hBehind : dotsBeforeBlank ≤ raster.place) :
    raster.pixelsBefore = 256 * 240 := by
  have hPerLine : Hardware.dotsPerScanline = 341 := rfl
  have hLastDot : Hardware.lastDot = 340 := rfl
  have hBlank : dotsBeforeBlank = 82182 := rfl
  have hVisible : Hardware.visibleScanlines = 240 := rfl
  unfold Raster.place at hBehind
  rw [hPerLine] at hBehind
  exact if_neg (by omega)

/-
  The dots until a frame is completed, the last one included.
-/
def dotsToBlank (ppu : Ppu) : Nat :=
  if ppu.raster.place ≤ dotsBeforeBlank then
    dotsBeforeBlank + 1 - ppu.raster.place
  else
    ppu.timing.scanlines * Hardware.dotsPerScanline +
      (dotsBeforeBlank + 1) - ppu.raster.place

theorem place_lt
    (hIn : ppu.raster.InFrame ppu.timing) :
    ppu.raster.place <
      ppu.timing.scanlines * Hardware.dotsPerScanline := by
  have hPerLine : Hardware.dotsPerScanline = 341 := rfl
  have hLastDot : Hardware.lastDot = 340 := rfl
  have hLine := hIn.line
  have hDot := hIn.dot
  unfold Raster.place
  rw [hPerLine]
  omega

/- Vertical blank starts before the pre-render line. -/
theorem blank_lt_prerender
    {timing : FrameTiming}
    (hTiming : timing.Standard) :
    dotsBeforeBlank <
      timing.prerenderScanline * Hardware.dotsPerScanline := by
  have hPerLine : Hardware.dotsPerScanline = 341 := rfl
  have hBlank : dotsBeforeBlank = 82182 := rfl
  have hVblank : Hardware.vblankScanline = 241 := rfl
  have hBelow := hTiming.below
  rw [hPerLine]
  omega

/- A frame is always to come, and at most one frame off. -/
theorem dotsToBlank_bounds
    (hTiming : ppu.timing.Standard)
    (hIn : ppu.raster.InFrame ppu.timing) :
    0 < ppu.dotsToBlank ∧
      ppu.dotsToBlank ≤
        ppu.timing.scanlines * Hardware.dotsPerScanline := by
  have hPlace := place_lt hIn
  have hBlank := blank_lt_prerender hTiming
  rw [← hTiming.last, Nat.add_mul] at hPlace ⊢
  unfold dotsToBlank
  rw [← hTiming.last, Nat.add_mul]
  split <;> omega

/- Every dot completes the frame or comes closer to its end. -/
theorem tick_dotsToBlank
    (hTiming : ppu.timing.Standard)
    (hIn : ppu.raster.InFrame ppu.timing) :
    ppu.tick.2.frameReady = true ∨
      ppu.tick.2.dotsToBlank < ppu.dotsToBlank := by
  have hReady := tick_frameReady hTiming
  have hPlace := place_lt hIn
  by_cases hStart : ppu.AtBlankStart
  · left
    rw [hReady, decide_eq_true hStart, Bool.or_true]
  right
  have hElsewhere := mt (atBlankStart_iff hIn.dot).mpr hStart
  unfold dotsToBlank
  rw [(tick_keeps ppu).timing]
  rcases tick_places hTiming hIn with
    ⟨hNext, -, -⟩ | ⟨hNext, -, hPre⟩
  · rw [hNext]
    split_ifs <;> omega
  · have hBlank := blank_lt_prerender hTiming
    have hLate : dotsBeforeBlank < ppu.raster.place := by
      unfold Raster.place
      rw [hPre]
      exact Nat.lt_add_right _ hBlank
    rw [hNext, place_origin, if_pos (Nat.zero_le _),
      if_neg (Nat.not_le.mpr hLate)]
    omega

------------------------------------------------------------
-- Progress
------------------------------------------------------------

/-
  How far the pixels of a frame have come, the pixel with the
  number `first` being the first of them.  The frame before
  may not have ended yet.  At most `dots` dots ago the frame
  may have been completed.
-/
inductive Progress
    (first dots : Nat)
    (ppu : Ppu)
    (places : List (Nat × Nat)) : Prop
  | blank
      (hFirst : first = 0)
      (hBehind : dotsBeforeBlank < ppu.raster.place)
      (hReady : ppu.frameReady = false)
      (hPlaces : places = [])
  | picture
      (hBefore : ppu.raster.place ≤ dotsBeforeBlank)
      (hReady : ppu.frameReady = false)
      (hFirst : first ≤ ppu.raster.pixelsBefore)
      (hPlaces :
        places =
          placesBetween first ppu.raster.pixelsBefore)
  | complete
      (hBehind : dotsBeforeBlank < ppu.raster.place)
      (hNear : ppu.raster.place ≤ dotsBeforeBlank + dots)
      (hReady : ppu.frameReady = true)
      (hPlaces : places = placesBetween first (256 * 240))

namespace Progress

variable {first dots : Nat}
variable {places : List (Nat × Nat)}

/- A frame that is not complete was not completed before. -/
theorem restart
    (hProgress : Progress first dots ppu places)
    (hReady : ppu.frameReady = false) :
    Progress first 0 ppu places := by
  cases hProgress with
  | blank hFirst hBehind hReady hPlaces =>
      exact .blank hFirst hBehind hReady hPlaces
  | picture hBefore hReady hFirst hPlaces =>
      exact .picture hBefore hReady hFirst hPlaces
  | complete _ _ hDone _ =>
      rw [hReady] at hDone
      cases hDone

theorem mono
    {more : Nat}
    (hProgress : Progress first dots ppu places)
    (hMore : dots ≤ more) :
    Progress first more ppu places := by
  cases hProgress with
  | blank hFirst hBehind hReady hPlaces =>
      exact .blank hFirst hBehind hReady hPlaces
  | picture hBefore hReady hFirst hPlaces =>
      exact .picture hBefore hReady hFirst hPlaces
  | complete hBehind hNear hReady hPlaces =>
      exact .complete hBehind
        (hNear.trans (Nat.add_le_add_left hMore _)) hReady
        hPlaces

/- Nothing but the position and the signal matters. -/
theorem congr
    {other : Ppu}
    (hProgress : Progress first dots ppu places)
    (hRaster : other.raster = ppu.raster)
    (hReady : other.frameReady = ppu.frameReady) :
    Progress first dots other places := by
  cases hProgress with
  | blank hFirst hBehind hLow hPlaces =>
      exact .blank hFirst (hRaster ▸ hBehind)
        (hReady.trans hLow) hPlaces
  | picture hBefore hLow hFirst hPlaces =>
      exact .picture (hRaster ▸ hBefore) (hReady.trans hLow)
        (hRaster ▸ hFirst) (hRaster ▸ hPlaces)
  | complete hBehind hNear hHigh hPlaces =>
      exact .complete (hRaster ▸ hBehind) (hRaster ▸ hNear)
        (hReady.trans hHigh) hPlaces

/-
  One more dot, with the pixel that it may output.  A frame
  that has been completed has not yet come to the pre-render
  line, so no pixel of the next one follows.
-/
theorem tick
    (hTiming : ppu.timing.Standard)
    (hIn : ppu.raster.InFrame ppu.timing)
    (hRoom :
      dotsBeforeBlank + dots <
        ppu.timing.prerenderScanline *
          Hardware.dotsPerScanline)
    (hProgress : Progress first dots ppu places) :
    Progress first (dots + 1) ppu.tick.2
      (places ++ (ppu.tick.1.map Pixel.place).toList) := by
  have hNextDot := (tick_inFrame hTiming hIn).dot
  have hReady := tick_frameReady hTiming
  have hStart := atBlankStart_iff hIn.dot
  rcases tick_places hTiming hIn with
    ⟨hNext, hMore, hPlaces⟩ | ⟨hNext, hNone, hPre⟩
  · rw [hPlaces]
    cases hProgress with
    | blank hFirst hBehind hLow hNow =>
        have hBehindNext :
            dotsBeforeBlank < ppu.tick.2.raster.place := by
          omega
        rw [hLow, decide_eq_false
          (mt hStart.mp (Nat.ne_of_gt hBehind))] at hReady
        refine .blank hFirst hBehindNext hReady ?_
        rw [hNow, pixelsBefore_of_blank hIn.dot hBehind.le,
          pixelsBefore_of_blank hNextDot hBehindNext.le]
        exact placesBetween_self _
    | picture hBefore hLow hFirst hNow =>
        have hAll :
            places ++ placesBetween ppu.raster.pixelsBefore
                ppu.tick.2.raster.pixelsBefore =
              placesBetween first
                ppu.tick.2.raster.pixelsBefore := by
          rw [hNow]
          exact placesBetween_append hFirst hMore
        by_cases hEnd : ppu.raster.place = dotsBeforeBlank
        · have hBehindNext :
              dotsBeforeBlank < ppu.tick.2.raster.place := by
            omega
          rw [decide_eq_true (hStart.mpr hEnd), Bool.or_true]
            at hReady
          refine .complete hBehindNext (by omega) hReady ?_
          rw [hAll,
            pixelsBefore_of_blank hNextDot hBehindNext.le]
        · rw [hLow, decide_eq_false (mt hStart.mp hEnd)]
            at hReady
          exact .picture (by omega) hReady
            (hFirst.trans hMore) hAll
    | complete hBehind hNear hHigh hNow =>
        have hBehindNext :
            dotsBeforeBlank < ppu.tick.2.raster.place := by
          omega
        rw [hHigh, Bool.true_or] at hReady
        refine .complete hBehindNext (by omega) hReady ?_
        rw [hNow, pixelsBefore_of_blank hIn.dot hBehind.le,
          pixelsBefore_of_blank hNextDot hBehindNext.le,
          placesBetween_self, List.append_nil]
  · have hPlace :
        ppu.timing.prerenderScanline *
            Hardware.dotsPerScanline ≤ ppu.raster.place := by
      unfold Raster.place
      rw [hPre]
      exact Nat.le_add_right _ _
    rw [hNone]
    cases hProgress with
    | blank hFirst hBehind hLow hNow =>
        rw [hLow, decide_eq_false
          (mt hStart.mp (Nat.ne_of_gt hBehind))] at hReady
        refine .picture ?_ hReady ?_ ?_
        · rw [hNext, place_origin]
          exact Nat.zero_le _
        · rw [hFirst]
          exact Nat.zero_le _
        · rw [hNow, hNext, hFirst, pixelsBefore_origin,
            placesBetween_self]
          rfl
    | picture hBefore hLow hFirst hNow => omega
    | complete hBehind hNear hHigh hNow => omega

end Progress

------------------------------------------------------------
-- Frames
------------------------------------------------------------

/- The unit is on a dot of a frame of a standard shape. -/
structure OnFrame (ppu : Ppu) : Prop where
  timing : ppu.timing.Standard
  raster : ppu.raster.InFrame ppu.timing

theorem OnFrame.congr
    {old new : Ppu}
    (hFrame : old.OnFrame)
    (hTiming : new.timing = old.timing)
    (hRaster : new.raster = old.raster) : new.OnFrame where
  timing := hTiming.symm ▸ hFrame.timing
  raster := by
    rw [hTiming, hRaster]
    exact hFrame.raster

theorem OnFrame.tick
    (hFrame : ppu.OnFrame) : ppu.tick.2.OnFrame := by
  have hSame := (tick_keeps ppu).timing
  refine ⟨hSame.symm ▸ hFrame.timing, ?_⟩
  rw [hSame]
  exact tick_inFrame hFrame.timing hFrame.raster

/- A reset leads to the first dot of a frame. -/
theorem onFrame_reset
    (hTiming : ppu.timing.Standard) :
    ppu.reset.OnFrame := by
  refine ⟨hTiming, ?_, Nat.zero_le _⟩
  show 0 < ppu.timing.scanlines
  rw [← hTiming.last]
  exact Nat.succ_pos _

theorem onFrame_powerOn
    (memory : VideoMemory)
    (standard : VideoStandard) :
    (powerOn memory standard.timing).OnFrame :=
  have hTiming :
      (powerOn memory standard.timing).timing.Standard :=
    standard.standard
  onFrame_reset hTiming

/- Whatever happens, the raster stays on the frame. -/
theorem OnFrame.handle
    (hFrame : ppu.OnFrame)
    (event : Event) : (ppu.handle event).OnFrame := by
  by_cases hDot : event = .dot
  · rw [hDot]
    exact hFrame.tick
  by_cases hReset : event = .reset
  · rw [hReset]
    exact onFrame_reset hFrame.timing
  have hKeeps := ppu.handle_accessKeeps hDot hReset
  exact hFrame.congr hKeeps.timing hKeeps.raster

theorem OnFrame.after
    (hFrame : ppu.OnFrame)
    (events : List Event) : (ppu.after events).OnFrame :=
  after_invariant (motive := OnFrame)
    (fun _ event hHere => hHere.handle event) hFrame events

------------------------------------------------------------
-- Accesses
------------------------------------------------------------

/- Two states agree on the position and on the signal. -/
structure KeepsFrame (old new : Ppu) : Prop where
  timing : new.timing = old.timing
  raster : new.raster = old.raster
  frameReady : new.frameReady = old.frameReady

/- Accesses neither move the raster nor complete frames. -/
theorem keepsFrame_stable (ppu : Ppu) :
    AccessStable (KeepsFrame ppu) where
  read := fun old address hKeeps => by
    have hRead :
        (old.read address).2.frameReady = old.frameReady := by
      unfold read
      split <;> rfl
    have hAccess := read_accessKeeps old address
    exact
      { timing := hAccess.timing.trans hKeeps.timing
        raster := hAccess.raster.trans hKeeps.raster
        frameReady := hRead.trans hKeeps.frameReady }
  write := fun old address value hKeeps => by
    have hWrite :
        (old.write address value).frameReady =
          old.frameReady := by
      unfold write
      dsimp only
      split <;> rfl
    have hAccess := write_accessKeeps old address value
    exact
      { timing := hAccess.timing.trans hKeeps.timing
        raster := hAccess.raster.trans hKeeps.raster
        frameReady := hWrite.trans hKeeps.frameReady }
  writeOam := fun _ _ hKeeps => { hKeeps with }

end Ppu

end Famicom
