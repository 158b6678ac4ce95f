import Famicom.Proofs.Video.BackgroundPipeline
import Famicom.Proofs.Video.RegisterAccess

/-
  The background that is drawn is the scroll plane.

  Whatever its registers hold, a unit that is left alone from
  the end of the pre-render line on shows the part of the
  plane at the scroll position.

  Key definitions include:
    * `Ppu.Drawing`

  Main declarations:
    * `Ppu.fineX_lt`
    * `Ppu.drawing_or_passed`
    * `Ppu.backgroundPixel_eq_pixelAt`
-/

namespace Famicom

namespace Ppu

open Pipeline TileLatch

------------------------------------------------------------
-- Fine Scroll
------------------------------------------------------------

theorem handle_fineX
    {ppu : Ppu}
    (event : Event)
    (hFine : ppu.scroll.fineX < 8) :
    (ppu.handle event).scroll.fineX < 8 := by
  cases event with
  | dot => exact (tick_keeps ppu).fineX ▸ hFine
  | read address =>
      show (ppu.read address).2.scroll.fineX < 8
      rw [read_scroll]
      split <;> exact hFine
  | write address value =>
      have hRemainder : value % 8 < 8 :=
        UInt8.mod_lt value (by decide)
      show (ppu.write address value).scroll.fineX < 8
      rw [write_scroll]
      split
      · exact hFine
      · unfold Scroll.writeScroll
        cases ppu.scroll.latch with
        | first => exact hRemainder
        | second => exact hFine
      · unfold Scroll.writeAddress
        cases ppu.scroll.latch <;> exact hFine
      · exact hFine
      · exact hFine
  | writeOam value => exact hFine
  | acceptNmi => exact hFine
  | acceptFrame => exact hFine
  | reset => exact (by decide : (0 : UInt8) < 8)

theorem after_fineX
    {ppu : Ppu}
    (events : List Event)
    (hFine : ppu.scroll.fineX < 8) :
    (ppu.after events).scroll.fineX < 8 :=
  after_invariant (motive := fun now => now.scroll.fineX < 8)
    (fun _ => handle_fineX) hFine events

/- The fine scroll always selects a pixel of a tile. -/
theorem fineX_lt
    (memory : VideoMemory)
    (timing : FrameTiming)
    (events : List Event) :
    ((powerOn memory timing).after events).scroll.fineX <
      8 :=
  after_fineX events (by decide : (0 : UInt8) < 8)

------------------------------------------------------------
-- Lines of a Frame
------------------------------------------------------------

variable {start ppu : Ppu}

/- The next line goes on with what has been prepared. -/
theorem Prepared.nextLine
    {scanline dot : Nat}
    (hPrepared : Prepared start scanline dot ppu)
    (hEnd : 337 ≤ dot)
    (hPicture :
      linePrepared scanline dot <
        Hardware.visibleScanlines) :
    Prepared start (linePrepared scanline dot) 0 ppu := by
  have hPhase : fetchPhase 0 = fetchPhase dot := by
    unfold fetchPhase
    split_ifs <;> omega
  have hLine :
      linePrepared (linePrepared scanline dot) 0 =
        linePrepared scanline dot :=
    (if_pos hPicture).trans (if_pos (Nat.zero_le _))
  constructor
  · intro _
    rw [hPhase]
    exact hPrepared.column (by omega)
  · intro _
    exact hPrepared.onPlane (by omega)
  · intro _
    rw [hLine]
    exact hPrepared.row (by omega)
  · rw [hLine, hPhase]
    exact hPrepared.pipeline

/-
  The unit draws the frame after the start, or is about to
  draw it on the pre-render line.
-/
structure Drawing (start ppu : Ppu) : Prop where
  rendering : Rendering start ppu
  dot : ppu.raster.dot ≤ Hardware.lastDot
  frame :
    ppu.raster.frame =
      if ppu.raster.scanline < Hardware.visibleScanlines then
        start.raster.frame + 1
      else
        start.raster.frame
  prepared :
    Prepared start ppu.raster.scanline ppu.raster.dot ppu

/- The start of the line below the picture of that frame. -/
def pictureEnd (start : Ppu) : Raster :=
  ⟨Hardware.visibleScanlines, 0, start.raster.frame + 1⟩

namespace Drawing

/- The unit keeps on rendering where it gets to. -/
theorem rendering_tick
    (hRendering : Rendering start ppu)
    (hPlace :
      ppu.tick.2.raster.scanline <
          Hardware.visibleScanlines ∨
        (ppu.tick.2.raster.scanline =
            ppu.timing.prerenderScanline ∧
          Hardware.visibleScanlines ≤
            ppu.tick.2.raster.scanline ∧
          257 ≤ ppu.tick.2.raster.dot)) :
    Rendering start ppu.tick.2 := by
  have hKeeps := tick_keeps ppu
  have hMask :
      ppu.tick.2.registers.mask.rendering = true := by
    have hActive := hRendering.active
    unfold isRendering at hActive
    rw [hKeeps.mask]
    exact (Bool.and_eq_true_iff.mp hActive).2
  have hLine :
      ppu.tick.2.raster.scanline <
          Hardware.visibleScanlines ∨
        ppu.tick.2.isPrerenderLine = true := by
    rw [isPrerenderLine_iff, hKeeps.timing]
    exact hPlace.imp_right And.left
  constructor
  · exact hRendering.keeps.trans hKeeps
  · unfold isRendering
    rw [hMask, Bool.and_true, Bool.or_eq_true,
      isVisibleLine_iff]
    exact hLine
  · rw [hKeeps.timing]
    exact hRendering.standard
  · exact hRendering.onPlane
  · rw [isPrerenderLine_iff, hKeeps.timing]
    exact hPlace

/- A dot within a line. -/
theorem tick_within
    (hDrawing : Drawing start ppu)
    (hNext :
      ppu.tick.2.raster =
        { ppu.raster with dot := ppu.raster.dot + 1 })
    (hBefore : ppu.raster.dot < Hardware.lastDot) :
    Drawing start ppu.tick.2 := by
  have hPlace := hDrawing.rendering.place
  have hPrepared := hDrawing.prepared.tick
    hDrawing.rendering hDrawing.dot
  constructor
  · apply rendering_tick hDrawing.rendering
    rw [hNext]
    rw [isPrerenderLine_iff] at hPlace
    exact hPlace.imp_right fun h =>
      ⟨h.1, h.2.1, Nat.le_succ_of_le h.2.2⟩
  · rw [hNext]
    exact hBefore
  · rw [hNext]
    exact hDrawing.frame
  · rw [hNext]
    exact hPrepared

/- The last dot of a line. -/
theorem tick_end
    (hDrawing : Drawing start ppu)
    (hNext :
      ppu.tick.2.raster = ppu.raster.nextLine ppu.timing)
    (hEnd : 339 ≤ ppu.raster.dot) :
    Drawing start ppu.tick.2 ∨
      HasPassed start.pictureEnd ppu.tick.2 := by
  have hRendering := hDrawing.rendering
  have hPlace := hRendering.place
  have hFrame := hDrawing.frame
  have hTiming := hRendering.standard
  have hLast := hTiming.last
  have hPicture := hTiming.picture_lt
  have hPrepared := hDrawing.prepared.tick hRendering
    hDrawing.dot
  -- All lines but the last of the picture lead to one of it.
  have hInside
      (hLine :
        linePrepared ppu.raster.scanline
            (ppu.raster.dot + 1) <
          Hardware.visibleScanlines)
      (hRaster :
        ppu.tick.2.raster =
          ⟨linePrepared ppu.raster.scanline
            (ppu.raster.dot + 1), 0,
            start.raster.frame + 1⟩) :
      Drawing start ppu.tick.2 := by
    constructor
    · apply rendering_tick hRendering
      rw [hRaster]
      exact Or.inl hLine
    · rw [hRaster]
      exact Nat.zero_le _
    · rw [hRaster, if_pos hLine]
    · rw [hRaster]
      exact hPrepared.nextLine (by omega) hLine
  unfold Raster.nextLine at hNext
  by_cases hVisible :
      ppu.raster.scanline < Hardware.visibleScanlines
  · rw [if_pos hVisible] at hFrame
    have hNotLast :
        ¬(ppu.raster.scanline + 1 ==
          ppu.timing.scanlines) = true := by
      rw [beq_iff_eq]
      omega
    rw [if_neg hNotLast, hFrame] at hNext
    have hLine :
        linePrepared ppu.raster.scanline
            (ppu.raster.dot + 1) =
          ppu.raster.scanline + 1 := by
      unfold linePrepared
      rw [if_pos hVisible, if_neg (by omega)]
    by_cases hMore :
        ppu.raster.scanline + 1 < Hardware.visibleScanlines
    · left
      apply hInside
      · rw [hLine]
        exact hMore
      · rw [hLine]
        exact hNext
    · right
      have hBelow : ppu.raster.scanline + 1 =
          Hardware.visibleScanlines := by
        omega
      unfold HasPassed pictureEnd Raster.Before
      rw [hNext, hBelow]
      simp
  · rw [if_neg hVisible] at hFrame
    have hPre : ppu.isPrerenderLine = true := by
      rcases hPlace with hHere | ⟨hPre, -⟩
      · exact absurd hHere hVisible
      · exact hPre
    have hAtLast :
        (ppu.raster.scanline + 1 ==
          ppu.timing.scanlines) = true := by
      rw [beq_iff_eq, isPrerenderLine_iff.mp hPre]
      exact hLast
    rw [if_pos hAtLast, hFrame] at hNext
    have hLine :
        linePrepared ppu.raster.scanline
          (ppu.raster.dot + 1) = 0 :=
      if_neg hVisible
    left
    apply hInside
    · rw [hLine]
      decide
    · rw [hLine]
      exact hNext

end Drawing

/- A dot draws on or completes the frame. -/
theorem drawing_or_passed_tick
    (hHere :
      Drawing start ppu ∨ HasPassed start.pictureEnd ppu) :
    Drawing start ppu.tick.2 ∨
      HasPassed start.pictureEnd ppu.tick.2 := by
  rcases hHere with hDrawing | hPassed
  · rcases tick_raster_cases ppu with
      ⟨hNext, hBefore⟩ | ⟨hNext, hEnd⟩
    · exact Or.inl (hDrawing.tick_within hNext hBefore)
    · apply hDrawing.tick_end hNext
      have hLastDot : Hardware.lastDot = 340 := rfl
      omega
  · exact Or.inr hPassed.tick

/- Signals that are accepted play no part in a frame. -/
theorem Drawing.congr
    {other : Ppu}
    (hDrawing : Drawing start ppu)
    (hKeeps : Keeps ppu other)
    (hRaster : other.raster = ppu.raster)
    (hCurrent : other.scroll.current = ppu.scroll.current)
    (hPipeline : other.pipeline = ppu.pipeline) :
    Drawing start other := by
  rcases hDrawing with ⟨hRendering, hDot, hFrame, hPrepared⟩
  constructor
  · constructor
    · exact hRendering.keeps.trans hKeeps
    · have hActive := hRendering.active
      unfold isRendering isVisibleLine isPrerenderLine
        at hActive ⊢
      rw [hRaster, hKeeps.timing, hKeeps.mask]
      exact hActive
    · rw [hKeeps.timing]
      exact hRendering.standard
    · exact hRendering.onPlane
    · have hPlace := hRendering.place
      unfold isPrerenderLine at hPlace ⊢
      rw [hRaster, hKeeps.timing]
      exact hPlace
  · rw [hRaster]
    exact hDot
  · rw [hRaster]
    exact hFrame
  · rw [hRaster]
    constructor
    · rw [hCurrent]
      exact hPrepared.column
    · rw [hCurrent]
      exact hPrepared.onPlane
    · rw [hCurrent]
      exact hPrepared.row
    · rw [hPipeline]
      exact hPrepared.pipeline

/- Every quiet run draws the frame or has passed it. -/
theorem drawing_or_passed
    {events : List Event}
    (hQuiet : AllQuiet events)
    (hStart : Drawing start start) :
    Drawing start (start.after events) ∨
      HasPassed start.pictureEnd (start.after events) := by
  apply after_induction hQuiet (motive := fun ppu =>
    Drawing start ppu ∨ HasPassed start.pictureEnd ppu)
  · exact Or.inl hStart
  · intro ppu hHere
    exact drawing_or_passed_tick hHere
  · intro ppu hHere
    exact hHere.imp_left fun hDrawing =>
      hDrawing.congr (acceptNmi_keeps ppu) rfl rfl rfl
  · intro ppu hHere
    exact hHere.imp_left fun hDrawing =>
      hDrawing.congr (acceptFrame_keeps ppu) rfl rfl rfl

/- A unit at the end of the pre-render line is prepared. -/
theorem drawing_start
    (hTiming : start.timing.Standard)
    (hLine : start.isPrerenderLine = true)
    (hDot : start.raster.dot = 257)
    (hRendering : start.registers.mask.rendering = true)
    (hPlane : start.scroll.temporary.OnPlane) :
    Drawing start start := by
  have hScanline := isPrerenderLine_iff.mp hLine
  have hPicture := hTiming.picture_lt
  constructor
  · refine ⟨Keeps.refl start, ?_, hTiming, hPlane, ?_⟩
    · unfold isRendering
      rw [hLine, hRendering, Bool.or_true, Bool.and_true]
    · exact Or.inr ⟨hLine, by omega, hDot.ge⟩
  · rw [hDot]
    decide
  · rw [if_neg (by omega)]
  · constructor
    · intro hReturned
      exact absurd hDot hReturned
    · intro hRestored
      omega
    · intro hRestored
      omega
    · rw [hDot]
      exact prefetched_zero _ _

------------------------------------------------------------
-- Pixels
------------------------------------------------------------

theorem atOutput_pipeline
    (hActive : ppu.isRendering = true)
    (hFetch : isFetchDot ppu.raster.dot = true) :
    ppu.atOutput.pipeline = ppu.fetchBackground.pipeline := by
  rw [atOutput, if_pos hActive]
  by_cases hLast : ppu.raster.dot = 256
  · rw [fetch_at_lastColumn hLast]
    rfl
  · rw [fetch_of_fetchDot hFetch hLast]

/- Two bits make up the number of a palette. -/
theorem toNat_palette_bits
    (memory : VideoMemory)
    (table : UInt16)
    (column row : Nat) :
    let palette :=
      (ScrollPlane.latchAt memory table column row).palette
    2 * bitAt palette.toNat 1 + bitAt palette.toNat 0 =
      palette.toNat := by
  intro palette
  have hSmall :
      ScrollPlane.paletteAt memory (8 * column) row < 4 :=
    Nat.mod_lt _ (by decide)
  have hValue :
      palette.toNat =
        ScrollPlane.paletteAt memory (8 * column) row :=
    UInt8.toNat_ofNat_of_lt'
      (Nat.lt_trans hSmall (by decide))
  unfold bitAt
  omega

/- The pixel that is output while a line is drawn. -/
theorem Drawing.toNat_backgroundPixel
    {x : Nat}
    (hDrawing : Drawing start ppu)
    (hVisible :
      ppu.raster.scanline < Hardware.visibleScanlines)
    (hDot : ppu.raster.dot = x + 1)
    (hX : x < 256)
    (hFine : start.scroll.fineX < 8) :
    (ppu.atOutput.pipeline.backgroundPixel
        ppu.scroll.fineX).toNat =
      ScrollPlane.pixelAt start.memory
        start.registers.control.backgroundTable.toNat
        ((8 * start.scroll.temporary.planeColumn +
          start.scroll.fineX.toNat + x) % 512)
        ((start.scroll.temporary.planeRow +
          ppu.raster.scanline) % 480) := by
  have hActive := hDrawing.rendering.active
  have hFetch : isFetchDot ppu.raster.dot = true := by
    rw [isFetchDot_iff]
    omega
  have hFetched :=
    hDrawing.rendering.fetched hDrawing.prepared hFetch
  have hPhase : fetchPhase ppu.raster.dot = 16 + x := by
    unfold fetchPhase
    rw [if_pos (by omega)]
    omega
  have hLine :
      linePrepared ppu.raster.scanline ppu.raster.dot =
        ppu.raster.scanline := by
    unfold linePrepared
    rw [if_pos hVisible, if_pos (by omega)]
  rw [hPhase, hLine] at hFetched
  have hFineNat : start.scroll.fineX.toNat < 8 := hFine
  rw [atOutput_pipeline hActive hFetch,
    hDrawing.rendering.keeps.fineX,
    hFetched.toNat_backgroundPixel hFineNat (by omega),
    ScrollPlane.pixelAt_eq_entryOf]
  generalize start.scroll.fineX.toNat = fine at hFineNat
  generalize hColumn :
    start.scroll.temporary.planeColumn = column
  have hPlace : 16 + x - 16 + fine = fine + x := by omega
  have hTile :
      (8 * column + fine + x) % 512 / 8 =
        (column + (fine + x) / 8) % 64 := by
    omega
  have hBit :
      (8 * column + fine + x) % 512 % 8 = (fine + x) % 8 := by
    omega
  rw [hPlace, hTile, hBit]
  unfold highStream lowStream paletteStream lineTiles
  rw [hColumn, toNat_palette_bits]

/-
  The background pixels of a frame are those of the plane at
  the scroll position, whatever address, registers and latch
  the unit starts with, if it is left alone from dot 257 of
  the pre-render line until the pixel is output.
-/
theorem backgroundPixel_eq_pixelAt
    (start : Ppu)
    (standard : VideoStandard)
    (x y : Nat)
    (hTiming : start.timing = standard.timing)
    (hLine : start.isPrerenderLine = true)
    (hDot : start.raster.dot = 257)
    (hRendering : start.registers.mask.rendering = true)
    (hCoarse : start.scroll.temporary.digits.coarseY ≤ 29)
    (hFine : start.scroll.fineX < 8)
    (hX : x ≤ 255)
    (hY : y ≤ 239) :
    let output : Raster :=
      ⟨y, x + 1, start.raster.frame + 1⟩
    let scroll := start.scroll.temporary.digits
    (∃ dots, (start.afterDots dots).raster = output) ∧
    ∀ events,
      AllQuiet events →
      (start.after events).raster = output →
      ((start.after events).atOutput.pipeline.backgroundPixel
          (start.after events).scroll.fineX).toNat =
        ScrollPlane.pixelAt start.memory
          start.registers.control.backgroundTable.toNat
          ((256 * scroll.nametableX + 8 * scroll.coarseX +
            start.scroll.fineX.toNat + x) % 512)
          ((240 * scroll.nametableY + 8 * scroll.coarseY +
            scroll.fineY + y) % 480) := by
  intro output scroll
  have hStandard : start.timing.Standard :=
    hTiming ▸ standard.standard
  have hPre := isPrerenderLine_iff.mp hLine
  have hVisible : y < Hardware.visibleScanlines :=
    Nat.lt_succ_of_le hY
  constructor
  · have hTop :
        start.raster.nextLine start.timing =
          ⟨0, 0, start.raster.frame + 1⟩ := by
      apply if_pos
      rw [beq_iff_eq, hPre]
      exact hStandard.last
    exact exists_afterDots_of_nextLine start hStandard
      (by rw [hDot]; decide) hTop (Nat.zero_le y) hVisible
      (Nat.lt_of_le_of_lt (Nat.succ_le_succ hX) (by decide))
  · intro events hQuiet hReached
    have hStart := drawing_start hStandard hLine hDot
      hRendering hCoarse
    rcases drawing_or_passed hQuiet hStart with
      hDrawing | hPassed
    · have hScanline :
          (start.after events).raster.scanline = y :=
        congrArg Raster.scanline hReached
      have hPixel := hDrawing.toNat_backgroundPixel (x := x)
        (hScanline ▸ hVisible)
        (congrArg Raster.dot hReached)
        (Nat.lt_succ_of_le hX) hFine
      rw [hPixel, hScanline]
      have hColumn :
          8 * start.scroll.temporary.planeColumn =
            256 * scroll.nametableX + 8 * scroll.coarseX := by
        unfold ScrollAddress.planeColumn scroll
        omega
      rw [hColumn]
      rfl
    · unfold HasPassed at hPassed
      rw [hReached] at hPassed
      exact absurd (Or.inr ⟨rfl, Or.inl hVisible⟩) hPassed

/- Behind the last tile of the plane is its first one. -/
theorem backgroundPixel_behind_corner :
    let memory := VideoMemory.ofPatterns
      ⟨.replicate _ 0xFF, false⟩ .horizontal
    let start : Ppu :=
      { powerOn memory VideoStandard.ntsc.timing with
        registers := { mask := ⟨0x1E⟩ }
        scroll := { temporary := ⟨0x7FBF⟩, fineX := 5 }
        raster := ⟨261, 257, 0⟩ }
    ∃ dots,
      (start.afterDots dots).raster = ⟨1, 11, 1⟩ ∧
      ((start.afterDots dots).atOutput.pipeline
          |>.backgroundPixel
            (start.afterDots dots).scroll.fineX).toNat =
        ScrollPlane.pixelAt memory 0 7 0 := by
  have hMask : (PpuMask.mk 0x1E).rendering = true := by
    decide
  have hDigits :
      (ScrollAddress.mk 0x7FBF).digits =
        ⟨31, 29, 1, 1, 7⟩ :=
    rfl
  have hTable : (PpuControl.mk 0).backgroundTable = 0 := by
    decide
  intro memory
  clear_value memory
  intro start
  have hTemporary : start.scroll.temporary.digits = _ :=
    hDigits
  rcases backgroundPixel_eq_pixelAt start .ntsc 10 1 rfl rfl rfl
      hMask (by rw [hTemporary])
      (by decide : (5 : UInt8) < 8) (by decide) (by decide) with
    ⟨⟨dots, hReached⟩, hPixel⟩
  refine ⟨dots, hReached, ?_⟩
  have hHere := hPixel _ (allQuiet_dots dots) hReached
  have hMemory : start.memory = memory := rfl
  have hControl :
      start.registers.control.backgroundTable = 0 := hTable
  have hFine : start.scroll.fineX.toNat = 5 := rfl
  rw [hTemporary, hControl, hMemory, hFine] at hHere
  exact hHere

end Ppu

end Famicom
