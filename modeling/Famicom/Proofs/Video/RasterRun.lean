import Famicom.Proofs.Video.Dot

/-
  The raster under dots.

  A dot moves the raster on to the next dot of the line or
  to the start of the next line.  Positions are therefore
  reached one after the other, whatever the unit does.

  Key definitions include:
    * `FrameTiming.Standard`
    * `Raster.Before`
    * `Ppu.HasPassed`

  Main declarations:
    * `Ppu.tick_raster_cases`
    * `Ppu.tick_raster_before`
    * `Ppu.exists_afterDots_nextLine`
    * `Ppu.exists_afterDots_of_nextLine`
-/

namespace Famicom

------------------------------------------------------------
-- Timing
------------------------------------------------------------

/-
  The shape that frames have in both standards: the line of
  vertical blank and, last of all, the pre-render line are
  behind the picture.
-/
structure FrameTiming.Standard (timing : FrameTiming) :
    Prop where
  last : timing.prerenderScanline + 1 = timing.scanlines
  blank : timing.vblankScanline = Hardware.vblankScanline
  below :
    Hardware.vblankScanline < timing.prerenderScanline

theorem VideoStandard.standard (standard : VideoStandard) :
    standard.timing.Standard := by
  cases standard <;> constructor <;> decide

/- The picture lies before all of these lines. -/
theorem FrameTiming.Standard.picture_lt
    {timing : FrameTiming}
    (hTiming : timing.Standard) :
    Hardware.visibleScanlines < timing.prerenderScanline :=
  Nat.lt_trans (by decide) hTiming.below

------------------------------------------------------------
-- Order of Positions
------------------------------------------------------------

/- A position comes before another in the order of drawing. -/
def Raster.Before (first second : Raster) : Prop :=
  first.frame < second.frame ∨
    (first.frame = second.frame ∧
      (first.scanline < second.scanline ∨
        (first.scanline = second.scanline ∧
          first.dot < second.dot)))

theorem Raster.Before.trans
    {first second third : Raster}
    (hFirst : first.Before second)
    (hSecond : second.Before third) :
    first.Before third := by
  unfold Before at *
  omega

namespace Ppu

variable {ppu : Ppu}

------------------------------------------------------------
-- Single Dots
------------------------------------------------------------

theorem isPrerenderLine_iff :
    ppu.isPrerenderLine = true ↔
      ppu.raster.scanline = ppu.timing.prerenderScanline :=
  beq_iff_eq

theorem isVisibleLine_iff :
    ppu.isVisibleLine = true ↔
      ppu.raster.scanline < Hardware.visibleScanlines :=
  decide_eq_true_iff

theorem isPixelDot_iff :
    ppu.isPixelDot = true ↔
      ppu.raster.scanline < Hardware.visibleScanlines ∧
        1 ≤ ppu.raster.dot ∧ ppu.raster.dot ≤ 256 := by
  unfold isPixelDot
  rw [Bool.and_eq_true, isVisibleLine_iff, Bool.and_eq_true,
    decide_eq_true_iff, decide_eq_true_iff]

theorem atOutput_isPixelDot (ppu : Ppu) :
    ppu.atOutput.isPixelDot = ppu.isPixelDot := by
  unfold isPixelDot isVisibleLine
  rw [atOutput_raster]

/- What a dot outputs is settled once it has fetched. -/
theorem tick_pixel (ppu : Ppu) :
    ppu.tick.1 =
      if ppu.isPixelDot = true then
        some (ppu.atOutput.pixelOf ppu.atOutput.entryShown)
      else
        none := by
  rw [tick_fst, output_fst, atOutput_isPixelDot]

/-
  A dot is followed by the next one of its line, except for
  the last one and, in short frames, the last but one of the
  pre-render line.
-/
theorem tick_raster_cases (ppu : Ppu) :
    (ppu.tick.2.raster =
        { ppu.raster with dot := ppu.raster.dot + 1 } ∧
      ppu.raster.dot < Hardware.lastDot) ∨
    (ppu.tick.2.raster = ppu.raster.nextLine ppu.timing ∧
      (Hardware.lastDot ≤ ppu.raster.dot ∨
        (ppu.raster.dot = Hardware.lastDot - 1 ∧
          ppu.isPrerenderLine = true))) := by
  rw [tick_raster]
  unfold Raster.advance
  dsimp only
  split
  next hStays =>
    simp only [Bool.and_eq_true, decide_eq_true_eq] at hStays
    exact Or.inl ⟨rfl, hStays.1⟩
  next hLeaves =>
    refine Or.inr ⟨rfl, ?_⟩
    rcases Nat.lt_or_ge ppu.raster.dot Hardware.lastDot with
      hBefore | hLast
    · simp only [hBefore, decide_true, Bool.true_and,
        Bool.not_eq_true', Bool.not_eq_false,
        Raster.isBeforeSkippedDot, Bool.and_eq_true,
        beq_iff_eq] at hLeaves
      exact Or.inr ⟨hLeaves.2.2,
        isPrerenderLine_iff.mpr (beq_iff_eq.mp hLeaves.2.1)⟩
    · exact Or.inl hLast

/- A dot never leads back. -/
theorem tick_raster_before (ppu : Ppu) :
    ppu.raster.Before ppu.tick.2.raster := by
  rcases tick_raster_cases ppu with ⟨hNext, -⟩ | ⟨hEnd, -⟩
  · rw [hNext]
    exact Or.inr ⟨rfl, Or.inr ⟨rfl, Nat.lt_succ_self _⟩⟩
  · rw [hEnd]
    unfold Raster.nextLine
    split
    · exact Or.inl (Nat.lt_succ_self _)
    · exact Or.inr ⟨rfl, Or.inl (Nat.lt_succ_self _)⟩

/- The raster has got to a position or is behind it. -/
def HasPassed (place : Raster) (ppu : Ppu) : Prop :=
  ¬ppu.raster.Before place

/- Positions that have passed do not return. -/
theorem HasPassed.tick
    {place : Raster}
    (hPassed : HasPassed place ppu) :
    HasPassed place ppu.tick.2 :=
  mt (tick_raster_before ppu).trans hPassed

/- Away from the ends of lines the next dot follows. -/
theorem tick_raster_of_lt
    (hDot : ppu.raster.dot + 1 < Hardware.lastDot) :
    ppu.tick.2.raster =
      { ppu.raster with dot := ppu.raster.dot + 1 } := by
  rcases tick_raster_cases ppu with hNext | hEnd
  · exact hNext.1
  · rcases hEnd with ⟨-, hLast | ⟨hSkip, -⟩⟩
    · omega
    · omega

------------------------------------------------------------
-- Runs of Dots
------------------------------------------------------------

/- Dots keep what single dots keep. -/
theorem afterDots_keeps
    (ppu : Ppu)
    (dots : Nat) :
    Keeps ppu (ppu.afterDots dots) :=
  after_keeps (allQuiet_dots dots)

theorem afterDots_succ_right
    (ppu : Ppu)
    (dots : Nat) :
    ppu.afterDots (dots + 1) =
      (ppu.afterDots dots).tick.2 := by
  rw [afterDots_add]
  rfl

/- The later dots of a line are reached. -/
theorem exists_afterDots_dot
    (ppu : Ppu)
    (dot : Nat)
    (hFrom : ppu.raster.dot ≤ dot)
    (hTo : dot < Hardware.lastDot) :
    ∃ dots,
      (ppu.afterDots dots).raster =
        { ppu.raster with dot := dot } := by
  induction dot, hFrom using Nat.le_induction with
  | base => exact ⟨0, rfl⟩
  | succ dot _ ih =>
      rcases ih (by omega) with ⟨dots, hHere⟩
      refine ⟨dots + 1, ?_⟩
      rw [afterDots_succ_right, tick_raster_of_lt, hHere]
      rw [hHere]
      exact hTo

/- The start of the next line is reached. -/
theorem exists_afterDots_nextLine
    (ppu : Ppu)
    (hDot : ppu.raster.dot < Hardware.lastDot) :
    ∃ dots,
      (ppu.afterDots dots).raster =
        ppu.raster.nextLine ppu.timing := by
  rcases exists_afterDots_dot ppu
    (Hardware.lastDot - 1) (Nat.le_pred_of_lt hDot)
    (by decide) with ⟨dots, hNear⟩
  have hLine (raster : Raster)
      (hSame : raster.scanline = ppu.raster.scanline)
      (hFrame : raster.frame = ppu.raster.frame) :
      raster.nextLine ppu.timing =
        ppu.raster.nextLine ppu.timing := by
    unfold Raster.nextLine
    rw [hSame, hFrame]
  have hTiming := (afterDots_keeps ppu dots).timing
  rcases tick_raster_cases (ppu.afterDots dots) with
    ⟨hNext, -⟩ | ⟨hEnd, -⟩
  · refine ⟨dots + 1 + 1, ?_⟩
    have hLast :
        (ppu.afterDots (dots + 1)).raster =
          { ppu.raster with dot := Hardware.lastDot } := by
      rw [afterDots_succ_right, hNext, hNear]
      rfl
    have hTiming' := (afterDots_keeps ppu (dots + 1)).timing
    rw [afterDots_succ_right]
    rcases tick_raster_cases (ppu.afterDots (dots + 1)) with
      ⟨-, hBefore⟩ | ⟨hEnd, -⟩
    · rw [hLast] at hBefore
      exact absurd hBefore (Nat.lt_irrefl _)
    · rw [hEnd, hTiming']
      apply hLine <;> rw [hLast]
  · refine ⟨dots + 1, ?_⟩
    rw [afterDots_succ_right, hEnd, hTiming]
    apply hLine <;> rw [hNear]

/- Every dot of a later line of the picture is reached. -/
theorem exists_afterDots_visible
    (ppu : Ppu)
    (hTiming : ppu.timing.Standard)
    (line dot : Nat)
    (hStart : ppu.raster.dot = 0)
    (hFrom : ppu.raster.scanline ≤ line)
    (hLine : line < Hardware.visibleScanlines)
    (hDot : dot < Hardware.lastDot) :
    ∃ dots,
      (ppu.afterDots dots).raster =
        ⟨line, dot, ppu.raster.frame⟩ := by
  have hReached : ∃ dots,
      (ppu.afterDots dots).raster =
        ⟨line, 0, ppu.raster.frame⟩ := by
    induction line, hFrom using Nat.le_induction with
    | base =>
        refine ⟨0, ?_⟩
        exact congrArg
          (Raster.mk ppu.raster.scanline · ppu.raster.frame)
          hStart
    | succ line _ ih =>
        rcases ih (by omega) with ⟨dots, hHere⟩
        rcases exists_afterDots_nextLine (ppu.afterDots dots)
            (by rw [hHere]; exact Nat.zero_lt_succ _) with
          ⟨more, hNext⟩
        refine ⟨dots + more, ?_⟩
        have hLast := hTiming.last
        have hBelow := hTiming.picture_lt
        rw [afterDots_add, hNext, hHere,
          (afterDots_keeps ppu dots).timing]
        exact if_neg (by
          simp only [beq_iff_eq]
          omega)
  rcases hReached with ⟨dots, hHere⟩
  rcases exists_afterDots_dot (ppu.afterDots dots) dot
      (by rw [hHere]; exact Nat.zero_le _) hDot with
    ⟨more, hThere⟩
  refine ⟨dots + more, ?_⟩
  rw [afterDots_add, hThere, hHere]

/- The same from any position in the line before them. -/
theorem exists_afterDots_of_nextLine
    (ppu : Ppu)
    (hTiming : ppu.timing.Standard)
    {first line dot frame : Nat}
    (hStart : ppu.raster.dot < Hardware.lastDot)
    (hNext :
      ppu.raster.nextLine ppu.timing = ⟨first, 0, frame⟩)
    (hFrom : first ≤ line)
    (hLine : line < Hardware.visibleScanlines)
    (hDot : dot < Hardware.lastDot) :
    ∃ dots,
      (ppu.afterDots dots).raster = ⟨line, dot, frame⟩ := by
  rcases exists_afterDots_nextLine ppu hStart with
    ⟨dots, hHere⟩
  rw [hNext] at hHere
  have hKept := (afterDots_keeps ppu dots).timing
  rcases exists_afterDots_visible
    (ppu.afterDots dots) (hKept ▸ hTiming) line dot
    (by rw [hHere]) (by rw [hHere]; exact hFrom) hLine hDot with
    ⟨more, hThere⟩
  refine ⟨dots + more, ?_⟩
  rw [afterDots_add, hThere, hHere]

end Ppu

end Famicom
