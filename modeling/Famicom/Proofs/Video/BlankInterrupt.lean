import Famicom.Proofs.Video.RasterRun
import Famicom.Proofs.Video.RegisterAccess

/-
  Vertical blank and the interrupts that dots ask for.

  A dot asks for an interrupt where vertical blank starts and
  nowhere else.  The flag is only set between there and the
  pre-render line, and from anywhere in between it takes most
  of a frame until a dot asks again.

  Key definitions include:
    * `Ppu.dotRaises`
    * `Ppu.BlankInPlace`
    * `Ppu.QuietFor`

  Main declarations:
    * `Ppu.tick_nmiRequested`
    * `Ppu.BlankInPlace.tick`
    * `Ppu.QuietFor.tick`
-/

namespace Famicom

namespace Ppu

variable {ppu : Ppu}

------------------------------------------------------------
-- Timing
------------------------------------------------------------

/- Whatever happens to the unit, its timing stays. -/
theorem handle_timing
    (ppu : Ppu)
    (event : Event) :
    (ppu.handle event).timing = ppu.timing := by
  by_cases hDot : event = .dot
  · rw [hDot]
    exact (tick_keeps ppu).timing
  by_cases hReset : event = .reset
  · rw [hReset]
    rfl
  exact (ppu.handle_accessKeeps hDot hReset).timing

theorem after_timing
    (ppu : Ppu)
    (events : List Event) :
    (ppu.after events).timing = ppu.timing :=
  after_invariant (motive := fun now => now.timing = ppu.timing)
    (fun now event hSame => (handle_timing now event).trans hSame)
    rfl events

------------------------------------------------------------
-- Signals of Vertical Blank
------------------------------------------------------------

/- Two states agree on the request and on the flag. -/
structure SameSignals (old new : Ppu) : Prop where
  requested : new.nmiRequested = old.nmiRequested
  verticalBlank :
    new.registers.status.verticalBlank =
      old.registers.status.verticalBlank

namespace SameSignals

theorem refl (ppu : Ppu) : SameSignals ppu ppu := ⟨rfl, rfl⟩

theorem trans
    {first second third : Ppu}
    (hFirst : SameSignals first second)
    (hSecond : SameSignals second third) :
    SameSignals first third where
  requested := hSecond.requested.trans hFirst.requested
  verticalBlank :=
    hSecond.verticalBlank.trans hFirst.verticalBlank

end SameSignals

theorem fetchBackground_signals (ppu : Ppu) :
    SameSignals ppu ppu.fetchBackground := by
  unfold fetchBackground
  split <;> exact ⟨rfl, rfl⟩

theorem evaluateSprites_signals (ppu : Ppu) :
    SameSignals ppu ppu.evaluateSprites := by
  unfold evaluateSprites
  dsimp only
  split
  · exact ⟨rfl, rfl⟩
  · split <;> exact ⟨rfl, rfl⟩

theorem changeAddress_signals
    (ppu : Ppu)
    (change : ScrollAddress → ScrollAddress) :
    SameSignals ppu (ppu.changeAddress change) :=
  ⟨rfl, rfl⟩

theorem updateScroll_signals (ppu : Ppu) :
    SameSignals ppu ppu.updateScroll := by
  unfold updateScroll
  dsimp only
  split_ifs
  · exact .refl ppu
  · exact ⟨rfl, rfl⟩
  · exact (changeAddress_signals ppu _).trans
      (evaluateSprites_signals _)
  · exact ⟨rfl, rfl⟩
  · exact ⟨rfl, rfl⟩
  · exact .refl ppu

theorem output_signals (ppu : Ppu) :
    SameSignals ppu ppu.output.2 := by
  unfold output outputPixel
  dsimp only
  split_ifs <;> exact ⟨rfl, rfl⟩

theorem shift_signals (ppu : Ppu) :
    SameSignals ppu ppu.shift := by
  unfold shift
  split <;> exact ⟨rfl, rfl⟩

theorem atOutput_signals (ppu : Ppu) :
    SameSignals ppu ppu.atOutput := by
  unfold atOutput fetch
  dsimp only
  split
  · split
    · exact (fetchBackground_signals ppu).trans
        (updateScroll_signals _)
    · exact updateScroll_signals ppu
  · exact .refl ppu

/- Drawing leaves both alone. -/
theorem drawn_signals (ppu : Ppu) :
    SameSignals ppu ppu.drawn := by
  have hOutput : SameSignals ppu ppu.atOutput.output.2 :=
    (atOutput_signals ppu).trans (output_signals _)
  unfold drawn
  split
  · exact hOutput.trans (shift_signals _)
  · exact hOutput

------------------------------------------------------------
-- Single Dots
------------------------------------------------------------

/- Where vertical blank starts. -/
def AtBlankStart (ppu : Ppu) : Prop :=
  ppu.raster.scanline = Hardware.vblankScanline ∧
    ppu.raster.dot = 1

instance : Decidable ppu.AtBlankStart := by
  unfold AtBlankStart
  infer_instance

/- Whether the next dot asks for an interrupt. -/
def dotRaises (ppu : Ppu) : Bool :=
  decide ppu.AtBlankStart && ppu.registers.control.nmiEnabled

section Dots

variable (hTiming : ppu.timing.Standard)

include hTiming

theorem updateFlags_of_blankStart
    (hStart : ppu.AtBlankStart) :
    ppu.updateFlags = ppu.enterVerticalBlank := by
  have hLine :
      ppu.raster.scanline = ppu.timing.vblankScanline :=
    hStart.1.trans hTiming.blank.symm
  unfold updateFlags
  rw [if_pos hStart.2, if_pos hLine]

/- Elsewhere there is no request, and no flag is set. -/
theorem updateFlags_of_not_blankStart
    (hElsewhere : ¬ppu.AtBlankStart) :
    ppu.updateFlags.nmiRequested = ppu.nmiRequested ∧
      (ppu.updateFlags.registers.status.verticalBlank = true →
        ppu.registers.status.verticalBlank = true ∧
          ¬(ppu.raster.scanline =
              ppu.timing.prerenderScanline ∧
            ppu.raster.dot = 1)) := by
  unfold updateFlags
  split_ifs with hDot hLine hPrerender
  · exact absurd ⟨hLine.trans hTiming.blank, hDot⟩ hElsewhere
  · refine ⟨rfl, ?_⟩
    intro hBlank
    exact absurd hBlank Bool.false_ne_true
  · refine ⟨rfl, fun hBlank => ⟨hBlank, ?_⟩⟩
    intro hEnd
    exact hPrerender (isPrerenderLine_iff.mpr hEnd.1)
  · refine ⟨rfl, fun hBlank => ⟨hBlank, ?_⟩⟩
    intro hEnd
    exact hDot hEnd.2

/- A dot asks for an interrupt where blank starts. -/
theorem tick_nmiRequested :
    ppu.tick.2.nmiRequested =
      (ppu.nmiRequested || ppu.dotRaises) := by
  have hKeeps := drawn_keeps ppu
  have hSame := drawn_signals ppu
  have hRaster := drawn_raster ppu
  have hTiming' : ppu.drawn.timing.Standard :=
    hKeeps.timing.symm ▸ hTiming
  have hPlace : ppu.drawn.AtBlankStart ↔ ppu.AtBlankStart := by
    unfold AtBlankStart
    rw [hRaster]
  rw [tick_snd, ← hSame.requested]
  unfold advance dotRaises
  by_cases hStart : ppu.AtBlankStart
  · rw [decide_eq_true hStart, ← hKeeps.control,
      updateFlags_of_blankStart hTiming' (hPlace.mpr hStart)]
    rfl
  · rw [decide_eq_false hStart, Bool.false_and, Bool.or_false]
    exact (updateFlags_of_not_blankStart hTiming'
      (mt hPlace.mp hStart)).1

/- The flag is set by a start or was set before. -/
theorem tick_verticalBlank
    (hBlank :
      ppu.tick.2.registers.status.verticalBlank = true) :
    ppu.AtBlankStart ∨
      ppu.registers.status.verticalBlank = true ∧
        ¬(ppu.raster.scanline =
            ppu.timing.prerenderScanline ∧
          ppu.raster.dot = 1) := by
  have hKeeps := drawn_keeps ppu
  have hSame := drawn_signals ppu
  have hRaster := drawn_raster ppu
  have hTiming' : ppu.drawn.timing.Standard :=
    hKeeps.timing.symm ▸ hTiming
  by_cases hStart : ppu.AtBlankStart
  · exact Or.inl hStart
  · have hElsewhere : ¬ppu.drawn.AtBlankStart := by
      unfold AtBlankStart
      rw [hRaster]
      exact hStart
    rcases
        updateFlags_of_not_blankStart hTiming' hElsewhere with
      ⟨-, hFlag⟩
    have hBefore := hFlag hBlank
    rw [hSame.verticalBlank, hRaster, hKeeps.timing] at hBefore
    exact Or.inr hBefore

end Dots

------------------------------------------------------------
-- The Flag
------------------------------------------------------------

/- The raster is behind the start of vertical blank. -/
def BehindBlankStart (ppu : Ppu) : Prop :=
  Hardware.vblankScanline < ppu.raster.scanline ∨
    (ppu.raster.scanline = Hardware.vblankScanline ∧
      1 < ppu.raster.dot)

/-
  The flag is only set behind the start of vertical blank and
  up to its end on the pre-render line.
-/
def BlankInPlace (ppu : Ppu) : Prop :=
  ppu.registers.status.verticalBlank = true →
    ppu.BehindBlankStart ∧
      (ppu.raster.scanline < ppu.timing.prerenderScanline ∨
        (ppu.raster.scanline = ppu.timing.prerenderScanline ∧
          ppu.raster.dot ≤ 1))

/- The first dot behind the start. -/
theorem tick_raster_of_blankStart
    (hStart : ppu.AtBlankStart) :
    ppu.tick.2.raster =
      ⟨Hardware.vblankScanline, 2, ppu.raster.frame⟩ := by
  have hDot : ppu.raster.dot + 1 < Hardware.lastDot := by
    rw [hStart.2]
    decide
  rw [tick_raster_of_lt hDot]
  dsimp only
  rw [hStart.1, hStart.2]

/- Dots keep the flag in place. -/
theorem BlankInPlace.tick
    (hTiming : ppu.timing.Standard)
    (hPlace : ppu.BlankInPlace) :
    ppu.tick.2.BlankInPlace := by
  intro hBlank
  have hKept := (tick_keeps ppu).timing
  have hBelow := hTiming.below
  have hLast := hTiming.last
  unfold BehindBlankStart
  rw [hKept]
  rcases tick_verticalBlank hTiming hBlank with
    hStart | ⟨hBefore, hElsewhere⟩
  · rw [tick_raster_of_blankStart hStart]
    exact ⟨Or.inr ⟨rfl, Nat.lt_succ_self 1⟩, Or.inl hBelow⟩
  · rcases hPlace hBefore with ⟨hBehind, hEnd⟩
    unfold BehindBlankStart at hBehind
    rcases tick_raster_cases ppu with
      ⟨hNext, -⟩ | ⟨hNext, hDot⟩
    · rw [hNext]
      dsimp only
      omega
    · have hDots : Hardware.lastDot = 340 := rfl
      have hLine :
          ppu.raster.scanline <
            ppu.timing.prerenderScanline := by
        omega
      have hInside :
          (ppu.raster.scanline + 1 == ppu.timing.scanlines) =
            false :=
        beq_false_of_ne (by omega)
      rw [hNext]
      unfold Raster.nextLine
      rw [hInside]
      simp only [Bool.false_eq_true, if_false]
      omega

/- Accesses keep it in place too. -/
theorem BlankInPlace.of_accessKeeps
    {old new : Ppu}
    (hKeeps : AccessKeeps old new)
    (hPlace : old.BlankInPlace) :
    new.BlankInPlace := by
  intro hBlank
  have hOld := hPlace (hKeeps.verticalBlank hBlank)
  unfold BehindBlankStart at *
  rw [hKeeps.raster, hKeeps.timing]
  exact hOld

------------------------------------------------------------
-- Quiet Stretches
------------------------------------------------------------

/- The dots of a frame before the one that may ask. -/
def dotsBeforeBlank : Nat :=
  Hardware.vblankScanline * Hardware.dotsPerScanline + 1

/-
  The raster is behind the start of vertical blank, or before
  it by a number of dots or more.
-/
def QuietFor
    (dots : Nat)
    (ppu : Ppu) : Prop :=
  ppu.BehindBlankStart ∨
    ppu.raster.scanline * Hardware.dotsPerScanline +
      ppu.raster.dot + dots ≤ dotsBeforeBlank

theorem QuietFor.mono
    {few many : Nat}
    (hFew : few ≤ many)
    (hQuiet : QuietFor many ppu) :
    QuietFor few ppu :=
  hQuiet.imp_right fun hDots =>
    (Nat.add_le_add_left hFew _).trans hDots

/- A position is enough to tell. -/
theorem QuietFor.congr
    {old new : Ppu}
    {dots : Nat}
    (hRaster : new.raster = old.raster)
    (hQuiet : QuietFor dots old) :
    QuietFor dots new := by
  unfold QuietFor BehindBlankStart at *
  rw [hRaster]
  exact hQuiet

theorem QuietFor.dotRaises
    {dots : Nat}
    (hQuiet : QuietFor (dots + 1) ppu) :
    ppu.dotRaises = false := by
  have hElsewhere : ¬ppu.AtBlankStart := by
    rintro ⟨hLine, hDot⟩
    unfold QuietFor BehindBlankStart dotsBeforeBlank at hQuiet
    rw [hLine, hDot] at hQuiet
    omega
  unfold Ppu.dotRaises
  rw [decide_eq_false hElsewhere, Bool.false_and]

/- One dot later one dot less is sure to be quiet. -/
theorem QuietFor.tick
    (hTiming : ppu.timing.Standard)
    {dots : Nat}
    (hDots : dots ≤ dotsBeforeBlank)
    (hQuiet : QuietFor (dots + 1) ppu) :
    QuietFor dots ppu.tick.2 := by
  have hLast := hTiming.last
  have hPerLine : Hardware.dotsPerScanline = 341 := rfl
  have hLastDot : Hardware.lastDot = 340 := rfl
  unfold QuietFor BehindBlankStart at *
  rcases tick_raster_cases ppu with
    ⟨hNext, -⟩ | ⟨hNext, hDot⟩
  · rw [hNext]
    dsimp only
    omega
  · rw [hNext]
    unfold Raster.nextLine
    by_cases hEnd :
        ppu.raster.scanline + 1 = ppu.timing.scanlines
    · rw [if_pos (beq_iff_eq.mpr hEnd)]
      dsimp only
      omega
    · rw [if_neg (mt beq_iff_eq.mp hEnd)]
      rw [isPrerenderLine_iff] at hDot
      dsimp only
      rw [Nat.add_one_mul]
      omega

/- A frame starts with a quiet stretch. -/
theorem quietFor_reset (ppu : Ppu) :
    QuietFor dotsBeforeBlank ppu.reset := by
  refine Or.inr ?_
  show 0 * Hardware.dotsPerScanline + 0 + dotsBeforeBlank ≤
    dotsBeforeBlank
  rw [Nat.zero_mul, Nat.zero_add]

/- A flag that is set is followed by a quiet stretch. -/
theorem BlankInPlace.quietFor
    (hPlace : ppu.BlankInPlace)
    (hBlank : ppu.registers.status.verticalBlank = true)
    (dots : Nat) :
    QuietFor dots ppu :=
  Or.inl (hPlace hBlank).1

/- So is a dot that may have asked. -/
theorem quietFor_of_dotRaises
    (hRaises : ppu.dotRaises = true)
    (dots : Nat) :
    QuietFor dots ppu.tick.2 := by
  have hStart : ppu.AtBlankStart :=
    of_decide_eq_true (Bool.and_eq_true_iff.mp hRaises).1
  have hRaster := tick_raster_of_blankStart hStart
  refine Or.inl (Or.inr ?_)
  rw [hRaster]
  exact ⟨rfl, Nat.lt_succ_self 1⟩

end Ppu

end Famicom
