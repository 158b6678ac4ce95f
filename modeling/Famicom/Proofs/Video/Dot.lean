import Famicom.Proofs.Video.Events

/-
  What one dot changes, component by component.

  A dot is a chain of phases.  None of them touches what
  only the processor sets, and each of the components that
  do change is changed by few of them.

  Key definitions include:
    * `Ppu.Keeps`
    * `Ppu.entryShown`

  Main declarations:
    * `Ppu.output_fst`
    * `Ppu.tick_keeps`
    * `Ppu.tick_scroll`
    * `Ppu.tick_pipeline`
    * `Ppu.tick_raster`
-/

namespace Famicom

namespace Ppu

------------------------------------------------------------
-- What a Dot Keeps
------------------------------------------------------------

/-
  Two states of a unit agree on the memories, on what the
  processor has written, and on the timing.
-/
structure Keeps (old new : Ppu) : Prop where
  timing : new.timing = old.timing
  memory : new.memory = old.memory
  oam : new.oam = old.oam
  temporary : new.scroll.temporary = old.scroll.temporary
  fineX : new.scroll.fineX = old.scroll.fineX
  latch : new.scroll.latch = old.scroll.latch
  control : new.registers.control = old.registers.control
  mask : new.registers.mask = old.registers.mask
  oamAddress :
    new.registers.oamAddress = old.registers.oamAddress
  dataBuffer :
    new.registers.dataBuffer = old.registers.dataBuffer
  openBus : new.registers.openBus = old.registers.openBus

namespace Keeps

theorem refl (ppu : Ppu) : Keeps ppu ppu := by
  constructor <;> rfl

theorem trans
    {first second third : Ppu}
    (hFirst : Keeps first second)
    (hSecond : Keeps second third) :
    Keeps first third where
  timing := hSecond.timing.trans hFirst.timing
  memory := hSecond.memory.trans hFirst.memory
  oam := hSecond.oam.trans hFirst.oam
  temporary := hSecond.temporary.trans hFirst.temporary
  fineX := hSecond.fineX.trans hFirst.fineX
  latch := hSecond.latch.trans hFirst.latch
  control := hSecond.control.trans hFirst.control
  mask := hSecond.mask.trans hFirst.mask
  oamAddress := hSecond.oamAddress.trans hFirst.oamAddress
  dataBuffer := hSecond.dataBuffer.trans hFirst.dataBuffer
  openBus := hSecond.openBus.trans hFirst.openBus

end Keeps

theorem fetchBackground_keeps (ppu : Ppu) :
    Keeps ppu ppu.fetchBackground := by
  unfold fetchBackground
  split <;> constructor <;> rfl

theorem evaluateSprites_keeps (ppu : Ppu) :
    Keeps ppu ppu.evaluateSprites := by
  unfold evaluateSprites
  dsimp only
  split
  · constructor <;> rfl
  · split <;> constructor <;> rfl

theorem changeAddress_keeps
    (ppu : Ppu)
    (change : ScrollAddress → ScrollAddress) :
    Keeps ppu (ppu.changeAddress change) := by
  constructor <;> rfl

theorem fetchNametable_keeps (ppu : Ppu) :
    Keeps ppu ppu.fetchNametable := by
  constructor <;> rfl

theorem updateScroll_keeps (ppu : Ppu) :
    Keeps ppu ppu.updateScroll := by
  unfold updateScroll
  dsimp only
  split_ifs
  · exact Keeps.refl ppu
  · exact changeAddress_keeps ppu _
  · exact (changeAddress_keeps ppu _).trans
      (evaluateSprites_keeps _)
  · exact changeAddress_keeps ppu _
  · exact fetchNametable_keeps ppu
  · exact Keeps.refl ppu

theorem fetch_keeps (ppu : Ppu) : Keeps ppu ppu.fetch := by
  unfold fetch
  dsimp only
  split
  · exact (fetchBackground_keeps ppu).trans
      (updateScroll_keeps _)
  · exact updateScroll_keeps ppu

theorem output_keeps (ppu : Ppu) :
    Keeps ppu ppu.output.2 := by
  unfold output outputPixel
  dsimp only
  split_ifs <;> constructor <;> rfl

theorem shift_keeps (ppu : Ppu) : Keeps ppu ppu.shift := by
  unfold shift
  split <;> constructor <;> rfl

theorem updateFlags_keeps (ppu : Ppu) :
    Keeps ppu ppu.updateFlags := by
  unfold updateFlags
  split_ifs <;> constructor <;> rfl

theorem advance_keeps (ppu : Ppu) :
    Keeps ppu ppu.advance := by
  constructor <;> rfl

------------------------------------------------------------
-- Phases
------------------------------------------------------------

/- The unit when the current dot's pixel is output. -/
def atOutput (ppu : Ppu) : Ppu :=
  if ppu.isRendering then ppu.fetch else ppu

/- The unit when the current dot has been drawn. -/
def drawn (ppu : Ppu) : Ppu :=
  if ppu.isRendering then
    ppu.atOutput.output.2.shift
  else
    ppu.atOutput.output.2

/-
  The entry of the palette that the current dot shows: the
  one that wins among what is rendered, or the backdrop.
-/
def entryShown (ppu : Ppu) : UInt8 :=
  if ppu.registers.mask.rendering = true then
    (ppu.layersAt (ppu.raster.dot - 1)).paletteEntry
  else
    ppu.backdrop

/- The pixel that is output shows that entry. -/
theorem output_fst (ppu : Ppu) :
    ppu.output.1 =
      if ppu.isPixelDot = true then
        some (ppu.pixelOf ppu.entryShown)
      else
        none := by
  unfold output outputPixel entryShown
  dsimp only
  split_ifs <;> rfl

/- A dot's pixel is that of the unit at its output. -/
theorem tick_fst (ppu : Ppu) :
    ppu.tick.1 = ppu.atOutput.output.1 := rfl

theorem tick_snd (ppu : Ppu) :
    ppu.tick.2 = ppu.drawn.updateFlags.advance := rfl

theorem atOutput_keeps (ppu : Ppu) :
    Keeps ppu ppu.atOutput := by
  unfold atOutput
  split
  · exact fetch_keeps ppu
  · exact Keeps.refl ppu

theorem drawn_keeps (ppu : Ppu) : Keeps ppu ppu.drawn := by
  have hOutput : Keeps ppu ppu.atOutput.output.2 :=
    (atOutput_keeps ppu).trans (output_keeps _)
  unfold drawn
  split
  · exact hOutput.trans (shift_keeps _)
  · exact hOutput

/- A dot leaves everything alone that is not its own. -/
theorem tick_keeps (ppu : Ppu) : Keeps ppu ppu.tick.2 := by
  rw [tick_snd]
  exact ((drawn_keeps ppu).trans (updateFlags_keeps _)).trans
    (advance_keeps _)

theorem acceptNmi_keeps (ppu : Ppu) :
    Keeps ppu ppu.acceptNmi := by
  constructor <;> rfl

theorem acceptFrame_keeps (ppu : Ppu) :
    Keeps ppu ppu.acceptFrame := by
  constructor <;> rfl

/- Quiet runs keep what single dots keep. -/
theorem after_keeps
    {start : Ppu}
    {events : List Event}
    (hQuiet : AllQuiet events) :
    Keeps start (start.after events) := by
  apply after_induction (motive := Keeps start) hQuiet
  · exact Keeps.refl start
  · intro ppu hKeeps
    exact hKeeps.trans (tick_keeps ppu)
  · intro ppu hKeeps
    exact hKeeps.trans (acceptNmi_keeps ppu)
  · intro ppu hKeeps
    exact hKeeps.trans (acceptFrame_keeps ppu)

------------------------------------------------------------
-- What a Dot Changes
------------------------------------------------------------

@[simp] theorem fetchBackground_raster (ppu : Ppu) :
    ppu.fetchBackground.raster = ppu.raster := by
  unfold fetchBackground
  split <;> rfl

@[simp] theorem evaluateSprites_raster (ppu : Ppu) :
    ppu.evaluateSprites.raster = ppu.raster := by
  unfold evaluateSprites
  dsimp only
  split <;> rfl

@[simp] theorem evaluateSprites_scroll (ppu : Ppu) :
    ppu.evaluateSprites.scroll = ppu.scroll := by
  unfold evaluateSprites
  dsimp only
  split <;> rfl

@[simp] theorem updateScroll_raster (ppu : Ppu) :
    ppu.updateScroll.raster = ppu.raster := by
  unfold updateScroll
  dsimp only
  split_ifs <;> simp [changeAddress, fetchNametable, latchTile]

@[simp] theorem fetch_raster (ppu : Ppu) :
    ppu.fetch.raster = ppu.raster := by
  unfold fetch
  dsimp only
  split <;> simp

@[simp] theorem output_raster (ppu : Ppu) :
    ppu.output.2.raster = ppu.raster := by
  unfold output outputPixel
  dsimp only
  split_ifs <;> rfl

@[simp] theorem output_scroll (ppu : Ppu) :
    ppu.output.2.scroll = ppu.scroll := by
  unfold output outputPixel
  dsimp only
  split_ifs <;> rfl

@[simp] theorem output_pipeline (ppu : Ppu) :
    ppu.output.2.pipeline = ppu.pipeline := by
  unfold output outputPixel
  dsimp only
  split_ifs <;> rfl

@[simp] theorem shift_raster (ppu : Ppu) :
    ppu.shift.raster = ppu.raster := by
  unfold shift
  split <;> rfl

@[simp] theorem shift_scroll (ppu : Ppu) :
    ppu.shift.scroll = ppu.scroll := by
  unfold shift
  split <;> rfl

@[simp] theorem updateFlags_raster (ppu : Ppu) :
    ppu.updateFlags.raster = ppu.raster := by
  unfold updateFlags
  split_ifs <;> rfl

@[simp] theorem updateFlags_scroll (ppu : Ppu) :
    ppu.updateFlags.scroll = ppu.scroll := by
  unfold updateFlags
  split_ifs <;> rfl

@[simp] theorem updateFlags_pipeline (ppu : Ppu) :
    ppu.updateFlags.pipeline = ppu.pipeline := by
  unfold updateFlags
  split_ifs <;> rfl

@[simp] theorem atOutput_raster (ppu : Ppu) :
    ppu.atOutput.raster = ppu.raster := by
  unfold atOutput
  split <;> simp

@[simp] theorem drawn_raster (ppu : Ppu) :
    ppu.drawn.raster = ppu.raster := by
  unfold drawn
  split <;> simp

/- The scroll registers only change by what is fetched. -/
theorem tick_scroll (ppu : Ppu) :
    ppu.tick.2.scroll = ppu.atOutput.scroll := by
  have hDrawn : ppu.drawn.scroll = ppu.atOutput.scroll := by
    unfold drawn
    split <;> simp
  rw [tick_snd]
  exact (updateFlags_scroll ppu.drawn).trans hDrawn

/- The pipeline changes by what is fetched and by a shift. -/
theorem tick_pipeline (ppu : Ppu) :
    ppu.tick.2.pipeline =
      if ppu.isRendering && isFetchDot ppu.raster.dot then
        ppu.atOutput.pipeline.shift
      else
        ppu.atOutput.pipeline := by
  have hDrawn : ppu.tick.2.pipeline = ppu.drawn.pipeline :=
    updateFlags_pipeline ppu.drawn
  rw [hDrawn]
  unfold drawn
  by_cases hRendering : ppu.isRendering = true
  · simp only [hRendering, if_true, Bool.true_and]
    unfold shift
    simp only [output_raster, atOutput_raster]
    split <;> simp
  · simp [hRendering]

/- The raster moves on as the mask has it. -/
theorem tick_raster (ppu : Ppu) :
    ppu.tick.2.raster =
      ppu.raster.advance ppu.timing ppu.isShortFrame := by
  have hKeeps : Keeps ppu ppu.drawn.updateFlags :=
    (drawn_keeps ppu).trans (updateFlags_keeps _)
  have hRaster :
      ppu.drawn.updateFlags.raster = ppu.raster := by simp
  rw [tick_snd]
  unfold advance isShortFrame
  rw [hRaster, hKeeps.timing, hKeeps.mask]

end Ppu

end Famicom
