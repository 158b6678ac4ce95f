import Famicom.Proofs.Video.FrameProgress
import Famicom.Proofs.Video.IdleDots
import Famicom.Proofs.Video.SpriteZeroHit

/-
  Sprites on the first line of the picture.

  No sprite belongs there.  The units are cleared for it on
  dot 257 of the pre-render line, but only while something is
  rendered.  If nothing is rendered on that dot, the units of
  the last line that evaluated sprites are still loaded on
  the first line of the next frame.

  Key definitions include:
    * `Ppu.AtClear`
    * `Ppu.Uncleared`
    * `Ppu.withoutSprites`

  Main declarations:
    * `Ppu.uncleared_tracedBack`
    * `Ppu.Uncleared.after_or_passed`
    * `Ppu.tick_withoutSprites`
    * `Ppu.sprites_on_firstLine`
-/

namespace Famicom

namespace Ppu

variable {past ppu : Ppu}

------------------------------------------------------------
-- Between Two Evaluations
------------------------------------------------------------

/- Where the units are to be cleared. -/
def AtClear (ppu : Ppu) : Prop :=
  ppu.raster.scanline = ppu.timing.prerenderScanline ∧
    ppu.raster.dot = 257

/-
  The raster is behind there, and the next dot that evaluates
  sprites has not passed.
-/
def BehindClear (ppu : Ppu) : Prop :=
  (ppu.raster.scanline = ppu.timing.prerenderScanline ∧
      257 < ppu.raster.dot) ∨
    (ppu.raster.scanline = 0 ∧ ppu.raster.dot ≤ 257)

/-
  Nothing was rendered where the units were to be cleared, and
  they are still the same.
-/
structure Uncleared (past ppu : Ppu) : Prop where
  pass : past.AtClear
  idle : past.registers.mask.rendering = false
  place :
    (ppu.raster.scanline = ppu.timing.prerenderScanline ∧
        257 < ppu.raster.dot ∧
        ppu.raster.frame = past.raster.frame) ∨
      (ppu.raster.scanline = 0 ∧ ppu.raster.dot ≤ 257 ∧
        ppu.raster.frame = past.raster.frame + 1)
  units : ppu.pipeline.sprites = past.pipeline.sprites

/- A dot leads there from the clearing or from in between. -/
theorem behindClear_of_tick
    (hFrame : ppu.OnFrame)
    (hNext : ppu.tick.2.BehindClear) :
    ppu.AtClear ∨
      (ppu.BehindClear ∧ ppu.raster.dot ≠ 257) := by
  have hLast := hFrame.timing.last
  have hBelow := hFrame.timing.below
  have hLastDot : Hardware.lastDot = 340 := rfl
  unfold AtClear
  unfold BehindClear at *
  rw [(tick_keeps ppu).timing] at hNext
  rcases tick_raster_inFrame hFrame.timing hFrame.raster with
    ⟨hRaster, -⟩ | ⟨hRaster, -, -⟩ | ⟨hRaster, hDot, hLine⟩
  all_goals
    rw [hRaster] at hNext
    dsimp only at hNext
    omega

/- A dot that clears nothing. -/
theorem AtClear.uncleared
    (hClear : ppu.AtClear)
    (hIdle : ppu.registers.mask.rendering = false) :
    Uncleared ppu ppu.tick.2 := by
  have hDot : ppu.raster.dot + 1 < Hardware.lastDot := by
    rw [hClear.2]
    decide
  have hRaster := tick_raster_of_lt hDot
  have hRendering : ppu.isRendering = false := by
    unfold isRendering
    rw [hIdle, Bool.and_false]
  refine ⟨hClear, hIdle, .inl ?_, ?_⟩
  · rw [hRaster, (tick_keeps ppu).timing]
    refine ⟨hClear.1, ?_, rfl⟩
    exact Nat.lt_succ_of_le hClear.2.ge
  · rw [tick_sprites_eq, hRendering]
    exact if_neg fun hLoad => Bool.false_ne_true hLoad.1

/- Other dots leave the units as they are. -/
theorem Uncleared.tick
    (hFrame : ppu.OnFrame)
    (hUncleared : Uncleared past ppu)
    (hDot : ppu.raster.dot ≠ 257) :
    Uncleared past ppu.tick.2 := by
  have hLast := hFrame.timing.last
  have hBelow := hFrame.timing.below
  have hLastDot : Hardware.lastDot = 340 := rfl
  have hPlace := hUncleared.place
  refine ⟨hUncleared.pass, hUncleared.idle, ?_, ?_⟩
  · rw [(tick_keeps ppu).timing]
    rcases tick_raster_inFrame hFrame.timing
        hFrame.raster with
      ⟨hRaster, -⟩ | ⟨hRaster, hEnd, hMore⟩ |
        ⟨hRaster, -, hLine⟩
    all_goals
      rw [hRaster]
      dsimp only
      omega
  · rw [tick_sprites hDot]
    exact hUncleared.units

/- So do accesses. -/
theorem Uncleared.access
    {event : Event}
    (hUncleared : Uncleared past ppu)
    (hDot : event ≠ .dot)
    (hReset : event ≠ .reset) :
    Uncleared past (ppu.handle event) where
  pass := hUncleared.pass
  idle := hUncleared.idle
  place := by
    have hKeeps := ppu.handle_accessKeeps hDot hReset
    rw [hKeeps.raster, hKeeps.timing]
    exact hUncleared.place
  units := by
    rw [handle_pipeline hDot hReset]
    exact hUncleared.units

/- Loaded units behind the clearing were not cleared there. -/
theorem uncleared_tracedBack :
    TracedBack OnFrame
      (fun ppu =>
        ppu.BehindClear ∧ ppu.pipeline.sprites ≠ [])
      Uncleared where
  reset := fun ppu hLoaded => hLoaded.2 rfl
  dot := by
    rintro ppu hFrame ⟨hBehind, hLoaded⟩
    rcases behindClear_of_tick hFrame hBehind with
      hClear | ⟨hBefore, hDot⟩
    · refine .inl (hClear.uncleared ?_)
      by_contra hMask
      rw [Bool.not_eq_false] at hMask
      have hLine : ppu.isPrerenderLine = true :=
        isPrerenderLine_iff.mpr hClear.1
      have hRendering : ppu.isRendering = true := by
        unfold isRendering
        rw [hLine, hMask, Bool.or_true, Bool.true_and]
      rw [tick_sprites_eq, if_pos ⟨hRendering, hClear.2⟩,
        if_pos hLine] at hLoaded
      exact hLoaded rfl
    · rw [tick_sprites hDot] at hLoaded
      exact .inr ⟨⟨hBefore, hLoaded⟩, fun past hUncleared =>
        hUncleared.tick hFrame hDot⟩
  access := by
    rintro ppu event hDot hReset ⟨hBehind, hLoaded⟩
    have hKeeps := ppu.handle_accessKeeps hDot hReset
    unfold BehindClear at hBehind
    rw [hKeeps.raster, hKeeps.timing] at hBehind
    rw [handle_pipeline hDot hReset] at hLoaded
    exact ⟨⟨hBehind, hLoaded⟩, fun past hUncleared =>
      hUncleared.access hDot hReset⟩

/-
  The units stay until the next dot that evaluates sprites
  has passed.
-/
theorem Uncleared.handle_or_passed
    (hFrame : ppu.OnFrame)
    {event : Event}
    (hReset : event ≠ .reset)
    (hHere :
      Uncleared past ppu ∨
        HasPassed ⟨0, 258, past.raster.frame + 1⟩ ppu) :
    Uncleared past (ppu.handle event) ∨
      HasPassed ⟨0, 258, past.raster.frame + 1⟩
        (ppu.handle event) := by
  by_cases hDot : event = .dot
  · rw [hDot]
    rcases hHere with hUncleared | hPassed
    · by_cases hEnd : ppu.raster.dot = 257
      · have hInside : ppu.raster.dot + 1 < Hardware.lastDot := by
          rw [hEnd]
          decide
        have hPlace := hUncleared.place
        refine .inr ?_
        unfold HasPassed Raster.Before Ppu.handle
        dsimp only
        rw [tick_raster_of_lt hInside]
        dsimp only
        omega
      · exact .inl (hUncleared.tick hFrame hEnd)
    · exact .inr hPassed.tick
  · refine hHere.imp
      (fun hUncleared => hUncleared.access hDot hReset) ?_
    unfold HasPassed
    rw [(ppu.handle_accessKeeps hDot hReset).raster]
    exact id

------------------------------------------------------------
-- Runs
------------------------------------------------------------

/- Without resets that is so for whole runs. -/
theorem Uncleared.after_or_passed
    (hFrame : ppu.OnFrame)
    {events : List Event}
    (hEvents : .reset ∉ events)
    (hHere :
      Uncleared past ppu ∨
        HasPassed ⟨0, 258, past.raster.frame + 1⟩ ppu) :
    Uncleared past (ppu.after events) ∨
      HasPassed ⟨0, 258, past.raster.frame + 1⟩
        (ppu.after events) := by
  induction events generalizing ppu with
  | nil => exact hHere
  | cons event events ih =>
      rw [List.mem_cons, not_or] at hEvents
      exact ih (hFrame.handle event) hEvents.2
        (handle_or_passed hFrame (Ne.symm hEvents.1) hHere)

/-
  In a run, nothing was rendered where the units were to be
  cleared for the frame that is drawn.
-/
structure MissedClear
    (start : Ppu)
    (events : List Event)
    (past : Ppu) : Prop where
  dot : PastDot start events past
  pass : past.AtClear
  idle : past.registers.mask.rendering = false
  frame :
    (start.after events).raster.frame =
      past.raster.frame + 1

/- Then the units are still there on the first line. -/
theorem MissedClear.uncleared
    {start : Ppu}
    {events : List Event}
    (hStart : start.OnFrame)
    (hMissed : MissedClear start events past)
    (hLine : (start.after events).raster.scanline = 0)
    (hDot : (start.after events).raster.dot ≤ 257) :
    Uncleared past (start.after events) := by
  rcases hMissed.dot with
    ⟨before, later, hEvents, hLater, hState⟩
  have hRun :
      start.after events = past.tick.2.after later := by
    rw [hEvents, hState, after_append]
    rfl
  have hFrame : past.tick.2.OnFrame :=
    hState ▸ (hStart.after before).tick
  have hNow := Uncleared.after_or_passed hFrame hLater
    (.inl (hMissed.pass.uncleared hMissed.idle))
  rw [← hRun] at hNow
  refine hNow.resolve_right fun hPassed => hPassed ?_
  refine .inr ⟨hMissed.frame, .inr ⟨hLine, ?_⟩⟩
  exact Nat.lt_succ_of_le hDot

------------------------------------------------------------
-- Without Sprites
------------------------------------------------------------

/- The unit with no sprite to show. -/
def withoutSprites (ppu : Ppu) : Ppu :=
  { ppu with pipeline := ppu.pipeline.clearSprites }

/- What a pixel's dot fetches does not depend on sprites. -/
theorem atOutput_withoutSprites
    (hDot : ppu.raster.dot ≤ 256) :
    ppu.withoutSprites.atOutput =
      ppu.atOutput.withoutSprites := by
  have hFetch :
      ppu.withoutSprites.fetchBackground =
        ppu.fetchBackground.withoutSprites := by
    unfold fetchBackground withoutSprites
    dsimp only
    split <;> rfl
  have hScroll (fetched : Ppu)
      (hSame : fetched.raster.dot ≤ 256) :
      fetched.withoutSprites.updateScroll =
        fetched.updateScroll.withoutSprites := by
    unfold updateScroll withoutSprites
    dsimp only
    by_cases hInside : fetched.raster.dot < 256
    · rw [if_pos hInside, if_pos hInside]
    · have hLast : fetched.raster.dot = 256 :=
        Nat.le_antisymm hSame (Nat.le_of_not_lt hInside)
      rw [if_neg hInside, if_neg hInside, if_pos hLast,
        if_pos hLast]
      rfl
  have hRendering :
      ppu.withoutSprites.isRendering = ppu.isRendering := rfl
  have hRaster : ppu.withoutSprites.raster = ppu.raster := rfl
  unfold atOutput fetch
  dsimp only
  rw [hRendering, hRaster, hFetch]
  split_ifs
  · refine hScroll _ ?_
    rw [fetchBackground_raster]
    exact hDot
  · exact hScroll ppu hDot
  · rfl

section Pixels

variable (hDot : 1 ≤ ppu.raster.dot ∧ ppu.raster.dot ≤ 256)

include hDot

theorem atOutput_spritePixel :
    ppu.atOutput.pipeline.spritePixel
        (ppu.raster.dot - 1) =
      ppu.pipeline.spritePixel (ppu.raster.dot - 1) := by
  have hReturn : ppu.raster.dot ≠ 257 := by omega
  unfold Pipeline.spritePixel
  rw [atOutput_sprites hReturn]

/- Where no sprite is offered, sprites make no difference. -/
theorem tick_withoutSprites
    (hNone :
      ppu.pipeline.spritePixel (ppu.raster.dot - 1) = none) :
    ppu.withoutSprites.tick.1 = ppu.tick.1 := by
  have hLayers :
      ppu.atOutput.withoutSprites.layersAt
          (ppu.raster.dot - 1) =
        ppu.atOutput.layersAt (ppu.raster.dot - 1) := by
    unfold layersAt
    rw [atOutput_spritePixel hDot, hNone]
    rfl
  have hRaster :
      ppu.atOutput.withoutSprites.raster = ppu.raster :=
    atOutput_raster ppu
  rw [tick_fst, tick_fst, atOutput_withoutSprites hDot.2,
    output_fst, output_fst]
  unfold entryShown
  rw [hRaster, atOutput_raster, hLayers]
  rfl

/- A hit takes a sprite that is offered. -/
theorem spritePixel_of_meetsZero
    (hMeets : ppu.atOutput.meetsZero = true) :
    ppu.pipeline.spritePixel (ppu.raster.dot - 1) ≠ none := by
  intro hNone
  unfold meetsZero layersAt Layers.hitsAt at hMeets
  dsimp only at hMeets
  rw [atOutput_raster, atOutput_spritePixel hDot, hNone] at hMeets
  simp at hMeets

end Pixels

/- Only a sprite that is offered is seen or hits. -/
theorem spritePixel_of_shown
    (hTiming : ppu.timing.Standard)
    (hShown :
      ppu.tick.1 ≠ ppu.withoutSprites.tick.1 ∨
        (ppu.zeroHit = false ∧ ppu.tick.2.zeroHit = true)) :
    ppu.raster.dot ≤ 256 ∧
      ppu.pipeline.spritePixel (ppu.raster.dot - 1) ≠
        none := by
  have hMeets
      (hHit :
        ppu.zeroHit = false ∧ ppu.tick.2.zeroHit = true) :
      ppu.atOutput.meetsZero = true := by
    refine ((tick_zeroHit hTiming).mp hHit.2).2.resolve_left ?_
    rw [hHit.1]
    exact Bool.false_ne_true
  by_cases hDot : 1 ≤ ppu.raster.dot ∧ ppu.raster.dot ≤ 256
  · refine ⟨hDot.2, fun hNone => ?_⟩
    rcases hShown with hOther | hHit
    · exact hOther (tick_withoutSprites hDot hNone).symm
    · exact spritePixel_of_meetsZero hDot (hMeets hHit) hNone
  · have hNothing (other : Ppu)
        (hSame : other.raster = ppu.raster) :
        other.tick.1 = none := by
      have hPlace := tick_place other
      rw [hSame, if_neg fun hHere => hDot hHere.2] at hPlace
      exact Option.map_eq_none_iff.mp hPlace
    rcases hShown with hOther | hHit
    · rw [hNothing ppu rfl,
        hNothing ppu.withoutSprites rfl] at hOther
      exact absurd rfl hOther
    · have hPixelDot := hMeets hHit
      unfold meetsZero at hPixelDot
      rw [Bool.and_eq_true, Bool.and_eq_true,
        atOutput_isPixelDot, isPixelDot_iff] at hPixelDot
      exact absurd hPixelDot.1.1.2 hDot

------------------------------------------------------------
-- The First Line
------------------------------------------------------------

/-
  The first line of the picture in any run from a reset.  Up
  to the evaluation of its own dots it offers a sprite pixel
  exactly if nothing was rendered on dot 257 of the
  pre-render line before, and then that of the units that
  were loaded there.  Only then can a dot of the line output
  another pixel than without sprites, or can sprite 0 hit the
  background there.
-/
theorem sprites_on_firstLine
    (start : Ppu)
    (standard : VideoStandard)
    (events : List Event)
    (hTiming : start.timing = standard.timing)
    (hLine :
      (start.reset.after events).raster.scanline = 0) :
    let ppu := start.reset.after events
    (ppu.raster.dot ≤ 257 → ∀ x pixel,
      ppu.pipeline.spritePixel x = some pixel ↔
        ∃ past,
          MissedClear start.reset events past ∧
            past.pipeline.spritePixel x = some pixel) ∧
    (ppu.tick.1 ≠ ppu.withoutSprites.tick.1 ∨
        (ppu.zeroHit = false ∧ ppu.tick.2.zeroHit = true) →
      ∃ past pixel,
        MissedClear start.reset events past ∧
          past.pipeline.spritePixel (ppu.raster.dot - 1) =
            some pixel) := by
  intro ppu
  have hStart : start.reset.OnFrame :=
    onFrame_reset (hTiming.symm ▸ standard.standard)
  have hOffered
      (hDot : ppu.raster.dot ≤ 257)
      (x : Nat)
      (pixel : SpritePixel) :
      ppu.pipeline.spritePixel x = some pixel ↔
        ∃ past,
          MissedClear start.reset events past ∧
            past.pipeline.spritePixel x = some pixel := by
    constructor
    · intro hPixel
      have hLoaded : ppu.pipeline.sprites ≠ [] := by
        intro hEmpty
        unfold Pipeline.spritePixel at hPixel
        rw [hEmpty] at hPixel
        cases hPixel
      rcases uncleared_tracedBack.exists_pastDot hStart.after
          (fun hNone => hNone.2 rfl)
          ⟨.inr ⟨hLine, hDot⟩, hLoaded⟩ with
        ⟨past, hPast, hUncleared⟩
      have hPlace :
          (start.reset.after events).raster.frame =
            past.raster.frame + 1 := by
        have hBelow := (hStart.after events).timing.below
        have hPlace := hUncleared.place
        omega
      refine ⟨past, ⟨hPast, hUncleared.pass,
        hUncleared.idle, hPlace⟩, ?_⟩
      unfold Pipeline.spritePixel at *
      rw [← hUncleared.units]
      exact hPixel
    · rintro ⟨past, hMissed, hPixel⟩
      have hUncleared := hMissed.uncleared hStart hLine hDot
      unfold Pipeline.spritePixel at *
      rw [hUncleared.units]
      exact hPixel
  refine ⟨hOffered, fun hShown => ?_⟩
  rcases spritePixel_of_shown (hStart.after events).timing
      hShown with
    ⟨hDot, hSome⟩
  rcases Option.ne_none_iff_exists'.mp hSome with
    ⟨pixel, hPixel⟩
  rcases (hOffered (Nat.le_succ_of_le hDot) _ pixel).mp
      hPixel with
    ⟨past, hMissed, hPast⟩
  exact ⟨past, pixel, hMissed, hPast⟩

/-
  The color of sprite 0 is set, and rendering is on for the
  one dot that evaluates sprites on the first line.
-/
def evaluatingEvents : List Event :=
  [.write 0x2006 0x3F, .write 0x2006 0x13,
      .write 0x2007 0x16, .write 0x2006 0x00,
      .write 0x2006 0x00] ++
    .replicate 257 .dot ++
    [.write 0x2001 0x1E, .dot, .write 0x2001 0x00]

/- Rendering is on again behind the missed clearing. -/
def lateEvents : List Event :=
  evaluatingEvents ++ .replicate 89001 .dot ++
    .write 0x2001 0x1E :: .replicate 84 .dot

set_option maxRecDepth 2000 in
theorem rest_of_evaluatingEvents :
    let rest := solidStart.after evaluatingEvents
    rest.timing = VideoStandard.ntsc.timing ∧
      rest.registers.mask.rendering = false ∧
      rest.raster = ⟨0, 258, 0⟩ := by
  decide +kernel

/- The dots in between only move the raster. -/
theorem after_lateEvents :
    solidStart.after lateEvents =
      ((solidStart.after evaluatingEvents).enterVerticalBlank
        |>.clearStatus.movedTo 89259).after
          (.write 0x2001 0x1E :: .replicate 84 .dot) := by
  rcases rest_of_evaluatingEvents with
    ⟨hTiming, hIdle, hRaster⟩
  generalize hRest :
    solidStart.after evaluatingEvents = rest at *
  have hStandard : rest.timing.Standard :=
    hTiming.symm ▸ VideoStandard.ntsc.standard
  have hHere : rest.movedTo 258 = rest :=
    movedTo_of_raster hRaster
  have hBehind :
      rest.timing.prerenderScanline *
          Hardware.dotsPerScanline + 1 < 89259 := by
    rw [hTiming]
    decide
  have hLast :
      89259 <
        rest.timing.scanlines *
          Hardware.dotsPerScanline := by
    rw [hTiming]
    decide
  have hMoved := afterDots_over_blank hStandard hIdle
    (by decide : 258 ≤ dotsBeforeBlank) hBehind hLast
  have hDots : 89259 - 258 = 89001 := by norm_num
  rw [hHere, hDots] at hMoved
  unfold afterDots at hMoved
  unfold lateEvents
  rw [after_append, after_append, hRest, hMoved]

set_option maxRecDepth 2000 in
theorem corner_of_lateEvents :
    let ppu := solidStart.after lateEvents
    ppu.raster = ⟨0, 1, 1⟩ ∧
      ppu.pipeline.spritePixel 0 =
        some ⟨0x13, false, true⟩ ∧
      ppu.tick.1 ≠ ppu.withoutSprites.tick.1 ∧
      ppu.zeroHit = false ∧
      ppu.tick.2.zeroHit = true := by
  rw [after_lateEvents]
  decide +kernel

/- The first line offers sprite 0, which is seen and hits. -/
theorem firstLine_can_show_sprites :
    let ppu := solidStart.reset.after lateEvents
    ppu.raster.scanline = 0 ∧
      ¬(∀ x, ppu.pipeline.spritePixel x = none) ∧
      ¬ppu.tick.1 = ppu.withoutSprites.tick.1 ∧
      ¬(ppu.zeroHit = false → ppu.tick.2.zeroHit = false) := by
  intro ppu
  rcases corner_of_lateEvents with
    ⟨hRaster, hPixel, hShown, hBefore, hHit⟩
  have hStart : ppu = solidStart.after lateEvents :=
    congrArg (after · lateEvents) (reset_powerOn _ _)
  rw [← hStart] at hRaster hPixel hShown hBefore hHit
  refine ⟨congrArg Raster.scanline hRaster, ?_, hShown, ?_⟩
  · intro hNone
    rw [hNone 0] at hPixel
    cases hPixel
  · intro hNever
    rw [hNever hBefore] at hHit
    cases hHit

/- The units that are seen were loaded at a missed clearing. -/
theorem missedClear_of_lateEvents :
    (solidStart.reset.after lateEvents).raster.scanline = 0 ∧
      ∃ past,
        MissedClear solidStart.reset lateEvents past ∧
          past.pipeline.spritePixel 0 =
            some ⟨0x13, false, true⟩ := by
  rcases corner_of_lateEvents with
    ⟨hRaster, hPixel, -, -, -⟩
  have hStart : solidStart.reset = solidStart :=
    reset_powerOn _ _
  rw [← hStart] at hRaster hPixel
  have hLine :
      (solidStart.reset.after lateEvents).raster.scanline =
        0 := by
    rw [hRaster]
  have hOffered := (sprites_on_firstLine solidStart .ntsc
    lateEvents rfl hLine).1
  rw [hRaster] at hOffered
  exact ⟨hLine,
    (hOffered (by decide) 0 ⟨0x13, false, true⟩).mp hPixel⟩

end Ppu

end Famicom
