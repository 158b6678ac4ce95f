import Famicom.Proofs.Video.SpriteZeroHit

/-
  What dots may change.

  Dots leave the memories and the registers of the processor
  alone.  Of the status they raise two flags and end them in
  one place only, and where nothing is fetched they touch
  neither the scroll registers nor the pipeline, so that the
  address changes by accesses alone.

  Key definitions include:
    * `Ppu.FlagsStay`
    * `Ppu.OnIdleDot`
    * `Ppu.IdleRun`
    * `Ppu.Event.movesAddress`

  Main declarations:
    * `Ppu.tick_flagsStay`
    * `Ppu.tick_of_onIdleDot`
    * `Ppu.IdleRun.induction`
    * `Ppu.dots_leave_the_rest`
-/

namespace Famicom

namespace Ppu

variable {ppu start : Ppu}

------------------------------------------------------------
-- Flags
------------------------------------------------------------

/- The flags about sprites that are up stay up. -/
structure FlagsStay (old new : Ppu) : Prop where
  zeroHit :
    old.registers.status.spriteZeroHit = true →
      new.registers.status.spriteZeroHit = true
  overflow :
    old.registers.status.spriteOverflow = true →
      new.registers.status.spriteOverflow = true

namespace FlagsStay

theorem of_status
    {old new : Ppu}
    (hSame : new.registers.status = old.registers.status) :
    FlagsStay old new where
  zeroHit := by
    rw [hSame]
    exact id
  overflow := by
    rw [hSame]
    exact id

theorem trans
    {first second third : Ppu}
    (hFirst : FlagsStay first second)
    (hSecond : FlagsStay second third) :
    FlagsStay first third where
  zeroHit := hSecond.zeroHit ∘ hFirst.zeroHit
  overflow := hSecond.overflow ∘ hFirst.overflow

end FlagsStay

theorem fetchBackground_flagsStay (ppu : Ppu) :
    FlagsStay ppu ppu.fetchBackground := by
  unfold fetchBackground
  split <;> exact .of_status rfl

/- More sprites than a line shows raise the one flag. -/
theorem evaluateSprites_flagsStay (ppu : Ppu) :
    FlagsStay ppu ppu.evaluateSprites := by
  unfold evaluateSprites
  dsimp only
  split
  · exact .of_status rfl
  · split
    · exact ⟨id, fun _ => rfl⟩
    · exact .of_status rfl

theorem updateScroll_flagsStay (ppu : Ppu) :
    FlagsStay ppu ppu.updateScroll := by
  have hMoved (change : ScrollAddress → ScrollAddress) :
      FlagsStay ppu (ppu.changeAddress change) :=
    .of_status rfl
  unfold updateScroll
  dsimp only
  split_ifs
  · exact .of_status rfl
  · exact hMoved _
  · exact (hMoved _).trans (evaluateSprites_flagsStay _)
  · exact hMoved _
  · exact .of_status rfl
  · exact .of_status rfl

theorem atOutput_flagsStay (ppu : Ppu) :
    FlagsStay ppu ppu.atOutput := by
  unfold atOutput fetch
  dsimp only
  split_ifs
  · exact (fetchBackground_flagsStay ppu).trans
      (updateScroll_flagsStay _)
  · exact updateScroll_flagsStay ppu
  · exact .of_status rfl

/- A hit raises the other one. -/
theorem output_flagsStay (ppu : Ppu) :
    FlagsStay ppu ppu.output.2 := by
  unfold output outputPixel
  dsimp only
  split_ifs
  · exact ⟨fun _ => rfl, id⟩
  · exact .of_status rfl
  · exact .of_status rfl
  · exact .of_status rfl

theorem drawn_flagsStay (ppu : Ppu) :
    FlagsStay ppu ppu.drawn := by
  have hOutput : FlagsStay ppu ppu.atOutput.output.2 :=
    (atOutput_flagsStay ppu).trans (output_flagsStay _)
  have hShift (shown : Ppu) : FlagsStay shown shown.shift := by
    unfold shift
    split <;> exact .of_status rfl
  unfold drawn
  split
  · exact hOutput.trans (hShift _)
  · exact hOutput

/- Only the dot that ends all flags clears them. -/
theorem tick_flagsStay
    (hElsewhere : ¬ppu.AtStatusEnd) :
    FlagsStay ppu ppu.tick.2 := by
  have hNotEnd : ¬ppu.drawn.AtStatusEnd := by
    unfold AtStatusEnd
    rw [drawn_raster, (drawn_keeps ppu).timing]
    exact hElsewhere
  have hFlags : FlagsStay ppu.drawn ppu.drawn.updateFlags := by
    unfold updateFlags
    split_ifs with hDot hBlank hLine
    · exact ⟨id, id⟩
    · exact absurd ⟨isPrerenderLine_iff.mp hLine, hDot⟩ hNotEnd
    · exact .of_status rfl
    · exact .of_status rfl
  rw [tick_snd]
  exact ((drawn_flagsStay ppu).trans hFlags).trans
    (.of_status rfl)

------------------------------------------------------------
-- Idle Dots
------------------------------------------------------------

/- Nothing is shown, or the line has nothing to fetch. -/
def OnIdleDot (ppu : Ppu) : Prop :=
  ppu.registers.mask.rendering = false ∨
    (Hardware.visibleScanlines ≤ ppu.raster.scanline ∧
      ppu.raster.scanline ≠ ppu.timing.prerenderScanline)

theorem isRendering_eq_false_iff :
    ppu.isRendering = false ↔ ppu.OnIdleDot := by
  unfold isRendering OnIdleDot
  rw [Bool.and_eq_false_iff, Bool.or_eq_false_iff,
    ← Bool.not_eq_true, ← Bool.not_eq_true,
    isVisibleLine_iff, isPrerenderLine_iff, not_lt]
  exact or_comm

/- Such a dot leaves what is fetched for the picture alone. -/
theorem tick_of_onIdleDot
    (hIdle : ppu.OnIdleDot) :
    ppu.tick.2.scroll = ppu.scroll ∧
      ppu.tick.2.pipeline = ppu.pipeline := by
  have hRendering := isRendering_eq_false_iff.mpr hIdle
  have hOutput : ppu.atOutput = ppu := by
    unfold atOutput
    rw [hRendering, if_neg Bool.false_ne_true]
  rw [tick_scroll, tick_pipeline, hOutput, hRendering,
    Bool.false_and, if_neg Bool.false_ne_true]
  exact ⟨rfl, rfl⟩

------------------------------------------------------------
-- Accesses
------------------------------------------------------------

/-
  The accesses that can change the address: those to the data
  port, and writes to the address port.
-/
def Event.movesAddress : Event → Bool
  | read address => PpuRegister.ofAddress address == .data
  | write address _ =>
      PpuRegister.ofAddress address == .address ||
        PpuRegister.ofAddress address == .data
  | _ => false

/- All other accesses leave it alone. -/
theorem current_handle
    {event : Event}
    (hDot : event = .dot → ppu.OnIdleDot)
    (hReset : event ≠ .reset)
    (hMoves : event.movesAddress = false) :
    (ppu.handle event).scroll.current =
      ppu.scroll.current := by
  cases event with
  | dot => exact congrArg _ (tick_of_onIdleDot (hDot rfl)).1
  | reset => exact absurd rfl hReset
  | read address =>
      have hData :
          PpuRegister.ofAddress address ≠ .data :=
        beq_eq_false_iff_ne.mp hMoves
      show (ppu.read address).2.scroll.current = _
      rw [read_scroll]
      split
      · rfl
      next hPort => exact absurd hPort hData
      · rfl
  | write address value =>
      rcases Bool.or_eq_false_iff.mp hMoves with
        ⟨hAddress, hData⟩
      show (ppu.write address value).scroll.current = _
      rw [write_scroll]
      split
      · rfl
      · unfold Scroll.writeScroll
        cases ppu.scroll.latch <;> rfl
      next hPort =>
        exact absurd hPort (beq_eq_false_iff_ne.mp hAddress)
      next hPort =>
        exact absurd hPort (beq_eq_false_iff_ne.mp hData)
      · rfl
  | writeOam value => rfl
  | acceptNmi => rfl
  | acceptFrame => rfl

------------------------------------------------------------
-- Runs
------------------------------------------------------------

/- A run all of whose dots are idle. -/
def IdleRun
    (start : Ppu)
    (events : List Event) : Prop :=
  ∀ before later, events = before ++ .dot :: later →
    (start.after before).OnIdleDot

theorem IdleRun.of_concat
    {events : List Event}
    {event : Event}
    (hIdle : IdleRun start (events ++ [event])) :
    IdleRun start events ∧
      (event = .dot → (start.after events).OnIdleDot) := by
  constructor
  · intro before later hEvents
    apply hIdle before (later ++ [event])
    rw [hEvents, List.append_assoc, List.cons_append]
  · rintro rfl
    exact hIdle events [] rfl

/- What such a run keeps, from what its events keep. -/
theorem IdleRun.induction
    {motive : Ppu → Prop}
    {events : List Event}
    (hIdle : IdleRun start events)
    (hEvents : .reset ∉ events)
    (hStart : motive start)
    (hHandle : ∀ ppu, ∀ event ∈ events,
      (event = .dot → ppu.OnIdleDot) →
      event ≠ .reset →
      motive ppu →
      motive (ppu.handle event)) :
    motive (start.after events) := by
  induction events using List.reverseRecOn with
  | nil => exact hStart
  | append_singleton events event ih =>
      rcases hIdle.of_concat with ⟨hBefore, hDot⟩
      rw [List.mem_append, List.mem_singleton, not_or] at hEvents
      rw [after_append]
      refine hHandle _ event List.mem_concat_self hDot
        (Ne.symm hEvents.2) (ih hBefore hEvents.1 ?_)
      intro ppu earlier hMember
      exact hHandle ppu earlier (List.mem_append_left _ hMember)

/- Without dots that fetch, the pipeline stays as it is. -/
theorem IdleRun.pipeline_after
    {events : List Event}
    (hIdle : IdleRun start events)
    (hEvents : .reset ∉ events) :
    (start.after events).pipeline = start.pipeline := by
  refine hIdle.induction hEvents
    (motive := fun ppu => ppu.pipeline = start.pipeline) rfl ?_
  intro ppu event _ hDot hReset hSame
  rw [← hSame]
  by_cases hEvent : event = .dot
  · subst hEvent
    exact (tick_of_onIdleDot (hDot rfl)).2
  · exact handle_pipeline hEvent hReset

/- And without accesses that move it, so does the address. -/
theorem IdleRun.current_after
    {events : List Event}
    (hIdle : IdleRun start events)
    (hEvents : .reset ∉ events)
    (hMoves : ∀ event ∈ events, event.movesAddress = false) :
    (start.after events).scroll.current =
      start.scroll.current := by
  refine hIdle.induction hEvents
    (motive := fun ppu =>
      ppu.scroll.current = start.scroll.current) rfl ?_
  intro ppu event hMember hDot hReset hSame
  rw [← hSame]
  exact current_handle hDot hReset (hMoves event hMember)

theorem flagsStay_afterDots
    (start : Ppu)
    (dots : Nat)
    (hElsewhere : ∀ dot < dots,
      ¬(start.afterDots dot).AtStatusEnd) :
    FlagsStay start (start.afterDots dots) := by
  induction dots with
  | zero => exact .of_status rfl
  | succ dots ih =>
      rw [afterDots_succ_right]
      have hBefore := ih fun dot hDot =>
        hElsewhere dot (Nat.lt_succ_of_lt hDot)
      exact hBefore.trans
        (tick_flagsStay (hElsewhere dots (Nat.lt_succ_self dots)))

theorem idle_afterDots
    (start : Ppu)
    (dots : Nat)
    (hIdle : ∀ dot < dots, (start.afterDots dot).OnIdleDot) :
    (start.afterDots dots).scroll = start.scroll ∧
      (start.afterDots dots).pipeline = start.pipeline := by
  induction dots with
  | zero => exact ⟨rfl, rfl⟩
  | succ dots ih =>
      rw [afterDots_succ_right]
      rcases ih fun dot hDot =>
        hIdle dot (Nat.lt_succ_of_lt hDot) with
        ⟨hScroll, hPipeline⟩
      rcases tick_of_onIdleDot
          (hIdle dots (Nat.lt_succ_self dots)) with
        ⟨hSame, hKept⟩
      exact ⟨hSame.trans hScroll, hKept.trans hPipeline⟩

/-
  Dots never change the memories, the scroll registers that
  the processor writes, its other registers, the buffer or
  the bus.  The two flags about sprites only go up, except on
  the dot of the pre-render line that ends all flags.  Where
  nothing is shown, and on lines without fetches, dots also
  leave the address, the latched tile, the shift registers
  and the sprite units alone.  So over any run whose dots are
  of this kind, the units stay and the address only changes
  by an access to the data port or the address port.
-/
theorem dots_leave_the_rest
    (start : Ppu)
    (dots : Nat) :
    let last := start.afterDots dots
    Keeps start last ∧
    ((∀ dot < dots, ¬(start.afterDots dot).AtStatusEnd) →
      FlagsStay start last) ∧
    ((∀ dot < dots, (start.afterDots dot).OnIdleDot) →
      last.scroll = start.scroll ∧
        last.pipeline = start.pipeline) ∧
    ∀ events, IdleRun start events → .reset ∉ events →
      (start.after events).pipeline = start.pipeline ∧
        ((start.after events).scroll.current ≠
            start.scroll.current →
          ∃ event ∈ events, event.movesAddress = true) := by
  intro last
  refine ⟨after_keeps (allQuiet_dots dots),
    flagsStay_afterDots start dots, idle_afterDots start dots,
    ?_⟩
  intro events hIdle hEvents
  refine ⟨hIdle.pipeline_after hEvents, fun hChanged => ?_⟩
  by_contra hNone
  apply hChanged
  apply hIdle.current_after hEvents
  intro event hMember
  rw [← Bool.not_eq_true]
  exact fun hMoves => hNone ⟨event, hMember, hMoves⟩

end Ppu

end Famicom
