import Famicom.Proofs.Console.Metered
import Famicom.Proofs.Video.FrameProgress

/-
  Running for a frame ends.

  Every step lets some dots pass, and every dot comes closer
  to the end of a frame.  The number of steps that a frame is
  given is therefore never used up, and the loop does the
  same as one without any bound.

  Key definitions include:
    * `Console.Running`
    * `Console.RunsToFrame`
    * `Console.Visited`

  Main declarations:
    * `Console.Running.step_ok`
    * `Console.stepUntilFrame_runs`
    * `Console.Visited.running`
-/

namespace Famicom

------------------------------------------------------------
-- Dots
------------------------------------------------------------

namespace Scan

variable {σ : Type} [PixelSink σ]
variable {scan : Scan σ}

theorem tick_onFrame
    (hFrame : scan.ppu.OnFrame) :
    scan.tick.ppu.OnFrame := by
  rw [tick_ppu]
  exact hFrame.tick.congr rfl rfl

theorem run_onFrame
    (count : Nat)
    (hFrame : scan.ppu.OnFrame) :
    (run count scan).ppu.OnFrame := by
  induction count generalizing scan with
  | zero => exact hFrame
  | succ count ih => exact ih (tick_onFrame hFrame)

/- A completed frame stays completed. -/
theorem run_frameReady
    (count : Nat)
    (hFrame : scan.ppu.OnFrame)
    (hReady : scan.ppu.frameReady = true) :
    (run count scan).ppu.frameReady = true := by
  induction count generalizing scan with
  | zero => exact hReady
  | succ count ih =>
      refine ih (tick_onFrame hFrame) ?_
      rw [tick_ppu]
      refine (Ppu.tick_frameReady hFrame.timing).trans ?_
      rw [hReady, Bool.true_or]

/- A number of dots comes as much closer to a frame. -/
theorem run_dotsToBlank
    (count : Nat)
    (hFrame : scan.ppu.OnFrame) :
    (run count scan).ppu.frameReady = true ∨
      (run count scan).ppu.dotsToBlank + count ≤
        scan.ppu.dotsToBlank := by
  induction count generalizing scan with
  | zero => exact .inr (Nat.le_refl _)
  | succ count ih =>
      have hNext := tick_onFrame hFrame
      have hTick : scan.tick.ppu.frameReady = true ∨
          scan.tick.ppu.dotsToBlank <
            scan.ppu.dotsToBlank := by
        rw [tick_ppu]
        exact Ppu.tick_dotsToBlank hFrame.timing hFrame.raster
      rcases hTick with hReady | hCloser
      · exact .inl (run_frameReady count hNext hReady)
      · refine (ih hNext).imp_right fun hRest => ?_
        show (run count scan.tick).ppu.dotsToBlank +
          (count + 1) ≤ scan.ppu.dotsToBlank
        omega

end Scan

namespace Console

------------------------------------------------------------
-- Running Consoles
------------------------------------------------------------

/-
  What is left of a console that has been built as every
  console is, whatever a host does to it.
-/
structure Running
    (standard : VideoStandard)
    (console : Console) : Prop where
  table : console.cpu.table.WellTimed
  timing : console.board.ppu.timing = standard.timing
  remainder :
    console.remainder < standard.timing.dotsPerCycle.cycles
  frame : console.board.ppu.OnFrame

variable {standard : VideoStandard} {console : Console}

/- What a change that is out of the clock's sight keeps. -/
theorem Running.congr
    {next : Console}
    (hRunning : Running standard console)
    (hTable : next.cpu.table = console.cpu.table)
    (hRemainder : next.remainder = console.remainder)
    (hKeeps :
      Ppu.KeepsFrame console.board.ppu next.board.ppu) :
    Running standard next where
  table := hTable.symm ▸ hRunning.table
  timing := hKeeps.timing.trans hRunning.timing
  remainder := hRemainder.symm ▸ hRunning.remainder
  frame := hRunning.frame.congr hKeeps.timing hKeeps.raster

theorem execute_keepsFrame (console : Console) :
    Ppu.KeepsFrame console.board.ppu
      console.execute.2.board.ppu :=
  execute_stable (Ppu.keepsFrame_stable _) ⟨rfl, rfl, rfl⟩

/- The table stays, and the cycles are in bounds. -/
theorem execute_spec
    {result : Except MachineFault Nat}
    {executed : Console}
    (hExecute : console.execute = (result, executed)) :
    executed.cpu.table = console.cpu.table ∧
      (console.cpu.table.WellTimed →
        ∀ cycles, result = .ok cycles →
          2 ≤ cycles ∧ cycles ≤ 524) := by
  have hFollows :=
    (console.cpu.step_within console.lines).result
      console.board
  unfold execute at hExecute
  generalize
    console.cpu.step console.lines console.board = stepped
    at hExecute hFollows
  rcases stepped with ⟨outcome, board⟩
  cases outcome with
  | error fault =>
      cases hExecute
      exact ⟨rfl, nofun⟩
  | ok done =>
      cases hExecute
      have hDone := hFollows done rfl
      refine ⟨hDone.table, ?_⟩
      intro hTable cycles hCycles
      cases hCycles
      have hHalted := board.transferOam_cycles_le
        (console.cycles + done.cycles)
      rcases hDone.cycles hTable with ⟨hFew, hMany⟩
      exact ⟨hFew.trans (Nat.le_add_right _ _),
        Nat.add_le_add hMany hHalted⟩

section Steps

variable {σ : Type} [PixelSink σ]

theorem Running.clock
    (hRunning : Running standard console)
    (cycles : Nat)
    (sink : σ) :
    Running standard (console.clock cycles sink).1 := by
  have hRatio :
      console.ratio = standard.timing.dotsPerCycle :=
    congrArg FrameTiming.dotsPerCycle hRunning.timing
  rw [clock_eq]
  exact
    { table := hRunning.table
      timing := (Scan.run_timing _ _).trans hRunning.timing
      remainder := by
        rw [hRatio]
        exact Nat.mod_lt _
          (Nat.zero_lt_of_lt hRunning.remainder)
      frame := Scan.run_onFrame _ hRunning.frame }

/-
  What a successful step does: accesses, then some dots of
  the unit and the taker of its pixels.
-/
theorem Running.step_ok
    {next : Console}
    {sink sink' : σ}
    {cycles : Nat}
    (hRunning : Running standard console)
    (hStep : console.step sink = (.ok cycles, next, sink')) :
    Running standard next ∧
      ∃ (scan : Scan σ) (dots : Nat),
        Ppu.KeepsFrame console.board.ppu scan.ppu ∧
        scan.sink = sink ∧
        0 < dots ∧ dots ≤ stepDots ∧
        next.board.ppu = (Scan.run dots scan).ppu ∧
        sink' = (Scan.run dots scan).sink := by
  rw [step_eq] at hStep
  cases hExecute : console.execute with
  | mk result executed =>
      have hKeeps := console.execute_keepsFrame
      have hRest := console.execute_remainder
      rcases execute_spec hExecute with ⟨hTable, hCycles⟩
      rw [hExecute] at hStep hKeeps hRest
      have hExecuted := hRunning.congr hTable hRest hKeeps
      have hRatio :
          executed.ratio = standard.timing.dotsPerCycle :=
        congrArg FrameTiming.dotsPerCycle hExecuted.timing
      cases result with
      | error fault => cases hStep
      | ok cycles =>
          rcases hCycles hRunning.table cycles rfl with
            ⟨hFew, hMany⟩
          have hDots := standard.dots_of_step
            hExecuted.remainder hFew hMany
          rw [← hRatio] at hDots
          have hClocked := hExecuted.clock cycles sink
          dsimp only at hStep
          rw [clock_eq] at hStep hClocked
          cases hStep
          exact ⟨hClocked, executed.scan sink,
            executed.owed cycles / executed.ratio.cycles,
            hKeeps, rfl, hDots.1, hDots.2, rfl, rfl⟩

/- A step that fails lets no dots pass. -/
theorem Running.step_error
    {next : Console}
    {sink sink' : σ}
    {fault : MachineFault}
    (hRunning : Running standard console)
    (hStep :
      console.step sink = (.error fault, next, sink')) :
    Running standard next := by
  rw [step_eq] at hStep
  cases hExecute : console.execute with
  | mk result executed =>
      have hKeeps := console.execute_keepsFrame
      have hRest := console.execute_remainder
      rcases execute_spec hExecute with ⟨hTable, -⟩
      rw [hExecute] at hStep hKeeps hRest
      cases result with
      | ok cycles => cases hStep
      | error fault =>
          cases hStep
          exact hRunning.congr hTable hRest hKeeps

/- A step completes a frame or comes closer to it. -/
theorem Running.step_closer
    {next : Console}
    {sink sink' : σ}
    {cycles : Nat}
    (hRunning : Running standard console)
    (hStep : console.step sink = (.ok cycles, next, sink')) :
    next.frameReady = true ∨
      next.board.ppu.dotsToBlank <
        console.board.ppu.dotsToBlank := by
  rcases hRunning.step_ok hStep with
    ⟨-, scan, dots, hKeeps, -, hSome, -, hPpu, -⟩
  have hFrame : scan.ppu.OnFrame :=
    hRunning.frame.congr hKeeps.timing hKeeps.raster
  have hSame : scan.ppu.dotsToBlank =
      console.board.ppu.dotsToBlank := by
    unfold Ppu.dotsToBlank
    rw [hKeeps.timing, hKeeps.raster]
  unfold frameReady
  rw [hPpu]
  refine (Scan.run_dotsToBlank dots hFrame).imp_right ?_
  omega

------------------------------------------------------------
-- The Loop
------------------------------------------------------------

/-
  Stepping until a frame is completed or a step fails, for as
  long as it takes.  A console that steps forever has no
  result.
-/
inductive RunsToFrame :
    Console → σ → Except MachineFault Unit × Console × σ → Prop
  | fault
      {console next : Console} {sink sink' : σ}
      {fault : MachineFault}
      (hStep :
        console.step sink = (.error fault, next, sink')) :
      RunsToFrame console sink (.error fault, next, sink')
  | ready
      {console next : Console} {sink sink' : σ} {cycles : Nat}
      (hStep : console.step sink = (.ok cycles, next, sink'))
      (hReady : next.frameReady = true) :
      RunsToFrame console sink (.ok (), next.acceptFrame, sink')
  | more
      {console next : Console} {sink sink' : σ} {cycles : Nat}
      {result : Except MachineFault Unit × Console × σ}
      (hStep : console.step sink = (.ok cycles, next, sink'))
      (hReady : next.frameReady = false)
      (hRest : RunsToFrame next sink' result) :
      RunsToFrame console sink result

/- The loop with a bound does the same if the bound is kept. -/
theorem stepUntilFrame_runs
    (steps : Nat)
    (hRunning : Running standard console)
    (hSteps : console.board.ppu.dotsToBlank ≤ steps)
    (sink : σ) :
    RunsToFrame console sink
      (console.stepUntilFrame steps sink) := by
  induction steps generalizing console sink with
  | zero =>
      have hSome := Ppu.dotsToBlank_bounds
        hRunning.frame.timing hRunning.frame.raster
      omega
  | succ steps ih =>
      unfold stepUntilFrame
      cases hStep : console.step sink with
      | mk result after =>
          rcases after with ⟨next, sink'⟩
          cases result with
          | error fault => exact .fault hStep
          | ok cycles =>
              dsimp only
              by_cases hReady : next.frameReady = true
              · rw [if_pos hReady]
                exact .ready hStep hReady
              · rw [if_neg hReady]
                refine .more hStep
                  (Bool.eq_false_iff.mpr hReady) ?_
                have hCloser :=
                  (hRunning.step_closer hStep).resolve_left
                    hReady
                exact ih (hRunning.step_ok hStep).1
                  (by omega) sink'

/- A frame has more dots than are ever left of one. -/
theorem Running.stepUntilFrame
    (hRunning : Running standard console)
    (sink : σ) :
    RunsToFrame console sink
      (console.stepUntilFrame console.frameSteps sink) :=
  stepUntilFrame_runs _ hRunning
    (Ppu.dotsToBlank_bounds hRunning.frame.timing
      hRunning.frame.raster).2 sink

theorem Running.acceptFrame
    (hRunning : Running standard console) :
    Running standard console.acceptFrame where
  table := hRunning.table
  timing := hRunning.timing
  remainder := hRunning.remainder
  frame := hRunning.frame.congr rfl rfl

theorem RunsToFrame.running
    {sink : σ}
    {result : Except MachineFault Unit × Console × σ}
    (hRuns : RunsToFrame console sink result)
    (hRunning : Running standard console) :
    Running standard result.2.1 := by
  induction hRuns with
  | fault hStep => exact hRunning.step_error hStep
  | ready hStep _ =>
      exact (hRunning.step_ok hStep).1.acceptFrame
  | more hStep _ _ ih => exact ih (hRunning.step_ok hStep).1

/- Running for a frame also measures the time. -/
theorem runFrame_eq
    (console : Console)
    (sink : σ) :
    console.runFrame sink =
      let ran := console.stepUntilFrame console.frameSteps sink
      (ran.1.map fun _ => ran.2.1.cycles - console.cycles,
        ran.2) := by
  unfold runFrame
  dsimp only
  generalize
    console.stepUntilFrame console.frameSteps sink = ran
  rcases ran with ⟨result, after⟩
  cases result <;> rfl

------------------------------------------------------------
-- Resets and Accesses
------------------------------------------------------------

/- A reset puts the unit at the start of a frame. -/
theorem running_restart
    (hTable : console.cpu.table.WellTimed)
    (hTiming : console.board.ppu.timing = standard.timing) :
    Running standard console.restart ∧
      Ppu.KeepsFrame console.board.ppu.reset
        console.restart.board.ppu := by
  have hKeeps : Ppu.KeepsFrame console.board.ppu.reset
      console.restart.board.ppu :=
    restart_stable (Ppu.keepsFrame_stable _) ⟨rfl, rfl, rfl⟩
  have hStandard : console.board.ppu.reset.timing.Standard :=
    hTiming.symm ▸ standard.standard
  have hFrame : console.board.ppu.reset.OnFrame :=
    { timing := hStandard
      raster :=
        ⟨Nat.zero_lt_of_lt hStandard.last.le, Nat.zero_le _⟩ }
  refine ⟨?_, hKeeps⟩
  exact
    { table := hTable
      timing := hKeeps.timing.trans hTiming
      remainder := standard.cycles_pos
      frame := hFrame.congr hKeeps.timing hKeeps.raster }

theorem running_reset
    (hTable : console.cpu.table.WellTimed)
    (hTiming : console.board.ppu.timing = standard.timing) :
    Running standard console.reset := by
  rw [reset_eq]
  exact (running_restart hTable hTiming).1.clock _ ()

theorem Running.afterAccess
    (hRunning : Running standard console)
    (access : HostAccess) :
    Running standard (console.afterAccess access) := by
  have hKeeps :=
    afterAccess_stable (Ppu.keepsFrame_stable _) access
      (⟨rfl, rfl, rfl⟩ : Ppu.KeepsFrame console.board.ppu _)
  have hTable : (console.afterAccess access).cpu.table =
      console.cpu.table := by
    cases access <;> rfl
  exact hRunning.congr hTable
    (console.afterAccess_clock access).2 hKeeps

end Steps

/-
  Consoles that a host can get to by any calls, each with any
  taker of pixels, whatever their outcome.
-/
inductive Visited (start : Console) : Console → Prop
  | start : Visited start start
  | call
      {σ : Type} [PixelSink σ]
      {console : Console}
      (hVisited : Visited start console)
      (sink : σ)
      (call : Call) :
      Visited start (perform (console, sink) call).1

/- Accesses of a host lead on to others of them. -/
theorem Visited.accesses
    {start : Console}
    (hVisited : Visited start console)
    (accesses : List HostAccess) :
    Visited start (accesses.foldl afterAccess console) := by
  induction accesses generalizing console with
  | nil => exact hVisited
  | cons access accesses ih =>
      exact ih (.call hVisited () (.access access))

/- All of them can be run for a frame. -/
theorem Visited.running
    {start : Console}
    (hVisited : Visited start console)
    (hStart : Running standard start) :
    Running standard console := by
  induction hVisited with
  | start => exact hStart
  | @call σ _ console _ sink call ih =>
      cases call with
      | step =>
          show Running standard (console.step sink).2.1
          cases hStep : console.step sink with
          | mk result after =>
              cases result with
              | error fault => exact ih.step_error hStep
              | ok cycles => exact (ih.step_ok hStep).1
      | runFrame =>
          show Running standard (console.runFrame sink).2.1
          rw [runFrame_eq]
          exact (ih.stepUntilFrame sink).running ih
      | reset => exact running_reset ih.table ih.timing
      | access access => exact ih.afterAccess access

/- A console can be run for frames when it is switched on. -/
theorem running_powerOn
    {image : CartridgeImage}
    {settings : Settings}
    {start : Console}
    (hOn : powerOn image settings = .ok start) :
    Running settings.standard start := by
  rcases assembled_of_powerOn hOn with
    ⟨fresh, hAssembled, rfl⟩
  have hFresh := fresh_assembled hAssembled
  exact running_reset
    (OpcodeTable.wellTimed_atFidelity hFresh.table)
    hFresh.timing

end Console

end Famicom
