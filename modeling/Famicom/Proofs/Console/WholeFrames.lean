import Famicom.Proofs.Console.Waiting

/-
  Frames come whole.

  A frame is taken a few dots into vertical blank, and the
  next call goes on from there.  No step is long enough to
  get from the start of vertical blank to the next picture,
  so each call hands over the pixels of one frame.

  Key definitions include:
    * `PixelSink.putAll`
    * `Scan.outputs`
    * `Console.Frames`
    * `Console.pixelsOfReset`

  Main declarations:
    * `Scan.run_progress`
    * `Console.RunsToFrame.delivers`
    * `Console.frames_whole`
-/

namespace Famicom

------------------------------------------------------------
-- Pixels of Dots
------------------------------------------------------------

/- Hand over pixels one by one. -/
def PixelSink.putAll
    {σ : Type}
    [PixelSink σ]
    (pixels : List Pixel)
    (sink : σ) : σ :=
  pixels.foldl (fun sink pixel => put pixel sink) sink

theorem PixelSink.putAll_append
    {σ : Type}
    [PixelSink σ]
    (first second : List Pixel)
    (sink : σ) :
    putAll (first ++ second) sink =
      putAll second (putAll first sink) :=
  List.foldl_append

namespace Scan

variable {σ : Type} [PixelSink σ]

/- The pixels that a number of dots outputs. -/
def outputs : Nat → Ppu → List Pixel
  | 0, _ => []
  | count + 1, ppu =>
      ppu.tick.1.toList ++ outputs count ppu.tick.2.acceptNmi

theorem tick_sink (scan : Scan σ) :
    scan.tick.sink =
      PixelSink.putAll scan.ppu.tick.1.toList scan.sink := by
  rcases scan with ⟨ppu, lines, sink⟩
  have hDraw : (ppu.draw sink).2 =
      PixelSink.putAll ppu.tick.1.toList sink := by
    unfold Ppu.draw
    split <;> rename_i hTick <;> rw [hTick] <;> rfl
  unfold tick
  dsimp only
  rw [← hDraw]
  split <;> rfl

/- The pixels of the dots go to the taker, in order. -/
theorem run_sink
    (count : Nat)
    (scan : Scan σ) :
    (run count scan).sink =
      PixelSink.putAll (outputs count scan.ppu) scan.sink := by
  induction count generalizing scan with
  | zero => rfl
  | succ count ih =>
      have hRest := ih scan.tick
      rw [tick_ppu, tick_sink, ← PixelSink.putAll_append]
        at hRest
      exact hRest

/- A number of dots brings a frame that much further. -/
theorem run_progress
    (count : Nat)
    {scan : Scan σ}
    {first dots : Nat}
    {places : List (Nat × Nat)}
    (hFrame : scan.ppu.OnFrame)
    (hRoom :
      Ppu.dotsBeforeBlank + (dots + count) ≤
        scan.ppu.timing.prerenderScanline *
          Hardware.dotsPerScanline)
    (hProgress : Ppu.Progress first dots scan.ppu places) :
    Ppu.Progress first (dots + count) (run count scan).ppu
      (places ++
        (outputs count scan.ppu).map Pixel.place) := by
  induction count generalizing scan dots places with
  | zero =>
      rw [outputs, List.map_nil, List.append_nil]
      exact hProgress
  | succ count ih =>
      have hTick := hProgress.tick hFrame.timing hFrame.raster
        (by omega)
      have hNext : Ppu.Progress first (dots + 1) scan.tick.ppu
          (places ++
            (scan.ppu.tick.1.map Pixel.place).toList) := by
        rw [tick_ppu]
        exact hTick.congr rfl rfl
      have hRoom' :
          Ppu.dotsBeforeBlank + (dots + 1 + count) ≤
            scan.tick.ppu.timing.prerenderScanline *
              Hardware.dotsPerScanline := by
        rw [tick_timing]
        omega
      have hRest := ih (tick_onFrame hFrame) hRoom' hNext
      rw [List.append_assoc, Option.toList_map,
        ← List.map_append, tick_ppu, Nat.add_assoc,
        Nat.add_comm 1] at hRest
      exact hRest

end Scan

/- A step in vertical blank ends before the pre-render line. -/
theorem VideoStandard.blank_add_stepDots
    (standard : VideoStandard) :
    Ppu.dotsBeforeBlank + stepDots ≤
      standard.timing.prerenderScanline *
        Hardware.dotsPerScanline := by
  cases standard <;> decide

namespace Console

variable {standard : VideoStandard}

------------------------------------------------------------
-- Frames
------------------------------------------------------------

section Frames

variable {σ : Type} [PixelSink σ]
variable {console : Console}
variable {first : Nat} {places : List (Nat × Nat)}

/- A step brings the frame further, and not into the next. -/
theorem Running.step_progress
    {next : Console}
    {sink sink' : σ}
    {cycles : Nat}
    (hRunning : Running standard console)
    (hProgress :
      Ppu.Progress first 0 console.board.ppu places)
    (hStep : console.step sink = (.ok cycles, next, sink')) :
    ∃ pixels : List Pixel,
      sink' = PixelSink.putAll pixels sink ∧
      Ppu.Progress first stepDots next.board.ppu
        (places ++ pixels.map Pixel.place) := by
  rcases hRunning.step_ok hStep with
    ⟨-, scan, dots, hKeeps, hSink, -, hMany, hPpu, hSink'⟩
  have hFrame : scan.ppu.OnFrame :=
    hRunning.frame.congr hKeeps.timing hKeeps.raster
  have hRoom :
      Ppu.dotsBeforeBlank + (0 + dots) ≤
        scan.ppu.timing.prerenderScanline *
          Hardware.dotsPerScanline := by
    rw [hKeeps.timing, hRunning.timing]
    have hStandard := standard.blank_add_stepDots
    omega
  have hHere := hProgress.congr hKeeps.raster hKeeps.frameReady
  have hAfter := Scan.run_progress dots hFrame hRoom hHere
  refine ⟨Scan.outputs dots scan.ppu, ?_, ?_⟩
  · rw [hSink', Scan.run_sink, hSink]
  · rw [hPpu]
    exact hAfter.mono (by omega)

/-
  The pixels of a call, from where the frame has got to.  The
  next call starts behind the picture.
-/
theorem RunsToFrame.delivers
    {sink : σ}
    {result : Except MachineFault Unit × Console × σ}
    (hRuns : RunsToFrame console sink result)
    (hRunning : Running standard console)
    (hProgress :
      Ppu.Progress first 0 console.board.ppu places)
    (hOk : result.1 = .ok ()) :
    ∃ pixels : List Pixel,
      result.2.2 = PixelSink.putAll pixels sink ∧
      places ++ pixels.map Pixel.place =
        placesBetween first (256 * 240) ∧
      Ppu.Progress 0 0 result.2.1.board.ppu [] := by
  induction hRuns generalizing places with
  | fault hStep => cases hOk
  | ready hStep hReady =>
      rcases hRunning.step_progress hProgress hStep with
        ⟨pixels, hSink, hNext⟩
      refine ⟨pixels, hSink, ?_⟩
      cases hNext with
      | blank _ _ hLow _ =>
          cases hReady.symm.trans hLow
      | picture _ hLow _ _ =>
          cases hReady.symm.trans hLow
      | complete hBehind _ _ hPlaces =>
          exact ⟨hPlaces, .blank rfl hBehind rfl rfl⟩
  | more hStep hReady hRest ih =>
      rcases hRunning.step_progress hProgress hStep with
        ⟨before, hBefore, hNext⟩
      rcases ih (hRunning.step_ok hStep).1
        (hNext.restart hReady) hOk with
        ⟨pixels, hSink, hPlaces, hAfter⟩
      refine ⟨before ++ pixels, ?_, ?_, hAfter⟩
      · rw [hSink, hBefore, PixelSink.putAll_append]
      · rw [List.map_append, ← List.append_assoc]
        exact hPlaces

/-
  Consoles between frames, and how many frames have been run
  for.  Every call has succeeded, with any taker of pixels.
-/
inductive Frames (start : Console) : Nat → Console → Prop
  | start : Frames start 0 start
  | next
      {σ : Type} [PixelSink σ]
      {count cycles : Nat} {console next : Console}
      {sink sink' : σ}
      (hFrames : Frames start count console)
      (hRun :
        console.runFrame sink = (.ok cycles, next, sink')) :
      Frames start (count + 1) next

/- A call that succeeds hands over what is left of a frame. -/
theorem Running.runFrame_ok
    {next : Console}
    {sink sink' : σ}
    {cycles : Nat}
    (hRunning : Running standard console)
    (hProgress : Ppu.Progress first 0 console.board.ppu [])
    (hRun :
      console.runFrame sink = (.ok cycles, next, sink')) :
    (Running standard next ∧
      Ppu.Progress 0 0 next.board.ppu []) ∧
    ∃ pixels : List Pixel,
      sink' = PixelSink.putAll pixels sink ∧
      pixels.map Pixel.place = rasterOrder.drop first := by
  have hRuns := hRunning.stepUntilFrame sink
  have hAfter := hRuns.running hRunning
  rw [runFrame_eq] at hRun
  dsimp only at hRun
  generalize
    console.stepUntilFrame console.frameSteps sink = ran
    at hRuns hAfter hRun
  rcases ran with ⟨result, after⟩
  cases result with
  | error fault => cases hRun
  | ok done =>
      cases hRun
      rcases hRuns.delivers hRunning hProgress rfl with
        ⟨pixels, hSink, hPlaces, hNext⟩
      rw [List.nil_append, ← rasterOrder_drop] at hPlaces
      exact ⟨⟨hAfter, hNext⟩, pixels, hSink, hPlaces⟩

end Frames

------------------------------------------------------------
-- The First Frame
------------------------------------------------------------

/- The pixels that pass during the cycles of a reset. -/
def pixelsOfReset : VideoStandard → Nat
  | .ntsc => 20
  | .pal => 21

/- Dots within a line move along it. -/
theorem run_raster_of_lt
    {σ : Type}
    [PixelSink σ]
    {line dot frame : Nat}
    (count : Nat)
    {scan : Scan σ}
    (hRaster : scan.ppu.raster = ⟨line, dot, frame⟩)
    (hDots : dot + count < Hardware.lastDot) :
    (Scan.run count scan).ppu.raster =
      ⟨line, dot + count, frame⟩ := by
  induction count generalizing scan dot with
  | zero => exact hRaster
  | succ count ih =>
      have hTick : scan.tick.ppu.raster =
          ⟨line, dot + 1, frame⟩ := by
        have hBefore :
            scan.ppu.raster.dot + 1 < Hardware.lastDot := by
          rw [hRaster]
          dsimp only
          omega
        rw [Scan.tick_ppu]
        refine (Ppu.tick_raster_of_lt hBefore).trans ?_
        rw [hRaster]
      have hRest := ih hTick (by omega)
      rw [Nat.add_assoc, Nat.add_comm 1] at hRest
      exact hRest

/- The clock of a reset lets one dot without a pixel pass. -/
theorem dots_of_reset
    {console : Console}
    (hRatio : console.ratio = standard.timing.dotsPerCycle)
    (hNone : console.remainder = 0) :
    console.owed Hardware.resetCycles / console.ratio.cycles =
      pixelsOfReset standard + 1 := by
  unfold owed
  rw [hRatio, hNone]
  cases standard <;> rfl

/- These dots are all that a reset lets pass. -/
theorem reset_ppu
    {console : Console}
    (hTiming :
      console.restart.board.ppu.timing = standard.timing) :
    console.reset.board.ppu =
      (Scan.run (pixelsOfReset standard + 1)
        (console.restart.scan ())).ppu := by
  have hDots := dots_of_reset
    (congrArg FrameTiming.dotsPerCycle hTiming) rfl
  rw [reset_eq, clock_eq, hDots]
  rfl

/- At the origin a frame is yet to begin. -/
theorem progress_origin
    {ppu : Ppu}
    (hRaster : ppu.raster = ⟨0, 0, 0⟩)
    (hReady : ppu.frameReady = false) :
    Ppu.Progress 0 0 ppu [] := by
  refine .picture ?_ hReady (Nat.zero_le _) ?_
  · rw [hRaster, Ppu.place_origin]
    exact Nat.zero_le _
  · rw [hRaster, Ppu.pixelsBefore_origin]
    exact (placesBetween_self 0).symm

/- After a reset the first line has been started. -/
theorem progress_reset
    {console : Console}
    (hTable : console.cpu.table.WellTimed)
    (hTiming : console.board.ppu.timing = standard.timing) :
    Ppu.Progress (pixelsOfReset standard) 0
      console.reset.board.ppu [] := by
  rcases running_restart hTable hTiming with
    ⟨hRunning, hKeeps⟩
  have hPpu := reset_ppu hRunning.timing
  have hOrigin :
      (console.restart.scan ()).ppu.raster = ⟨0, 0, 0⟩ :=
    hKeeps.raster
  have hStart := progress_origin hOrigin hKeeps.frameReady
  have hFew : pixelsOfReset standard ≤ 21 := by
    cases standard <;> decide
  have hLastDot : Hardware.lastDot = 340 := rfl
  have hRoom :
      Ppu.dotsBeforeBlank +
          (0 + (pixelsOfReset standard + 1)) ≤
        (console.restart.scan ()).ppu.timing.prerenderScanline
          * Hardware.dotsPerScanline := by
    show _ ≤ console.restart.board.ppu.timing.prerenderScanline
      * Hardware.dotsPerScanline
    rw [hRunning.timing]
    have hBlank := standard.blank_add_stepDots
    have hStep : stepDots = 1677 := rfl
    omega
  have hRun := Scan.run_progress (pixelsOfReset standard + 1)
    hRunning.frame hRoom hStart
  have hRaster := run_raster_of_lt
    (pixelsOfReset standard + 1) hOrigin (by omega)
  rw [← hPpu] at hRun hRaster
  have hPlace : console.reset.board.ppu.raster.place =
      pixelsOfReset standard + 1 := by
    rw [hRaster]
    simp [Raster.place]
  have hPixels : console.reset.board.ppu.raster.pixelsBefore =
      pixelsOfReset standard := by
    rw [hRaster]
    simp only [Raster.pixelsBefore]
    rw [if_pos (by decide), Nat.min_eq_left (by omega)]
    omega
  have hBlank : Ppu.dotsBeforeBlank = 82182 := rfl
  -- These dots are too few to get behind the picture.
  cases hRun with
  | blank _ hBehind _ _ => omega
  | complete hBehind _ _ _ => omega
  | picture hBefore hReady _ _ =>
      refine .picture hBefore hReady hPixels.ge ?_
      rw [hPixels, placesBetween_self]

------------------------------------------------------------
-- Whole Frames
------------------------------------------------------------

/- Between frames a console is behind the picture. -/
theorem Frames.progress
    {start console : Console}
    {count : Nat}
    (hFrames : Frames start count console)
    (hStart : Running standard start)
    (hProgress :
      Ppu.Progress (pixelsOfReset standard) 0
        start.board.ppu []) :
    Running standard console ∧
      Ppu.Progress
        (if count = 0 then pixelsOfReset standard else 0) 0
        console.board.ppu [] := by
  induction hFrames with
  | start => exact ⟨hStart, hProgress⟩
  | next _ hRun ih =>
      rw [if_neg (Nat.succ_ne_zero _)]
      exact (ih.1.runFrame_ok ih.2 hRun).1

/-
  Running for a frame always ends, from every console that a
  host can get to: the loop has a result without any bound,
  and that is the result of the call.  Calls that follow each
  other from power-on hand over whole frames in raster order,
  whatever the program does.  Only the first one lacks the
  pixels that have passed during the reset.
-/
theorem frames_whole
    {image : CartridgeImage}
    {settings : Settings}
    {start : Console}
    (hOn : powerOn image settings = .ok start) :
    (∀ console, Visited start console →
      ∀ {σ : Type} [PixelSink σ] (sink : σ),
        ∃ result,
          RunsToFrame console sink result ∧
          console.runFrame sink =
            (result.1.map fun _ =>
              result.2.1.cycles - console.cycles,
              result.2)) ∧
    ∀ count console, Frames start count console →
      ∀ {σ : Type} [PixelSink σ] (sink sink' : σ)
        (cycles : Nat) (next : Console),
        console.runFrame sink = (.ok cycles, next, sink') →
        ∃ pixels : List Pixel,
          sink' = PixelSink.putAll pixels sink ∧
          pixels.map Pixel.place =
            if count = 0 then
              rasterOrder.drop
                (pixelsOfReset settings.standard)
            else
              rasterOrder := by
  have hRunning := running_powerOn hOn
  rcases assembled_of_powerOn hOn with
    ⟨fresh, hAssembled, hReset⟩
  have hFresh := fresh_assembled hAssembled
  have hProgress := progress_reset
    (OpcodeTable.wellTimed_atFidelity hFresh.table)
    hFresh.timing
  rw [hReset] at hProgress
  constructor
  · intro console hVisited σ _ sink
    have hHere := hVisited.running hRunning
    exact ⟨_, hHere.stepUntilFrame sink,
      console.runFrame_eq sink⟩
  · intro count console hFrames σ _ sink sink' cycles next hRun
    rcases hFrames.progress hRunning hProgress with
      ⟨hHere, hNow⟩
    rcases (hHere.runFrame_ok hNow hRun).2 with
      ⟨pixels, hSink, hPlaces⟩
    refine ⟨pixels, hSink, hPlaces.trans ?_⟩
    split <;> rfl

/- A program that waits is shown a part and then the whole. -/
theorem frames_whole_waiting :
    let image : CartridgeImage :=
      { programRom := ProgramMemory.jumpBank }
    let none : Array Pixel := #[]
    ∃ (start second third : Console) (first later : List Pixel)
      (cycles cycles' : Nat),
      powerOn image {} = .ok start ∧
        start.runFrame none =
          (.ok cycles, second, PixelSink.putAll first none) ∧
        second.runFrame none =
          (.ok cycles', third, PixelSink.putAll later none) ∧
        first.map Pixel.place = rasterOrder.drop 20 ∧
        later.map Pixel.place = rasterOrder := by
  intro image none
  rcases waiting_jumpBank {} with ⟨start, hOn, hWaiting⟩
  rcases hWaiting.runFrame (running_powerOn hOn) none with
    ⟨cycles, second, sink, hFirst, hStill, hRunning⟩
  rcases hStill.runFrame hRunning none with
    ⟨cycles', third, sink', hSecond, -, -⟩
  rcases (frames_whole hOn).2 0 start .start none sink cycles
    second hFirst with ⟨first, rfl, hPart⟩
  rcases (frames_whole hOn).2 1 second (.next .start hFirst)
    none sink' cycles' third hSecond with ⟨later, rfl, hWhole⟩
  exact ⟨start, second, third, first, later, cycles, cycles',
    hOn, hFirst, hSecond, hPart, hWhole⟩

end Console

end Famicom
