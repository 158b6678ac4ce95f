import Famicom.Proofs.Console.Power

/-
  The console does not drift.

  Two meters are added to the console: one counts the dots
  that have passed since the last reset, and the other notes
  the cycles that had passed at that reset.  The console does
  the same with and without them, and in every state between
  calls the dots match the cycles.

  Key definitions include:
    * `Console.Call`
    * `Console.perform`
    * `Metered`
    * `Metered.Balanced`

  Main declarations:
    * `Metered.clock_counts`
    * `Metered.balanced_clock`
    * `Metered.perform_spec`
    * `Metered.dots_eq_floor`
-/

namespace Famicom

------------------------------------------------------------
-- Calls
------------------------------------------------------------

namespace Console

/- What a host can do to a console besides running it. -/
inductive HostAccess where
  | read (address : UInt16)
  | write (address : UInt16) (value : UInt8)
  | setLines (lines : InterruptLines)
  | setRegisters (registers : Registers)
  | changePads (change : Pads → Pads)

/- The console after an access by the host. -/
def afterAccess
    (console : Console) : HostAccess → Console
  | .read address => (console.read address).2
  | .write address value => console.write address value
  | .setLines lines => { console with lines := lines }
  | .setRegisters registers =>
      { console with
        cpu := { console.cpu with registers := registers } }
  | .changePads change => console.changePads change

/- One call of the host, whatever its outcome. -/
inductive Call where
  | step
  | runFrame
  | reset
  | access (access : HostAccess)

section Calls

variable {σ : Type} [PixelSink σ]

/- The console and the taker of its pixels after a call. -/
def perform
    (state : Console × σ) : Call → Console × σ
  | .step => (state.1.step state.2).2
  | .runFrame => (state.1.runFrame state.2).2
  | .reset => (state.1.reset, state.2)
  | .access access => (state.1.afterAccess access, state.2)

/- The same after a number of calls. -/
def performAll
    (state : Console × σ)
    (calls : List Call) : Console × σ :=
  calls.foldl perform state

end Calls

theorem afterAccess_stable
    {motive : Ppu → Prop}
    (hStable : Ppu.AccessStable motive)
    {console : Console}
    (access : HostAccess)
    (hConsole : motive console.board.ppu) :
    motive (console.afterAccess access).board.ppu := by
  cases access with
  | read address => exact Board.read_stable _ hStable hConsole
  | write address value =>
      exact Board.write_stable _ _ hStable hConsole
  | setLines lines => exact hConsole
  | setRegisters registers => exact hConsole
  | changePads change => exact hConsole

/- The clock is out of the reach of a host. -/
theorem afterAccess_clock
    (console : Console)
    (access : HostAccess) :
    (console.afterAccess access).cycles = console.cycles ∧
      (console.afterAccess access).remainder =
        console.remainder := by
  cases access <;> exact ⟨rfl, rfl⟩

end Console

------------------------------------------------------------
-- Metered Consoles
------------------------------------------------------------

/-
  A console, the dots that its picture unit has let pass
  since the last reset, and the cycles before that reset.
-/
structure Metered where
  console : Console
  dots : Nat := 0
  resetCycles : Nat := 0

namespace Metered

/- The cycles since the last reset. -/
def elapsed (metered : Metered) : Nat :=
  metered.console.cycles - metered.resetCycles

section Calls

variable {σ : Type} [PixelSink σ]

/- The clock, with every dot that passes counted. -/
def clock
    (metered : Metered)
    (cycles : Nat)
    (sink : σ) : Metered × σ :=
  let console := metered.console
  let (remainder, dots, scan) :=
    Scan.catchUp console.ratio (console.owed cycles)
      metered.dots (console.scan sink)
  ({ metered with
      console :=
        { console.withScan scan with
          remainder := remainder
          cycles := console.cycles + cycles }
      dots := dots },
    scan.sink)

/- Press the reset button, and start both meters anew. -/
def reset (metered : Metered) : Metered :=
  let restarted : Metered :=
    { console := metered.console.restart
      resetCycles := metered.console.cycles }
  (restarted.clock Hardware.resetCycles ()).1

/- One step of the processor and the dots that follow. -/
def step
    (metered : Metered)
    (sink : σ) :
    Except MachineFault Nat × Metered × σ :=
  match metered.console.execute with
  | (.error fault, executed) =>
      (.error fault, { metered with console := executed },
        sink)
  | (.ok cycles, executed) =>
      (.ok cycles,
        { metered with console := executed }.clock cycles
          sink)

/- Take the completed frame. -/
def acceptFrame (metered : Metered) : Metered :=
  { metered with console := metered.console.acceptFrame }

/- Step until a frame is completed or a step fails. -/
def stepUntilFrame :
    Nat → Metered → σ → Except MachineFault Unit × Metered × σ
  | 0, metered, sink => (.ok (), metered, sink)
  | steps + 1, metered, sink =>
      match metered.step sink with
      | (.error fault, metered, sink) =>
          (.error fault, metered, sink)
      | (.ok _, metered, sink) =>
          if metered.console.frameReady then
            (.ok (), metered.acceptFrame, sink)
          else
            stepUntilFrame steps metered sink

/- One call of the host. -/
def perform
    (state : Metered × σ) :
    Console.Call → Metered × σ
  | .step => (state.1.step state.2).2
  | .runFrame =>
      (stepUntilFrame state.1.console.frameSteps state.1
        state.2).2
  | .reset => (state.1.reset, state.2)
  | .access access =>
      ({ state.1 with
          console := state.1.console.afterAccess access },
        state.2)

/- The same after a number of calls. -/
def performAll
    (state : Metered × σ)
    (calls : List Console.Call) : Metered × σ :=
  calls.foldl perform state

end Calls

/- A metered console with a cartridge, after its first reset. -/
def powerOn
    (image : CartridgeImage)
    (settings : Settings) : Except MachineFault Metered :=
  (Console.assembled image settings).map fun console =>
    reset { console := console }

------------------------------------------------------------
-- Balance
------------------------------------------------------------

/-
  The meters match: the dots that have passed and the
  fraction that is owed are those of the cycles since the
  last reset.
-/
structure Balanced
    (ratio : ClockRatio)
    (metered : Metered) : Prop where
  speed : metered.console.ratio = ratio
  started : metered.resetCycles ≤ metered.console.cycles
  balance :
    metered.dots * ratio.cycles + metered.console.remainder =
      metered.elapsed * ratio.dots
  remainder : metered.console.remainder < ratio.cycles

variable {ratio : ClockRatio} {metered : Metered}

/- The dots are the whole part of what the cycles amount to. -/
theorem Balanced.dots_eq
    (hBalanced : Balanced ratio metered) :
    metered.dots =
      metered.elapsed * ratio.dots / ratio.cycles := by
  have hRatio : 0 < ratio.cycles :=
    Nat.zero_lt_of_lt hBalanced.remainder
  rw [← hBalanced.balance, Nat.add_comm,
    Nat.add_mul_div_right _ _ hRatio,
    Nat.div_eq_of_lt hBalanced.remainder, Nat.zero_add]

section Steps

variable {σ : Type} [PixelSink σ]

/- The clock counts its dots and is otherwise as it was. -/
theorem clock_eq
    (hRatio : 0 < metered.console.ratio.cycles)
    (cycles : Nat)
    (sink : σ) :
    metered.clock cycles sink =
      ({ metered with
          console := (metered.console.clock cycles sink).1
          dots :=
            metered.dots +
              metered.console.owed cycles /
                metered.console.ratio.cycles },
        (metered.console.clock cycles sink).2) := by
  unfold clock
  dsimp only
  rw [Scan.catchUp_eq _ hRatio, Console.clock_eq]

/- What the clock counts are the ticks of the unit. -/
theorem clock_counts
    (hRatio : 0 < metered.console.ratio.cycles)
    (cycles : Nat)
    (sink : σ) :
    let clocked := (metered.clock cycles sink).1
    (clocked.console.board.ppu, clocked.dots) =
      Ppu.countTick^[metered.console.owed cycles /
          metered.console.ratio.cycles]
        (metered.console.board.ppu, metered.dots) := by
  rw [clock_eq hRatio, Console.clock_eq]
  exact Scan.run_counts _ metered.dots
    (metered.console.scan sink)

/- The clock keeps the balance. -/
theorem balanced_clock
    (hBalanced : Balanced ratio metered)
    (cycles : Nat)
    (sink : σ) :
    Balanced ratio (metered.clock cycles sink).1 := by
  rcases hBalanced with
    ⟨hRatio, hStarted, hBalance, hRemainder⟩
  have hPositive : 0 < metered.console.ratio.cycles :=
    hRatio.symm ▸ Nat.zero_lt_of_lt hRemainder
  rw [clock_eq hPositive, Console.clock_eq]
  constructor
  · exact (metered.console.clock_ratio cycles sink).trans
      hRatio
  · exact Nat.le_add_right_of_le hStarted
  · have hElapsed :
        metered.console.cycles + cycles -
            metered.resetCycles =
          metered.elapsed + cycles :=
      Nat.sub_add_comm hStarted
    have hWhole := Nat.div_add_mod'
      (metered.console.owed cycles) ratio.cycles
    show (metered.dots + metered.console.owed cycles /
        metered.console.ratio.cycles) * ratio.cycles +
      metered.console.owed cycles %
        metered.console.ratio.cycles =
      (metered.console.cycles + cycles -
        metered.resetCycles) * ratio.dots
    rw [hRatio, hElapsed, Nat.add_mul, Nat.add_mul,
      Nat.add_assoc, hWhole, ← hBalance]
    unfold Console.owed
    rw [hRatio, Nat.add_assoc]
  · show metered.console.owed cycles %
      metered.console.ratio.cycles < ratio.cycles
    rw [hRatio]
    exact Nat.mod_lt _ (Nat.zero_lt_of_lt hRemainder)

/- A result as it is seen without meters. -/
def forget
    {α : Type}
    (result : α × Metered × σ) : α × Console × σ :=
  (result.1, result.2.1.console, result.2.2)

theorem Balanced.positive
    (hBalanced : Balanced ratio metered) :
    0 < metered.console.ratio.cycles :=
  hBalanced.speed.symm ▸ Nat.zero_lt_of_lt hBalanced.remainder

/- Changes that keep the clock keep the balance. -/
theorem Balanced.congr
    (hBalanced : Balanced ratio metered)
    {console : Console}
    (hSpeed : console.ratio = metered.console.ratio)
    (hCycles : console.cycles = metered.console.cycles)
    (hRemainder :
      console.remainder = metered.console.remainder) :
    Balanced ratio { metered with console := console } where
  speed := hSpeed.trans hBalanced.speed
  started := hCycles.symm ▸ hBalanced.started
  balance := by
    have hElapsed :
        elapsed { metered with console := console } =
          metered.elapsed :=
      congrArg (· - metered.resetCycles) hCycles
    rw [hElapsed, ← hBalanced.balance, ← hRemainder]
  remainder := hRemainder.symm ▸ hBalanced.remainder

theorem execute_ratio (console : Console) :
    console.execute.2.ratio = console.ratio := by
  have hKeeps :
      Ppu.AccessKeeps console.board.ppu
        console.execute.2.board.ppu :=
    Console.execute_stable
      (Ppu.accessKeeps_stable _) (.refl _)
  exact congrArg FrameTiming.dotsPerCycle hKeeps.timing

/- A step does the same with and without meters. -/
theorem step_spec
    (hBalanced : Balanced ratio metered)
    (sink : σ) :
    forget (metered.step sink) = metered.console.step sink ∧
      Balanced ratio (metered.step sink).2.1 := by
  have hExecuted := hBalanced.congr
    (execute_ratio metered.console)
    metered.console.execute_cycles
    metered.console.execute_remainder
  rw [Console.step_eq]
  unfold step
  generalize metered.console.execute = stepped
    at hExecuted ⊢
  rcases stepped with ⟨result, executed⟩
  cases result with
  | error fault => exact ⟨rfl, hExecuted⟩
  | ok cycles =>
      refine ⟨?_, balanced_clock hExecuted cycles sink⟩
      unfold forget
      dsimp only
      rw [clock_eq hExecuted.positive]

/- So do steps until a frame is completed. -/
theorem stepUntilFrame_spec
    (steps : Nat)
    (hBalanced : Balanced ratio metered)
    (sink : σ) :
    forget (stepUntilFrame steps metered sink) =
        metered.console.stepUntilFrame steps sink ∧
      Balanced ratio
        (stepUntilFrame steps metered sink).2.1 := by
  induction steps generalizing metered sink with
  | zero => exact ⟨rfl, hBalanced⟩
  | succ steps ih =>
      rcases step_spec hBalanced sink with ⟨hSame, hAfter⟩
      unfold stepUntilFrame Console.stepUntilFrame
      rw [← hSame]
      generalize metered.step sink = stepped at hAfter ⊢
      rcases stepped with ⟨result, next, sink'⟩
      cases result with
      | error fault => exact ⟨rfl, hAfter⟩
      | ok cycles =>
          dsimp only [forget]
          by_cases hReady : next.console.frameReady = true
          · rw [if_pos hReady, if_pos hReady]
            exact ⟨rfl, hAfter.congr rfl rfl rfl⟩
          · rw [if_neg hReady, if_neg hReady]
            exact ih hAfter sink'

/- A reset starts the meters anew, and they match. -/
theorem reset_spec
    (hRatio : 0 < metered.console.ratio.cycles) :
    metered.reset.console = metered.console.reset ∧
      Balanced metered.console.ratio metered.reset := by
  have hKeeps :
      Ppu.AccessKeeps metered.console.board.ppu.reset
        metered.console.restart.board.ppu :=
    Console.restart_stable
      (Ppu.accessKeeps_stable _) (.refl _)
  have hRestarted :
      Balanced metered.console.ratio
        { console := metered.console.restart
          resetCycles := metered.console.cycles } :=
    { speed :=
        congrArg FrameTiming.dotsPerCycle hKeeps.timing
      started := Nat.le_refl _
      balance := by
        show 0 * _ + 0 =
          (metered.console.cycles - metered.console.cycles) * _
        rw [Nat.sub_self, Nat.zero_mul, Nat.zero_mul]
      remainder := hRatio }
  refine ⟨?_, balanced_clock hRestarted _ ()⟩
  unfold reset
  dsimp only
  rw [clock_eq hRestarted.positive]
  rfl

------------------------------------------------------------
-- Runs
------------------------------------------------------------

/- Calls do the same with and without meters. -/
theorem perform_spec
    (hBalanced : Balanced ratio metered)
    (sink : σ)
    (call : Console.Call) :
    Prod.map console id (perform (metered, sink) call) =
        Console.perform (metered.console, sink) call ∧
      Balanced ratio (perform (metered, sink) call).1 := by
  cases call with
  | step =>
      rcases step_spec hBalanced sink with ⟨hSame, hAfter⟩
      exact ⟨congrArg Prod.snd hSame, hAfter⟩
  | runFrame =>
      rcases stepUntilFrame_spec
        metered.console.frameSteps hBalanced sink with
        ⟨hSame, hAfter⟩
      refine ⟨?_, hAfter⟩
      unfold Console.perform Console.runFrame
      dsimp only
      rw [← hSame]
      unfold perform forget
      dsimp only
      split
      next hError => exact (congrArg Prod.snd hError)
      next hOk => exact (congrArg Prod.snd hOk)
  | reset =>
      rcases reset_spec hBalanced.positive with
        ⟨hSame, hAfter⟩
      exact ⟨congrArg (·, sink) hSame,
        hBalanced.speed ▸ hAfter⟩
  | access access =>
      have hKeeps := Console.afterAccess_stable
        (Ppu.accessKeeps_stable metered.console.board.ppu)
        access (.refl _)
      have hClock :=
        metered.console.afterAccess_clock access
      exact ⟨rfl, hBalanced.congr
        (congrArg FrameTiming.dotsPerCycle hKeeps.timing)
        hClock.1 hClock.2⟩

theorem performAll_spec
    (hBalanced : Balanced ratio metered)
    (sink : σ)
    (calls : List Console.Call) :
    Prod.map console id (performAll (metered, sink) calls) =
        Console.performAll (metered.console, sink) calls ∧
      Balanced ratio
        (performAll (metered, sink) calls).1 := by
  induction calls generalizing metered sink with
  | nil => exact ⟨rfl, hBalanced⟩
  | cons call calls ih =>
      rcases perform_spec hBalanced sink call with
        ⟨hSame, hAfter⟩
      unfold performAll Console.performAll
      rw [List.foldl_cons, List.foldl_cons, ← hSame]
      exact ih hAfter _

/-
  From power-on, and through whatever calls of the host, the
  dots since the last reset are the whole part of what the
  cycles since then amount to, and the fraction is carried
  over.  From there it makes no difference whether cycles are
  clocked in two parts or at once, and what the clock counts
  are the ticks of the picture unit.
-/
theorem dots_eq_floor
    (image : CartridgeImage)
    (settings : Settings)
    (console : Console)
    (hOn : Console.powerOn image settings = .ok console) :
    let ratio := settings.standard.timing.dotsPerCycle
    ∃ start : Metered,
      powerOn image settings = .ok start ∧
      start.console = console ∧
      ∀ (sink : σ) (calls : List Console.Call),
        let state := performAll (start, sink) calls
        let here := state.1
        (here.console, state.2) =
            Console.performAll (console, sink) calls ∧
          here.resetCycles ≤ here.console.cycles ∧
          here.dots * ratio.cycles + here.console.remainder =
            here.elapsed * ratio.dots ∧
          here.console.remainder < ratio.cycles ∧
          here.dots =
            here.elapsed * ratio.dots / ratio.cycles ∧
          (∀ (first second : Nat) (sink : σ),
            let clocked := here.console.clock first sink
            clocked.1.clock second clocked.2 =
              here.console.clock (first + second) sink) ∧
          ∀ (cycles : Nat) (sink : σ),
            let clocked := (here.clock cycles sink).1
            clocked.console =
                (here.console.clock cycles sink).1 ∧
              (clocked.console.board.ppu, clocked.dots) =
                Ppu.countTick^[here.console.owed cycles /
                    ratio.cycles]
                  (here.console.board.ppu, here.dots) := by
  intro ratio
  rcases Console.assembled_of_powerOn hOn with
    ⟨fresh, hAssembled, rfl⟩
  have hFresh := Console.fresh_assembled hAssembled
  have hRatio : fresh.ratio = ratio :=
    congrArg FrameTiming.dotsPerCycle hFresh.timing
  have hPositive : 0 < ratio.cycles :=
    settings.standard.cycles_pos
  let off : Metered := { console := fresh }
  obtain ⟨hSame, hBalanced⟩ : off.reset.console = _ ∧ _ :=
    reset_spec (hRatio.symm ▸ hPositive)
  refine ⟨reset { console := fresh }, ?_, hSame, ?_⟩
  · unfold powerOn
    rw [hAssembled]
    rfl
  · intro sink calls state here
    have hStart : Balanced ratio (reset
        { console := fresh }) :=
      hRatio ▸ hBalanced
    rcases performAll_spec hStart sink calls with
      ⟨hRun, hHere⟩
    rw [hSame] at hRun
    refine ⟨hRun, hHere.started, hHere.balance,
      hHere.remainder, hHere.dots_eq,
      fun first second sink =>
        here.console.clock_clock first second sink,
      fun cycles sink => ⟨?_, ?_⟩⟩
    · rw [clock_eq hHere.positive]
    · rw [← hHere.speed]
      exact clock_counts hHere.positive cycles sink

end Steps

/- Sixteen dots pass in five cycles of a PAL console. -/
theorem dots_eq_floor_pal :
    let image : CartridgeImage :=
      { programRom := Array.replicate 0x4000 0xEA }
    ∃ start : Metered,
      powerOn image { standard := .pal } = .ok start ∧
      ∀ calls : List Console.Call,
        let here := (performAll (start, ()) calls).1
        here.dots = here.elapsed * 16 / 5 := by
  intro image
  rcases Console.powerOn_isOk
    (Cartridge.ofImage_replicate 0xEA) { standard := .pal } with
    ⟨console, hOn⟩
  rcases dots_eq_floor (σ := Unit) image { standard := .pal }
      console hOn with ⟨start, hStart, -, hRuns⟩
  refine ⟨start, hStart, fun calls => ?_⟩
  exact (hRuns () calls).2.2.2.2.1

end Metered

end Famicom
