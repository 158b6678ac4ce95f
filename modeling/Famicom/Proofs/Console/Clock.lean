import Famicom.Console
import Famicom.Proofs.Video.Dot

/-
  The clock between the processor and the picture unit.

  The dots that are owed pass one by one, each with one tick
  of the unit, and what is left is less than a dot.  This file
  relates the clock to that loop and shows that clocking in
  parts makes no difference.

  Key definitions include:
    * `Ppu.countTick`
    * `Scan.catchUp`
    * `Console.scan`
    * `Console.withScan`

  Main declarations:
    * `Scan.run_keeps`
    * `Scan.run_counts`
    * `Scan.catchUp_eq`
    * `Console.clock_eq`
    * `Console.clock_clock`
-/

namespace Famicom

------------------------------------------------------------
-- Scans
------------------------------------------------------------

/- One more tick of the unit, which takes its request. -/
def Ppu.countTick (counted : Ppu × Nat) : Ppu × Nat :=
  (counted.1.tick.2.acceptNmi, counted.2 + 1)

namespace Scan

variable {σ : Type} [PixelSink σ]

/- Drawing changes the unit like a dot. -/
theorem draw_fst
    (ppu : Ppu)
    (sink : σ) :
    (ppu.draw sink).1 = ppu.tick.2 := by
  unfold Ppu.draw
  split <;> rename_i hTick <;> rw [hTick]

/- After a dot the unit's request has been passed on. -/
theorem tick_ppu (scan : Scan σ) :
    scan.tick.ppu = scan.ppu.tick.2.acceptNmi := by
  rcases scan with ⟨ppu, lines, sink⟩
  have hDraw := draw_fst ppu sink
  unfold tick
  dsimp only
  rw [← hDraw]
  split
  next => rfl
  next hQuiet =>
    have hNone : (ppu.draw sink).1.nmiRequested = false :=
      Bool.eq_false_iff.mpr hQuiet
    unfold Ppu.acceptNmi
    rw [← hNone]

/- A request after the dot has become a pending edge. -/
theorem tick_lines (scan : Scan σ) :
    scan.tick.lines =
      { scan.lines with
        nmiPending :=
          scan.lines.nmiPending ||
            scan.ppu.tick.2.nmiRequested } := by
  rcases scan with ⟨ppu, lines, sink⟩
  have hDraw := draw_fst ppu sink
  unfold tick
  dsimp only
  rw [← hDraw]
  split
  next hRequested =>
    rw [hRequested, Bool.or_true]
    rfl
  next hQuiet =>
    rw [Bool.eq_false_iff.mpr hQuiet, Bool.or_false]

theorem run_add
    (first second : Nat)
    (scan : Scan σ) :
    run (first + second) scan =
      run second (run first scan) := by
  induction first generalizing scan with
  | zero => rw [Nat.zero_add]; rfl
  | succ first ih =>
      rw [Nat.succ_add]
      exact ih scan.tick

/- A dot keeps what it keeps of the unit alone. -/
theorem tick_keeps (scan : Scan σ) :
    Ppu.Keeps scan.ppu scan.tick.ppu := by
  rw [tick_ppu]
  exact (Ppu.tick_keeps scan.ppu).trans
    (Ppu.acceptNmi_keeps scan.ppu.tick.2)

theorem tick_timing (scan : Scan σ) :
    scan.tick.ppu.timing = scan.ppu.timing :=
  scan.tick_keeps.timing

/- So does a number of dots. -/
theorem run_keeps
    (count : Nat)
    (scan : Scan σ) :
    Ppu.Keeps scan.ppu (run count scan).ppu := by
  induction count generalizing scan with
  | zero => exact .refl scan.ppu
  | succ count ih => exact scan.tick_keeps.trans (ih scan.tick)

theorem run_timing
    (count : Nat)
    (scan : Scan σ) :
    (run count scan).ppu.timing = scan.ppu.timing :=
  (run_keeps count scan).timing

/- With every dot that passes, the unit ticks once. -/
theorem run_counts
    (count passed : Nat)
    (scan : Scan σ) :
    ((run count scan).ppu, passed + count) =
      Ppu.countTick^[count] (scan.ppu, passed) := by
  induction count generalizing passed scan with
  | zero => rfl
  | succ count ih =>
      have hTick :
          Ppu.countTick (scan.ppu, passed) =
            (scan.tick.ppu, passed + 1) := by
        unfold Ppu.countTick
        rw [tick_ppu]
      rw [Function.iterate_succ_apply, hTick, ← ih,
        Nat.add_assoc, Nat.add_comm 1]
      rfl

/- Dots never touch the level. -/
theorem run_level
    (count : Nat)
    (scan : Scan σ) :
    (run count scan).lines.irqAsserted =
      scan.lines.irqAsserted := by
  induction count generalizing scan with
  | zero => rfl
  | succ count ih =>
      refine (ih scan.tick).trans ?_
      rw [tick_lines]

------------------------------------------------------------
-- Catching Up
------------------------------------------------------------

/-
  Let dots pass one by one for as long as a whole one is
  owed.  Gives what is still owed, and the number of dots
  that have passed on top of `passed`.
-/
def catchUp
    (ratio : ClockRatio)
    (owed passed : Nat)
    (scan : Scan σ) : Nat × Nat × Scan σ :=
  if 0 < ratio.cycles ∧ ratio.cycles ≤ owed then
    catchUp ratio (owed - ratio.cycles) (passed + 1) scan.tick
  else
    (owed, passed, scan)
termination_by owed

/- The loop lets the whole dots pass and leaves the rest. -/
theorem catchUp_eq
    (ratio : ClockRatio)
    (hRatio : 0 < ratio.cycles)
    (owed passed : Nat)
    (scan : Scan σ) :
    catchUp ratio owed passed scan =
      (owed % ratio.cycles, passed + owed / ratio.cycles,
        run (owed / ratio.cycles) scan) := by
  fun_induction catchUp ratio owed passed scan with
  | case1 owed passed scan hOwed ih =>
      rw [ih, Nat.div_eq_sub_div hRatio hOwed.2,
        Nat.mod_eq_sub_mod hOwed.2, Nat.add_assoc passed 1,
        Nat.add_comm 1]
      rfl
  | case2 owed passed scan hDone =>
      have hLess : owed < ratio.cycles := by omega
      rw [Nat.mod_eq_of_lt hLess, Nat.div_eq_of_lt hLess]
      rfl

end Scan

------------------------------------------------------------
-- Clocks
------------------------------------------------------------

/- The processor takes some time for its dots. -/
theorem VideoStandard.cycles_pos (standard : VideoStandard) :
    0 < standard.timing.dotsPerCycle.cycles := by
  cases standard <;> decide

/- The most dots that a step of the processor can last. -/
def stepDots : Nat := 1677

/-
  The dots of a step: at least one, and not many.  Up to 10
  of its cycles are those of an instruction, and up to 514
  those of a transfer.
-/
theorem VideoStandard.dots_of_step
    (standard : VideoStandard)
    {remainder cycles : Nat}
    (hRemainder :
      remainder < standard.timing.dotsPerCycle.cycles)
    (hFew : 2 ≤ cycles)
    (hMany : cycles ≤ 524) :
    let ratio := standard.timing.dotsPerCycle
    let dots := (remainder + cycles * ratio.dots) / ratio.cycles
    0 < dots ∧ dots ≤ stepDots := by
  have hDots : stepDots = 1677 := rfl
  rw [hDots]
  cases standard <;>
    simp only [timing] at hRemainder ⊢ <;>
    omega

namespace Console

variable {σ : Type} [PixelSink σ]

/- The part of a console that dots change. -/
def scan
    (console : Console)
    (sink : σ) : Scan σ :=
  ⟨console.board.ppu, console.lines, sink⟩

/- A console with that part replaced. -/
def withScan
    (console : Console)
    (scan : Scan σ) : Console :=
  { console with
    lines := scan.lines
    board := { console.board with ppu := scan.ppu } }

/- The dots that are owed after a number of cycles. -/
def owed
    (console : Console)
    (cycles : Nat) : Nat :=
  console.remainder + cycles * console.ratio.dots

/- The clock in terms of what it changes. -/
theorem clock_eq
    (console : Console)
    (cycles : Nat)
    (sink : σ) :
    let after := Scan.run
      (console.owed cycles / console.ratio.cycles)
      (console.scan sink)
    console.clock cycles sink =
      ({ console.withScan after with
          remainder :=
            console.owed cycles % console.ratio.cycles
          cycles := console.cycles + cycles },
        after.sink) := rfl

theorem clock_ratio
    (console : Console)
    (cycles : Nat)
    (sink : σ) :
    (console.clock cycles sink).1.ratio = console.ratio :=
  congrArg FrameTiming.dotsPerCycle (Scan.run_timing _ _)

/- A division in two parts, the second with the remainder. -/
theorem div_mod_parts (first second period : Nat) :
    first / period + (first % period + second) / period =
        (first + second) / period ∧
      (first % period + second) % period =
        (first + second) % period := by
  refine ⟨?_, Nat.mod_add_mod first period second⟩
  rcases Nat.eq_zero_or_pos period with rfl | hPeriod
  · simp
  · have hSplit : first + second =
        first % period + second +
          period * (first / period) := by
      have hWhole := Nat.div_add_mod first period
      omega
    rw [hSplit, Nat.add_mul_div_left _ _ hPeriod, Nat.add_comm]

/- Clocking in two parts is clocking at once. -/
theorem clock_clock
    (console : Console)
    (first second : Nat)
    (sink : σ) :
    (console.clock first sink).1.clock second
        (console.clock first sink).2 =
      console.clock (first + second) sink := by
  have hParts := div_mod_parts (console.owed first)
    (second * console.ratio.dots) console.ratio.cycles
  have hOwed :
      console.owed (first + second) =
        console.owed first + second * console.ratio.dots := by
    unfold owed
    rw [Nat.add_mul, Nat.add_assoc]
  have hRatio := console.clock_ratio first sink
  rw [clock_eq _ second, clock_eq _ (first + second), hOwed,
    ← hParts.1, ← hParts.2, Scan.run_add]
  have hRest :
      (console.clock first sink).1.owed second =
        console.owed first % console.ratio.cycles +
          second * console.ratio.dots := by
    unfold owed
    rw [hRatio]
    rfl
  rw [hRest, hRatio, ← Nat.add_assoc]
  rfl

end Console

end Famicom
