import Famicom.Proofs.Console.Power
import Famicom.Proofs.Console.RaisingDots
import Famicom.Proofs.Console.RaisingWrites

/-
  Steps with a count of the interrupts asked for.

  The console does the same with and without the count.  A
  step asks at most once: a write only asks behind the start
  of vertical blank, and a step lets too few dots pass to
  reach the next start.

  Key definitions include:
    * `StepTally`
    * `Console.tallyClock`
    * `Console.tallyStep`
    * `Console.Settled`

  Main declarations:
    * `Console.tallyStep_eq`
    * `Console.tallyStep_isOk`
    * `Console.Settled.stepped`
    * `Console.Settled.serves`
    * `Console.settled_powerOn`
-/

namespace Famicom

------------------------------------------------------------
-- Counted Steps
------------------------------------------------------------

/-
  What a step has done: the cycles that it took, the action
  of the processor, and how often an interrupt was asked for.
-/
structure StepTally where
  cycles : Nat
  action : Cpu.Action
  raised : Nat

namespace Console

variable {σ : Type} [PixelSink σ]

/- The clock, and how often dots ask for an interrupt. -/
def tallyClock
    (console : Console)
    (cycles : Nat)
    (sink : σ) : Nat × Console × σ :=
  let owed := console.owed cycles
  let (raised, after) :=
    Scan.tally (owed / console.ratio.cycles)
      (console.scan sink)
  (raised,
    { console.withScan after with
      remainder := owed % console.ratio.cycles
      cycles := console.cycles + cycles },
    after.sink)

theorem tallyClock_snd
    (console : Console)
    (cycles : Nat)
    (sink : σ) :
    (console.tallyClock cycles sink).2 =
      console.clock cycles sink := by
  unfold tallyClock
  dsimp only
  rw [Scan.tally_snd, clock_eq]

/-
  The first part of a step, and how often its writes ask for
  an interrupt.
-/
def tallyExecute
    (console : Console) :
    Except MachineFault (Nat × Nat) × Console :=
  let action := console.cpu.nextAction console.lines
  let start : TalliedBoard := { board := console.board }
  match console.cpu.perform console.lines action start with
  | (.error fault, tallied) =>
      (.error fault, { console with board := tallied.board })
  | (.ok done, tallied) =>
      let transfer :=
        tallied.board.transferOam
          (console.cycles + done.cycles)
      (.ok (done.cycles + transfer.1, tallied.raised),
        { console with
          cpu := done.cpu
          lines := done.lines
          board := transfer.2 })

/- A step, with what it has done. -/
def tallyStep
    (console : Console)
    (sink : σ) :
    Except MachineFault StepTally × Console × σ :=
  let action := console.cpu.nextAction console.lines
  match console.tallyExecute with
  | (.error fault, executed) => (.error fault, executed, sink)
  | (.ok (cycles, written), executed) =>
      let (drawn, clocked) := executed.tallyClock cycles sink
      (.ok ⟨cycles, action, written + drawn⟩, clocked)

theorem perform_within (console : Console) :
    console.cpu.StepsWithin console.lines (fun _ _ =>
      console.cpu.perform console.lines
        (console.cpu.nextAction console.lines)) := by
  have hStep := console.cpu.step_within console.lines
  simp only [Cpu.step_eq_perform] at hStep
  exact hStep

theorem tallyExecute_eq (console : Console) :
    console.execute =
      (console.tallyExecute.1.map Prod.fst,
        console.tallyExecute.2) := by
  have hSame := TalliedBoard.computation_eq
    console.perform_within { board := console.board }
  unfold execute tallyExecute
  rw [Cpu.step_eq_perform]
  dsimp only at hSame ⊢
  rw [hSame]
  generalize console.cpu.perform console.lines
    (console.cpu.nextAction console.lines)
    ({ board := console.board } : TalliedBoard) = performed
  rcases performed with ⟨result, tallied⟩
  cases result with
  | error fault => rfl
  | ok done => rfl

/- The counts make no difference to the step. -/
theorem tallyStep_eq
    (console : Console)
    (sink : σ) :
    let stepped := console.tallyStep sink
    console.step sink =
      (stepped.1.map StepTally.cycles, stepped.2) := by
  rw [step_eq, tallyExecute_eq]
  unfold tallyStep
  generalize console.tallyExecute = executed
  rcases executed with ⟨result, executed⟩
  cases result with
  | error fault => rfl
  | ok done =>
      dsimp only [Except.map]
      rw [← tallyClock_snd]

------------------------------------------------------------
-- Settled Consoles
------------------------------------------------------------

/-
  A console that has been built as every console is, with no
  transfer requested, no level asserted, less than a dot owed
  and the flag of vertical blank in place.
-/
structure Ready
    (standard : VideoStandard)
    (console : Console) : Prop where
  map : console.board.map = Board.standardMap
  table : console.cpu.table.WellTimed
  timing : console.board.ppu.timing = standard.timing
  page : console.board.dma.page = none
  level : console.lines.irqAsserted = false
  remainder :
    console.remainder < standard.timing.dotsPerCycle.cycles
  blank : console.board.ppu.BlankInPlace

/- Between steps nothing waits to be passed on either. -/
structure Settled
    (standard : VideoStandard)
    (console : Console) : Prop
    extends Ready standard console where
  quiet : console.board.ppu.nmiRequested = false

/- The dots of a step: at least one, and less than a frame. -/
theorem dots_of_cycles
    (standard : VideoStandard)
    {remainder cycles : Nat}
    (hRemainder :
      remainder < standard.timing.dotsPerCycle.cycles)
    (hFew : 2 ≤ cycles)
    (hMany : cycles ≤ 524) :
    let ratio := standard.timing.dotsPerCycle
    let dots := (remainder + cycles * ratio.dots) / ratio.cycles
    0 < dots ∧ dots ≤ Ppu.dotsBeforeBlank :=
  (standard.dots_of_step hRemainder hFew hMany).imp_right
    fun hDots => hDots.trans (by decide)

/- What the clock does to a console that is ready. -/
structure Clocked
    (standard : VideoStandard)
    (console : Console)
    (raised : Nat)
    (after : Console) : Prop where
  settled : Settled standard after
  raised_le : raised ≤ 1
  quiet :
    Ppu.QuietFor Ppu.dotsBeforeBlank console.board.ppu →
      raised = 0
  pending :
    after.lines.nmiPending =
      (console.lines.nmiPending ||
        (console.board.ppu.nmiRequested ||
          decide (0 < raised)))

theorem Ready.clocked
    {standard : VideoStandard}
    {console : Console}
    (hReady : Ready standard console)
    (cycles : Nat)
    (hFew : 2 ≤ cycles)
    (hMany : cycles ≤ 524)
    (sink : σ) :
    Clocked standard console
      (console.tallyClock cycles sink).1
      (console.tallyClock cycles sink).2.1 := by
  have hTiming : console.board.ppu.timing.Standard :=
    hReady.timing ▸ standard.standard
  have hRatio :
      console.ratio = standard.timing.dotsPerCycle :=
    congrArg FrameTiming.dotsPerCycle hReady.timing
  rcases
      dots_of_cycles standard hReady.remainder hFew hMany with
    ⟨hSome, hBound⟩
  unfold tallyClock owed
  dsimp only
  rw [hRatio]
  generalize hDots :
    (console.remainder +
        cycles * standard.timing.dotsPerCycle.dots) /
      standard.timing.dotsPerCycle.cycles = dots
    at hSome hBound ⊢
  have hDelivers := Scan.tally_delivers
    (console.scan sink) hTiming dots (Or.inl hSome)
  have hAfter := Scan.tally_snd dots (console.scan sink)
  have hPositive : 0 < standard.timing.dotsPerCycle.cycles :=
    Nat.zero_lt_of_lt hReady.remainder
  constructor
  · refine
      { map := hReady.map
        table := hReady.table
        page := hReady.page
        remainder := Nat.mod_lt _ hPositive
        timing := ?_
        level := ?_
        blank := ?_
        quiet := hDelivers.quiet }
    · show (Scan.tally dots (console.scan sink)
        ).2.ppu.timing = _
      rw [hAfter, Scan.run_timing]
      exact hReady.timing
    · show (Scan.tally dots (console.scan sink)
        ).2.lines.irqAsserted = false
      rw [hDelivers.lines]
      exact hReady.level
    · show (Scan.tally dots (console.scan sink)
        ).2.ppu.BlankInPlace
      rw [hAfter]
      exact Scan.run_blankInPlace hTiming dots hReady.blank
  · exact Scan.tally_le_one hTiming hBound
  · intro hQuiet
    exact Scan.tally_of_quietFor hTiming hBound
      (hQuiet.mono hBound)
  · exact congrArg InterruptLines.nmiPending hDelivers.lines

------------------------------------------------------------
-- Steps of Settled Consoles
------------------------------------------------------------

/-
  What the first part of a step does to a settled console.
  Of its cycles up to 10 are the processor's and up to 514
  are those of a transfer.
-/
structure Performed
    (standard : VideoStandard)
    (cycles written : Nat)
    (executed : Console) : Prop where
  ready : Ready standard executed
  cycles_ge : 2 ≤ cycles
  cycles_le : cycles ≤ 524
  written_le : written ≤ 1
  requested :
    executed.board.ppu.nmiRequested = decide (0 < written)
  quiet :
    0 < written →
      Ppu.QuietFor Ppu.dotsBeforeBlank executed.board.ppu
  pending : executed.lines.nmiPending = false

theorem Settled.performed
    {standard : VideoStandard}
    {console executed : Console}
    {cycles written : Nat}
    (hSettled : Settled standard console)
    (hExecute :
      console.tallyExecute =
        (.ok (cycles, written), executed)) :
    Performed standard cycles written executed := by
  have hStart := TalliedBoard.tallies_start
    hSettled.map hSettled.quiet
  have hResult :=
    console.perform_within.result
      ({ board := console.board } : TalliedBoard)
  have hTallies := TalliedBoard.tallies_computation
    console.perform_within hStart
  have hOnce := TalliedBoard.raised_le_one
    console.perform_within (Nat.le_refl 2) hStart rfl
  unfold tallyExecute at hExecute
  dsimp only at hExecute hResult hTallies hOnce
  generalize console.cpu.perform console.lines
    (console.cpu.nextAction console.lines)
    ({ board := console.board } : TalliedBoard) = performed
    at hExecute hResult hTallies hOnce
  rcases performed with ⟨result, tallied⟩
  cases result with
  | error fault => cases hExecute
  | ok done =>
      cases hExecute
      let started := console.cycles + done.cycles
      have hFollows := hResult done rfl
      rcases hFollows.cycles hSettled.table with ⟨hFew, hMany⟩
      have hHalted :=
        tallied.board.transferOam_cycles_le started
      have hKeeps :
          Ppu.AccessKeeps console.board.ppu
            (tallied.board.transferOam started).2.ppu :=
        Board.transferOam_stable
          (Ppu.accessKeeps_stable _) started hTallies.keeps
      constructor
      · exact
          { map :=
              (Board.transferOam_map _ _).trans hTallies.map
            table := hFollows.table.symm ▸ hSettled.table
            timing := hKeeps.timing.trans hSettled.timing
            page := Board.transferOam_page _ _
            level := hFollows.lines.symm ▸ hSettled.level
            remainder := hSettled.remainder
            blank := hSettled.blank.of_accessKeeps hKeeps }
      · exact hFew.trans (Nat.le_add_right _ _)
      · exact Nat.add_le_add hMany hHalted
      · exact hOnce
      · exact (Board.transferOam_nmiRequested _ _).trans
          hTallies.requested
      · intro hWritten
        have hBlank := hTallies.verticalBlank hWritten
        exact (hSettled.blank.quietFor hBlank _).congr
          hKeeps.raster
      · exact hFollows.lines.symm ▸ rfl

/- What a whole step does to it. -/
structure Stepped
    (standard : VideoStandard)
    (console : Console)
    (tally : StepTally)
    (next : Console) : Prop where
  settled : Settled standard next
  raised_le : tally.raised ≤ 1
  pending : next.lines.nmiPending = decide (0 < tally.raised)
  action :
    tally.action = console.cpu.nextAction console.lines

/-
  If a write of the step has asked for an interrupt, the dots
  after it are quiet.
-/
theorem Settled.stepped
    {standard : VideoStandard}
    {console next : Console}
    {sink sink' : σ}
    {tally : StepTally}
    (hSettled : Settled standard console)
    (hStep :
      console.tallyStep sink = (.ok tally, next, sink')) :
    Stepped standard console tally next := by
  unfold tallyStep at hStep
  cases hExecute : console.tallyExecute with
  | mk result executed =>
      rw [hExecute] at hStep
      cases result with
      | error fault => cases hStep
      | ok counts =>
          rcases counts with ⟨cycles, written⟩
          have hFirst := hSettled.performed hExecute
          have hSecond := hFirst.ready.clocked cycles
            hFirst.cycles_ge hFirst.cycles_le sink
          dsimp only at hStep
          generalize executed.tallyClock cycles sink = clocked
            at hStep hSecond
          rcases clocked with ⟨drawn, after, taker⟩
          cases hStep
          refine
            { settled := hSecond.settled
              raised_le := ?_
              pending := ?_
              action := rfl }
          · rcases Nat.eq_zero_or_pos written with
              hNone | hSome
            · rw [hNone, Nat.zero_add]
              exact hSecond.raised_le
            · rw [hSecond.quiet (hFirst.quiet hSome)]
              exact hFirst.written_le
          · rw [hSecond.pending, hFirst.pending,
              hFirst.requested, Bool.false_or]
            simp only [Nat.add_pos_iff_pos_or_pos,
              Bool.decide_or]

------------------------------------------------------------
-- Serving
------------------------------------------------------------

theorem Settled.performed_pending
    {standard : VideoStandard}
    {console : Console}
    (hSettled : Settled standard console)
    (hPending : console.lines.nmiPending = true) :
    ∃ written executed,
      console.tallyExecute = (.ok (7, written), executed) ∧
        executed.cpu =
          console.cpu.atNmiEntry console.board.program := by
  have hAction :=
    (console.cpu.nextAction_eq_serveNmi console.lines).mpr
      hPending
  have hSame := TalliedBoard.computation_eq
    console.perform_within { board := console.board }
  rcases console.cpu.perform_serveNmi
    console.lines hSettled.map with ⟨ram, hServe⟩
  unfold tallyExecute
  dsimp only at hSame ⊢
  rw [hAction] at hSame ⊢
  rw [hServe] at hSame
  generalize console.cpu.perform console.lines .serveNmi
    ({ board := console.board } : TalliedBoard) = performed
    at hSame ⊢
  rcases performed with ⟨result, tallied⟩
  rcases Prod.mk.inj hSame with ⟨rfl, hBoard⟩
  have hPage : tallied.board.dma.page = none :=
    hBoard ▸ hSettled.page
  dsimp only [id]
  rw [Board.transferOam_of_none hPage]
  exact ⟨_, _, rfl, rfl⟩

/- A pending interrupt is served, whatever the flags are. -/
theorem Settled.serves
    {standard : VideoStandard}
    {console : Console}
    (hSettled : Settled standard console)
    (hPending : console.lines.nmiPending = true)
    (sink : σ) :
    ∃ raised next sink',
      console.tallyStep sink =
          (.ok ⟨7, .serveNmi, raised⟩, next, sink') ∧
        next.cpu =
          console.cpu.atNmiEntry console.board.program := by
  rcases hSettled.performed_pending hPending with
    ⟨written, executed, hExecute, hCpu⟩
  have hAction :=
    (console.cpu.nextAction_eq_serveNmi console.lines).mpr
      hPending
  unfold tallyStep
  rw [hExecute, hAction]
  exact ⟨_, _, _, rfl, hCpu⟩

/- A step succeeds if what it would execute is executed. -/
theorem tallyStep_isOk
    {console : Console}
    (hExecuted :
      (console.cpu.table.lookup
        (console.board.read console.pc).1).isNeverExecuted =
          false)
    (sink : σ) :
    ∃ tally next sink',
      console.tallyStep sink = (.ok tally, next, sink') := by
  rcases Cpu.step_isOk
    ({ board := console.board } : TalliedBoard)
    hExecuted console.lines with ⟨done, hDone⟩
  rw [Cpu.step_eq_perform] at hDone
  unfold tallyStep tallyExecute
  dsimp only
  generalize console.cpu.perform console.lines
    (console.cpu.nextAction console.lines)
    ({ board := console.board } : TalliedBoard) = performed
    at hDone ⊢
  rcases performed with ⟨result, tallied⟩
  cases hDone
  exact ⟨_, _, _, rfl⟩

------------------------------------------------------------
-- Power-On
------------------------------------------------------------

/- A console is settled when it is switched on. -/
theorem settled_powerOn
    {image : CartridgeImage}
    {settings : Settings}
    {start : Console}
    (hOn : powerOn image settings = .ok start) :
    Settled settings.standard start ∧
      start.lines.nmiPending = false := by
  rcases assembled_of_powerOn hOn with
    ⟨fresh, hAssembled, rfl⟩
  have hFresh := fresh_assembled hAssembled
  have hRestart := restart_eq hFresh.map
  have hReady : Ready settings.standard fresh.restart := by
    rw [hRestart]
    exact
      { map := hFresh.map
        table := OpcodeTable.wellTimed_atFidelity hFresh.table
        timing := hFresh.timing
        page := rfl
        level := rfl
        remainder := settings.standard.cycles_pos
        blank := fun hBlank =>
          absurd hBlank Bool.false_ne_true }
  have hOrigin :
      Ppu.QuietFor Ppu.dotsBeforeBlank
        fresh.restart.board.ppu := by
    rw [hRestart]
    exact fresh.board.ppu.quietFor_reset
  have hClocked := hReady.clocked Hardware.resetCycles
    (by decide) (by decide) ()
  rw [tallyClock_snd, ← reset_eq] at hClocked
  refine ⟨hClocked.settled, ?_⟩
  rw [hClocked.pending, hClocked.quiet hOrigin, hRestart]
  rfl

end Console

end Famicom
