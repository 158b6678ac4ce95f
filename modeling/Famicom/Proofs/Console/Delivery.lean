import Famicom.Proofs.Console.Metered
import Famicom.Proofs.Console.StepTally

/-
  No interrupt is lost, doubled or late.

  Through every run of steps from power-on, the interrupts
  that were asked for are those that have been served and the
  one that may be pending, which the next step serves.

  Key definitions include:
    * `Console.Reached`
    * `Console.raised`
    * `Console.served`
    * `Console.Accounted`

  Main declarations:
    * `Console.Accounted.step`
    * `Console.Reached.accounted`
    * `Console.nmis_accounted`
-/

namespace Famicom

namespace Console

------------------------------------------------------------
-- Runs
------------------------------------------------------------

/- Accesses that write neither the bus nor the lines. -/
def HostAccess.sparesSignals : HostAccess → Bool
  | .write _ _ => false
  | .setLines _ => false
  | .read _ => true
  | .setRegisters _ => true
  | .changePads _ => true

/-
  Consoles that successful steps lead to, each with any taker
  of pixels.  The host may access the console between steps,
  but does not write the bus or the lines.  The list has what
  the steps have done, the latest first.
-/
inductive Reached (start : Console) :
    Console → List StepTally → Prop
  | start : Reached start start []
  | step
      {σ : Type} [PixelSink σ]
      {console next : Console} {history : List StepTally}
      {sink sink' : σ} {tally : StepTally}
      (hRun : Reached start console history)
      (hStep :
        console.tallyStep sink = (.ok tally, next, sink')) :
      Reached start next (tally :: history)
  | access
      {console : Console} {history : List StepTally}
      (hRun : Reached start console history)
      (access : HostAccess)
      (hAccess : access.sparesSignals = true) :
      Reached start (console.afterAccess access) history

/- How often an interrupt was asked for. -/
def raised (history : List StepTally) : Nat :=
  (history.map StepTally.raised).sum

/- How often an interrupt was served. -/
def served (history : List StepTally) : Nat :=
  history.countP (·.action = .serveNmi)

/- Whether an interrupt was asked for in the latest step. -/
def RaisedLast (history : List StepTally) : Prop :=
  ∃ tally, history.head? = some tally ∧ tally.raised = 1

theorem Settled.afterAccess
    {standard : VideoStandard}
    {console : Console}
    (hSettled : Settled standard console)
    {access : HostAccess}
    (hAccess : access.sparesSignals = true) :
    Settled standard (console.afterAccess access) ∧
      (console.afterAccess access).lines = console.lines := by
  cases access with
  | write address value => cases hAccess
  | setLines lines => cases hAccess
  | setRegisters registers => exact ⟨{ hSettled with }, rfl⟩
  | changePads change => exact ⟨{ hSettled with }, rfl⟩
  | read address =>
      have hKeeps :
          Ppu.AccessKeeps console.board.ppu
            (console.board.read address).2.ppu :=
        Board.read_stable address
          (Ppu.accessKeeps_stable _) (.refl _)
      refine ⟨?_, rfl⟩
      exact
        { map := (Board.read_map _ _).trans hSettled.map
          table := hSettled.table
          timing := hKeeps.timing.trans hSettled.timing
          page :=
            (congrArg OamDma.page (Board.read_dma _ _)).trans
              hSettled.page
          level := hSettled.level
          remainder := hSettled.remainder
          blank := hSettled.blank.of_accessKeeps hKeeps
          quiet :=
            (Board.read_nmiRequested _ _).trans
              hSettled.quiet }

/- What a run has done adds up. -/
structure Accounted
    (standard : VideoStandard)
    (console : Console)
    (history : List StepTally) : Prop where
  settled : Settled standard console
  once : ∀ tally ∈ history, tally.raised ≤ 1
  pending :
    console.lines.nmiPending = true ↔ RaisedLast history
  balance :
    served history + console.lines.nmiPending.toNat =
      raised history

/- A step serves what is pending and leaves what it raises. -/
theorem Accounted.step
    {σ : Type}
    [PixelSink σ]
    {standard : VideoStandard}
    {console next : Console}
    {history : List StepTally}
    {sink sink' : σ}
    {tally : StepTally}
    (hAccounted : Accounted standard console history)
    (hStep :
      console.tallyStep sink = (.ok tally, next, sink')) :
    Accounted standard next (tally :: history) := by
  have hStepped := hAccounted.settled.stepped hStep
  have hOnce := hStepped.raised_le
  constructor
  · exact hStepped.settled
  · intro other hMember
    rcases List.mem_cons.mp hMember with rfl | hEarlier
    · exact hOnce
    · exact hAccounted.once other hEarlier
  · rw [hStepped.pending, decide_eq_true_iff]
    unfold RaisedLast
    rw [List.head?_cons]
    constructor
    · intro hSome
      exact ⟨tally, rfl, by omega⟩
    · rintro ⟨other, hSame, hOne⟩
      rw [Option.some.inj hSame, hOne]
      exact Nat.zero_lt_one
  · have hServed :
        served (tally :: history) =
          served history + console.lines.nmiPending.toNat := by
      unfold served
      rw [List.countP_cons, hStepped.action]
      simp only [Cpu.nextAction_eq_serveNmi]
      cases console.lines.nmiPending <;> rfl
    have hRaised :
        raised (tally :: history) =
          tally.raised + raised history := by
      unfold raised
      rw [List.map_cons, List.sum_cons]
    have hLatest :
        next.lines.nmiPending.toNat = tally.raised := by
      rw [hStepped.pending]
      rcases Nat.le_one_iff_eq_zero_or_eq_one.mp hOnce with
        hNone | hOne
      · rw [hNone]
        rfl
      · rw [hOne]
        rfl
    rw [hServed, hAccounted.balance, hRaised, hLatest,
      Nat.add_comm]

theorem Reached.accounted
    {standard : VideoStandard}
    {start console : Console}
    {history : List StepTally}
    (hStart : Settled standard start)
    (hNone : start.lines.nmiPending = false)
    (hRun : Reached start console history) :
    Accounted standard console history := by
  induction hRun with
  | start =>
      refine
        { settled := hStart
          once := fun _ hMember => absurd hMember
            List.not_mem_nil
          pending := ?_
          balance := ?_ }
      · rw [hNone]
        constructor
        · intro hPending
          exact absurd hPending Bool.false_ne_true
        · rintro ⟨_, hHead, -⟩
          cases hHead
      · rw [hNone]
        rfl
  | step _ hStep ih => exact ih.step hStep
  | access _ access hAccess ih =>
      rcases ih.settled.afterAccess hAccess with
        ⟨hSettled, hLines⟩
      exact
        { settled := hSettled
          once := ih.once
          pending := by
            rw [hLines]
            exact ih.pending
          balance := by
            rw [hLines]
            exact ih.balance }

/-
  Through every run of steps from power-on no interrupt is
  lost, doubled or late.  After each step the picture unit
  has passed on what it has asked for.  It has asked at most
  once, and an interrupt is pending exactly if it has.  The
  next step then serves it, whatever the registers hold, and
  otherwise executes an instruction.
-/
theorem nmis_accounted
    {image : CartridgeImage}
    {settings : Settings}
    {start console : Console}
    {history : List StepTally}
    (hOn : powerOn image settings = .ok start)
    (hRun : Reached start console history) :
    console.board.ppu.nmiRequested = false ∧
      (∀ tally ∈ history, tally.raised ≤ 1) ∧
      (console.lines.nmiPending = true ↔
        RaisedLast history) ∧
      served history + console.lines.nmiPending.toNat =
        raised history ∧
      ∀ {σ : Type} [PixelSink σ] (sink : σ),
        let stepped := console.tallyStep sink
        console.step sink =
            (stepped.1.map StepTally.cycles, stepped.2) ∧
          (console.lines.nmiPending = true →
            (∃ raised,
              stepped.1 = .ok ⟨7, .serveNmi, raised⟩) ∧
            stepped.2.1.cpu =
              console.cpu.atNmiEntry console.board.program) ∧
          (console.lines.nmiPending = false →
            ∀ tally,
              stepped.1 = .ok tally →
                tally.action = .execute) := by
  rcases settled_powerOn hOn with ⟨hStart, hNone⟩
  have hAccounted := hRun.accounted hStart hNone
  have hSettled := hAccounted.settled
  refine ⟨hSettled.quiet, hAccounted.once,
    hAccounted.pending, hAccounted.balance, ?_⟩
  intro σ _ sink stepped
  refine ⟨tallyStep_eq console sink, ?_, ?_⟩
  · intro hPending
    rcases hSettled.serves hPending sink with
      ⟨raised, next, sink', hStep, hCpu⟩
    have hStepped :
        stepped = (.ok ⟨7, .serveNmi, raised⟩, next, sink') :=
      hStep
    rw [hStepped]
    exact ⟨⟨raised, rfl⟩, hCpu⟩
  · intro hQuiet tally hOk
    have hStep :
        console.tallyStep sink =
          (.ok tally, stepped.2.1, stepped.2.2) :=
      Prod.ext hOk rfl
    have hStepped := hSettled.stepped hStep
    rw [hStepped.action]
    exact console.cpu.nextAction_eq_execute hQuiet
      hSettled.level

/- A program that does nothing runs into its first step. -/
theorem nmis_accounted_idle :
    let image : CartridgeImage :=
      { programRom := Array.replicate 0x4000 0xEA }
    ∃ (start next : Console) (tally : StepTally),
      powerOn image {} = .ok start ∧
        Reached start next [tally] ∧
        served [tally] + next.lines.nmiPending.toNat =
          raised [tally] := by
  intro image
  rcases
      powerOn_isOk (Cartridge.ofImage_replicate 0xEA) {} with
    ⟨start, hOn⟩
  rcases assembled_of_powerOn hOn with
    ⟨fresh, hAssembled, hReset⟩
  have hFresh := fresh_assembled hAssembled
  rcases reset_pc hFresh.map with ⟨hPc, hProgram, hTable⟩
  rw [hReset] at hPc hProgram hTable
  have hByte
      (address : UInt16)
      (hAddress : Hardware.cartridgeRomStart ≤ address) :
      start.board.program.read address = 0xEA := by
    rw [hProgram]
    exact ProgramMemory.read_replicate hFresh.program hAddress
  have hHere : start.pc = 0xEAEA := by
    rw [hPc, ← hProgram]
    unfold ProgramMemory.word
    rw [hByte 0xFFFC (by decide),
      hByte (0xFFFC + 1) (by decide)]
    rfl
  have hFetched :
      (start.board.read start.pc).1 = 0xEA := by
    have hMap := (settled_powerOn hOn).1.map
    rw [hHere, Board.read_cartridge hMap (by decide)]
    exact hByte 0xEAEA (by decide)
  have hExecuted :
      (start.cpu.table.lookup
        (start.board.read start.pc).1).isNeverExecuted =
          false := by
    rcases
        OpcodeTable.lookup_spec (hTable ▸ hFresh.table) 0xEA with
      ⟨hMember, hOpcode⟩
    rw [hFetched]
    exact OpcodeTable.isNeverExecuted_nop hMember hOpcode
  rcases tallyStep_isOk hExecuted () with
    ⟨tally, next, sink, hStep⟩
  have hRun : Reached start next [tally] :=
    .step .start hStep
  exact ⟨start, next, tally, hOn, hRun,
    (nmis_accounted hOn hRun).2.2.2.1⟩

end Console

end Famicom
