import Famicom.BusLog
import Famicom.Proofs.Cpu.DecodingTable

/-
  What a step of the processor does.

  A step is one of three actions: it serves the edge, it
  serves the level, or it executes an instruction.  Only the
  last one can fail, and then all it has done is to fetch the
  opcode.

  Key definitions include:
    * `Cpu.Action`
    * `Cpu.nextAction`
    * `Cpu.perform`
    * `Cpu.Fetches`
    * `Operation.Faults`
    * `Cpu.Refuses`

  Main declarations:
    * `Cpu.step_eq_perform`
    * `Cpu.step_of_fetches`
    * `Cpu.cpu_of_step`
    * `Instruction.execute_eq_error_iff`
    * `Cpu.step_eq_error_iff`
-/

namespace Famicom

------------------------------------------------------------
-- Actions
------------------------------------------------------------

namespace Cpu

/- What a step can do. -/
inductive Action where
  | serveNmi
  | serveIrq
  | execute
deriving DecidableEq

/- What the next step does. -/
def nextAction
    (cpu : Cpu)
    (lines : InterruptLines) : Action :=
  if lines.nmiPending then
    .serveNmi
  else if
      lines.irqAsserted &&
        !cpu.registers.status.interruptDisable then
    .serveIrq
  else
    .execute

/- Perform an action. -/
def perform
    {β : Type}
    [AddressBus β]
    (cpu : Cpu)
    (lines : InterruptLines) :
    Action → StateM β (Except MachineFault Step)
  | .serveNmi =>
      .ok <$> cpu.interrupt lines.takeNmi.2 Hardware.nmiVector
  | .serveIrq =>
      .ok <$> cpu.interrupt lines Hardware.irqVector
  | .execute => cpu.executeNext lines

/- A step performs the action that is next. -/
theorem step_eq_perform
    {β : Type}
    [AddressBus β]
    (cpu : Cpu)
    (lines : InterruptLines) :
    (cpu.step lines : StateM β (Except MachineFault Step)) =
      cpu.perform lines (cpu.nextAction lines) := by
  unfold step nextAction InterruptLines.takeNmi
  dsimp only
  by_cases hPending : lines.nmiPending = true
  · rw [if_pos hPending, if_pos hPending]
    rfl
  · rw [if_neg hPending, if_neg hPending]
    split <;> rfl

/- An edge is served if and only if it is pending. -/
theorem nextAction_eq_serveNmi
    (cpu : Cpu)
    (lines : InterruptLines) :
    cpu.nextAction lines = .serveNmi ↔
      lines.nmiPending = true := by
  unfold nextAction
  constructor
  · intro hServes
    by_contra hQuiet
    rw [if_neg hQuiet] at hServes
    split at hServes <;> cases hServes
  · intro hPending
    exact if_pos hPending

/- The level is served if it is allowed and no edge is. -/
theorem nextAction_eq_serveIrq
    (cpu : Cpu)
    (lines : InterruptLines) :
    cpu.nextAction lines = .serveIrq ↔
      lines.nmiPending = false ∧
        lines.irqAsserted = true ∧
        cpu.registers.status.interruptDisable = false := by
  unfold nextAction
  cases lines.nmiPending <;> cases lines.irqAsserted <;>
    cases cpu.registers.status.interruptDisable <;> simp

/- While nothing is asked for, instructions are executed. -/
theorem nextAction_eq_execute
    (cpu : Cpu)
    {lines : InterruptLines}
    (hEdge : lines.nmiPending = false)
    (hLevel : lines.irqAsserted = false) :
    cpu.nextAction lines = .execute := by
  unfold nextAction
  rw [hEdge, hLevel]
  rfl

/-
  The next step executes an instruction, and fetches this
  opcode for it.
-/
structure Fetches
    {β : Type}
    [AddressBus β]
    (cpu : Cpu)
    (lines : InterruptLines)
    (bus : β)
    (opcode : UInt8) : Prop where
  action : cpu.nextAction lines = .execute
  opcode : (AddressBus.read cpu.registers.pc bus).1 = opcode

/- The step of an execution that has succeeded. -/
def stepOf
    (cpu : Cpu)
    (lines : InterruptLines)
    (done : Executed) : Step :=
  ⟨{ cpu with registers := done.registers }, lines,
    done.cycles⟩

/- Such a step is the execution of what is decoded. -/
theorem step_of_fetches
    {β : Type}
    [AddressBus β]
    {cpu : Cpu}
    {lines : InterruptLines}
    {bus : β}
    {opcode : UInt8}
    (hFetches : cpu.Fetches lines bus opcode) :
    cpu.step lines bus =
      ((cpu.table.lookup opcode).execute cpu.registers
        (AddressBus.read cpu.registers.pc bus).2).map
          (·.map (cpu.stepOf lines)) id := by
  rw [step_eq_perform, hFetches.action, ← hFetches.opcode]
  rfl

/- If the step succeeds, so has the execution. -/
theorem executed_of_fetches
    {β : Type}
    [AddressBus β]
    {cpu : Cpu}
    {lines : InterruptLines}
    {bus : β}
    {opcode : UInt8}
    {done : Step}
    (hFetches : cpu.Fetches lines bus opcode)
    (hStep : (cpu.step lines bus).1 = .ok done) :
    ∃ executed,
      ((cpu.table.lookup opcode).execute cpu.registers
        (AddressBus.read cpu.registers.pc bus).2).1 =
          .ok executed ∧
        cpu.stepOf lines executed = done := by
  rw [step_of_fetches hFetches] at hStep
  generalize
    (cpu.table.lookup opcode).execute cpu.registers
      (AddressBus.read cpu.registers.pc bus).2 = ran
    at hStep ⊢
  rcases ran with ⟨result, after⟩
  cases result with
  | error fault => cases hStep
  | ok executed => exact ⟨executed, rfl, Except.ok.inj hStep⟩

/- A step changes the registers and nothing else. -/
theorem cpu_of_step
    {β : Type}
    [AddressBus β]
    {cpu : Cpu}
    {lines : InterruptLines}
    {bus : β}
    {done : Step}
    (hStep : (cpu.step lines bus).1 = .ok done) :
    ∃ registers, done.cpu = { cpu with registers } := by
  cases hAction : cpu.nextAction lines with
  | serveNmi | serveIrq =>
      rw [step_eq_perform, hAction] at hStep
      cases hStep
      exact ⟨_, rfl⟩
  | execute =>
      rcases executed_of_fetches ⟨hAction, rfl⟩ hStep with
        ⟨executed, -, rfl⟩
      exact ⟨_, rfl⟩

end Cpu

------------------------------------------------------------
-- Instructions
------------------------------------------------------------

/- The fault of an opcode that is never executed. -/
def Operation.Faults
    (operation : Operation)
    (opcode : UInt8)
    (address : UInt16)
    (fault : MachineFault) : Prop :=
  operation = .jam ∧ fault = .jammed opcode address ∨
    operation = .unsupported ∧
      fault = .unsupportedOpcode opcode address

section Processor

variable {β : Type} [AddressBus β]
variable {bus after : β}
variable {fault : MachineFault}

/- Two kinds of instructions fail, before any access. -/
theorem Instruction.execute_eq_error_iff
    {i : Instruction}
    {r : Registers} :
    i.execute r bus = (.error fault, after) ↔
      i.operation.Faults i.opcode r.pc fault ∧
        after = bus := by
  unfold execute Operation.Faults
  cases i.operation with
  | jam =>
      constructor
      · intro hFails
        cases hFails
        exact ⟨.inl ⟨rfl, rfl⟩, rfl⟩
      · rintro ⟨⟨-, rfl⟩ | ⟨hNone, -⟩, rfl⟩
        · rfl
        · cases hNone
  | unsupported =>
      constructor
      · intro hFails
        cases hFails
        exact ⟨.inr ⟨rfl, rfl⟩, rfl⟩
      · rintro ⟨⟨hJam, -⟩ | ⟨-, rfl⟩, rfl⟩
        · cases hJam
        · rfl
  | _ =>
      constructor
      · intro hDone
        cases congrArg Prod.fst hDone
      · rintro ⟨⟨hJam, -⟩ | ⟨hNone, -⟩, -⟩
        · cases hJam
        · cases hNone

namespace Cpu

variable {cpu : Cpu}
variable {lines : InterruptLines}

------------------------------------------------------------
-- Processor
------------------------------------------------------------

/-
  No interrupt is served, and the opcode at the program
  counter is never executed.  The fault names both.
-/
structure Refuses
    (cpu : Cpu)
    (lines : InterruptLines)
    (bus : β)
    (fault : MachineFault) : Prop where
  edge : lines.nmiPending = false
  level :
    ¬(lines.irqAsserted = true ∧
      cpu.registers.status.interruptDisable = false)
  entry :
    let pc := cpu.registers.pc
    let opcode := (AddressBus.read pc bus).1
    (cpu.table.lookup opcode).operation.Faults opcode pc fault

theorem nextAction_eq_execute_iff :
    cpu.nextAction lines = .execute ↔
      lines.nmiPending = false ∧
        ¬(lines.irqAsserted = true ∧
          cpu.registers.status.interruptDisable = false) := by
  unfold nextAction
  cases lines.nmiPending <;> cases lines.irqAsserted <;>
    cases cpu.registers.status.interruptDisable <;> simp

/- Serving an interrupt does not fail. -/
theorem perform_ne_error
    {action : Action}
    (hAction : action ≠ .execute) :
    cpu.perform lines action bus ≠ (.error fault, after) := by
  intro hFails
  cases action with
  | serveNmi => cases congrArg Prod.fst hFails
  | serveIrq => cases congrArg Prod.fst hFails
  | execute => exact hAction rfl

theorem executeNext_eq_error_iff
    {fidelity : Fidelity}
    (hTable :
      OpcodeTable.atFidelity fidelity = .ok cpu.table) :
    cpu.executeNext lines bus = (.error fault, after) ↔
      let fetched := AddressBus.read cpu.registers.pc bus
      (cpu.table.lookup fetched.1).operation.Faults
          fetched.1 cpu.registers.pc fault ∧
        after = fetched.2 := by
  let fetched := AddressBus.read cpu.registers.pc bus
  let i := cpu.table.lookup fetched.1
  have hOpcode : i.opcode = fetched.1 :=
    (OpcodeTable.lookup_spec hTable fetched.1).2
  have hRun :
      cpu.executeNext lines bus =
        (i.execute cpu.registers fetched.2).map
          (·.map fun done =>
            ⟨{ cpu with registers := done.registers }, lines,
              done.cycles⟩) id :=
    rfl
  have hFails :
      cpu.executeNext lines bus = (.error fault, after) ↔
        i.execute cpu.registers fetched.2 =
          (.error fault, after) := by
    rw [hRun]
    rcases i.execute cpu.registers fetched.2 with ⟨result, _⟩
    cases result with
    | error fault =>
        constructor
        · intro hFails
          cases hFails
          rfl
        · intro hFails
          cases hFails
          rfl
    | ok done =>
        constructor
        · intro hFails
          cases congrArg Prod.fst hFails
        · intro hFails
          cases congrArg Prod.fst hFails
  rw [hFails, Instruction.execute_eq_error_iff, hOpcode]

/- A step fails exactly if the processor refuses. -/
theorem step_eq_error_iff
    {fidelity : Fidelity}
    (hTable :
      OpcodeTable.atFidelity fidelity = .ok cpu.table) :
    cpu.step lines bus = (.error fault, after) ↔
      cpu.Refuses lines bus fault ∧
        after = (AddressBus.read cpu.registers.pc bus).2 := by
  rw [step_eq_perform]
  by_cases hAction : cpu.nextAction lines = .execute
  · rcases nextAction_eq_execute_iff.mp hAction with
      ⟨hEdge, hLevel⟩
    rw [hAction]
    refine (executeNext_eq_error_iff hTable).trans ?_
    refine and_congr_left fun _ => ?_
    exact ⟨fun hEntry => ⟨hEdge, hLevel, hEntry⟩,
      Refuses.entry⟩
  · constructor
    · intro hFails
      exact absurd hFails (perform_ne_error hAction)
    · rintro ⟨hRefuses, -⟩
      exact absurd (nextAction_eq_execute_iff.mpr
        ⟨hRefuses.edge, hRefuses.level⟩) hAction

/- Its only access is the fetch. -/
theorem recorded_step_eq_error_iff
    {fidelity : Fidelity}
    (hTable :
      OpcodeTable.atFidelity fidelity = .ok cpu.table)
    {recorded : Recorded β} :
    cpu.step lines (Recorded.mk bus []) =
        (.error fault, recorded) ↔
      cpu.Refuses lines bus fault ∧
        recorded.bus =
          (AddressBus.read cpu.registers.pc bus).2 ∧
        recorded.accesses =
          [.read cpu.registers.pc
            (AddressBus.read cpu.registers.pc bus).1] := by
  have hEntry :
      cpu.Refuses lines (Recorded.mk bus []) fault ↔
        cpu.Refuses lines bus fault :=
    ⟨fun h => ⟨h.edge, h.level, h.entry⟩,
      fun h => ⟨h.edge, h.level, h.entry⟩⟩
  rw [step_eq_error_iff hTable, hEntry]
  refine and_congr_right fun _ => ?_
  rcases recorded with ⟨seen, log⟩
  constructor
  · intro hAfter
    cases hAfter
    exact ⟨rfl, rfl⟩
  · rintro ⟨hBus, hLog⟩
    cases hBus
    cases List.reverse_eq_iff.mp hLog
    rfl

end Cpu

end Processor

end Famicom
