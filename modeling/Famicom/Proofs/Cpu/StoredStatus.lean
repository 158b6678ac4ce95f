import Famicom.Proofs.Cpu.Actions
import Famicom.Proofs.Cpu.StatusByte

/-
  The status that the processor stores.

  Calculations decide the arithmetic flags and no others.  So
  the break flag is never stored, and only three operations
  let interrupt requests through again.

  Key definitions include:
    * `Status.SameModes`
    * `Operation.mayAllow`
    * `Status.Successor`
    * `Cpu.Driven`
    * `Cpu.Reached`

  Main declarations:
    * `Instruction.execute_successor`
    * `OpcodeTable.mayAllow_lookup_iff`
    * `Cpu.Driven.breakMark`
-/

namespace Famicom

------------------------------------------------------------
-- Successors of a Status
------------------------------------------------------------

namespace Status

/- Two statuses agree on what results do not decide. -/
structure SameModes (old new : Status) : Prop where
  breakMark : new.breakMark = old.breakMark
  interruptDisable :
    new.interruptDisable = old.interruptDisable

/-
  What may follow a status: the break flag stays clear, and
  the interrupt disable flag stays set unless the operation
  is one that may clear it.
-/
structure Successor
    (mayAllow : Bool)
    (old new : Status) : Prop where
  breakMark :
    old.breakMark = false → new.breakMark = false
  interruptDisable :
    old.interruptDisable = true →
      mayAllow = false → new.interruptDisable = true

theorem SameModes.successor
    {old new : Status}
    (hSame : SameModes old new)
    (mayAllow : Bool) :
    Successor mayAllow old new where
  breakMark := hSame.breakMark.trans
  interruptDisable := fun hSet _ =>
    hSame.interruptDisable.trans hSet

end Status

------------------------------------------------------------
-- Operations
------------------------------------------------------------

open Status (SameModes Successor)

/-
  Whether an operation may let interrupt requests through.
-/
def Operation.mayAllow : Operation → Bool
  | .implied op => op == .cli
  | .pull op => op == .plp
  | .interruptReturn => true
  | _ => false

theorem ReadOp.apply_sameModes
    (op : ReadOp)
    (r : Registers)
    (operand : UInt8) :
    SameModes r.status (op.apply r operand).status := by
  cases op <;> exact ⟨rfl, rfl⟩

theorem ModifyOp.apply_sameModes
    (op : ModifyOp)
    (r : Registers)
    (operand : UInt8) :
    SameModes r.status (op.apply r operand).2.status := by
  cases op <;> exact ⟨rfl, rfl⟩

theorem RegisterOp.apply_successor
    (op : RegisterOp)
    (r : Registers) :
    Successor (Operation.implied op).mayAllow r.status
      (op.apply r).status := by
  cases op with
  | cli =>
      constructor
      · exact id
      · intro _ hNot
        cases hNot
  | sei =>
      constructor
      · exact id
      · intro _ _
        rfl
  | _ =>
      apply SameModes.successor
      exact ⟨rfl, rfl⟩

theorem PullOp.apply_successor
    (op : PullOp)
    (r : Registers)
    (value : UInt8) :
    Successor (Operation.pull op).mayAllow r.status
      (op.apply r value).status := by
  cases op with
  | pla =>
      apply SameModes.successor
      exact ⟨rfl, rfl⟩
  | plp =>
      constructor
      · intro _
        rfl
      · intro _ hNot
        cases hNot

------------------------------------------------------------
-- Instructions
------------------------------------------------------------

section Processor

variable {β : Type} [AddressBus β]

namespace Instruction

variable (i : Instruction) (r : Registers) (bus : β)

theorem executeRead_sameModes (op : ReadOp) :
    SameModes r.status
      (i.executeRead op r bus).1.registers.status :=
  op.apply_sameModes (i.advance r) _

theorem executeModify_sameModes (op : ModifyOp) :
    SameModes r.status
      (i.executeModify op r bus).1.registers.status := by
  unfold executeModify
  split
  · exact op.apply_sameModes (i.advance r) r.a
  · exact op.apply_sameModes (i.advance r) _

theorem executeBranch_sameModes (condition : Condition) :
    SameModes r.status
      (i.executeBranch condition r bus).1.registers.status := by
  unfold executeBranch
  simp only [bind, StateT.bind]
  by_cases hTaken : condition.holds r.status = true
  · simp only [hTaken, if_true]
    exact ⟨rfl, rfl⟩
  · simp only [hTaken, Bool.false_eq_true, if_false]
    exact ⟨rfl, rfl⟩

/- What an executed instruction does to the status. -/
theorem execute_successor
    {done : Executed}
    (hDone : (i.execute r bus).1 = .ok done) :
    Successor i.operation.mayAllow r.status
      done.registers.status := by
  unfold execute at hDone
  cases hOperation : i.operation with
  | jam | unsupported =>
      rw [hOperation] at hDone
      cases hDone
  | implied op =>
      rw [hOperation] at hDone
      cases hDone
      exact op.apply_successor (i.advance r)
  | read op =>
      rw [hOperation] at hDone
      cases hDone
      exact (i.executeRead_sameModes r bus op).successor _
  | modify op =>
      rw [hOperation] at hDone
      cases hDone
      exact (i.executeModify_sameModes r bus op).successor _
  | branch condition =>
      rw [hOperation] at hDone
      cases hDone
      exact (i.executeBranch_sameModes r bus
        condition).successor _
  | pull op =>
      rw [hOperation] at hDone
      cases hDone
      exact op.apply_successor
        { i.advance r with sp := r.sp + 1 } _
  | softwareInterrupt =>
      rw [hOperation] at hDone
      cases hDone
      exact ⟨id, fun _ _ => rfl⟩
  | interruptReturn =>
      rw [hOperation] at hDone
      cases hDone
      constructor
      · intro _
        rfl
      · intro _ hNot
        cases hNot
  | store _ | push _ | jump | call | subroutineReturn =>
      rw [hOperation] at hDone
      cases hDone
      apply SameModes.successor
      exact ⟨rfl, rfl⟩

end Instruction

------------------------------------------------------------
-- Opcodes
------------------------------------------------------------

/- CLI, PLP and RTI are the opcodes of those operations. -/
theorem OpcodeTable.mayAllow_lookup_iff
    {fidelity : Fidelity}
    {table : OpcodeTable}
    (hTable : atFidelity fidelity = .ok table)
    (opcode : UInt8) :
    (table.lookup opcode).operation.mayAllow = true ↔
      opcode = 0x58 ∨ opcode = 0x28 ∨ opcode = 0x40 := by
  have hAll :
      (Opcodes.atFidelity fidelity).all (fun i =>
        i.operation.mayAllow ==
          decide (i.opcode = 0x58 ∨ i.opcode = 0x28 ∨
            i.opcode = 0x40)) = true := by
    cases fidelity <;> decide +kernel
  rcases lookup_spec hTable opcode with ⟨hMember, hOpcode⟩
  have hHere := List.all_eq_true.mp hAll _ hMember
  rw [beq_iff_eq.mp hHere, hOpcode, decide_eq_true_iff]

------------------------------------------------------------
-- Steps
------------------------------------------------------------

namespace Cpu

/- What a step does to the status. -/
theorem step_successor
    {cpu : Cpu}
    {lines : InterruptLines}
    {bus : β}
    {done : Step}
    (hStep : (cpu.step lines bus).1 = .ok done) :
    Successor
      (decide (cpu.nextAction lines = .execute) &&
        (cpu.table.lookup
          (AddressBus.read cpu.registers.pc bus).1
          ).operation.mayAllow)
      cpu.registers.status done.cpu.registers.status := by
  cases hAction : cpu.nextAction lines with
  | serveNmi =>
      rw [step_eq_perform, hAction] at hStep
      cases hStep
      exact ⟨id, fun _ _ => rfl⟩
  | serveIrq =>
      rw [step_eq_perform, hAction] at hStep
      cases hStep
      exact ⟨id, fun _ _ => rfl⟩
  | execute =>
      rcases executed_of_fetches ⟨hAction, rfl⟩ hStep with
        ⟨executed, hExecuted, rfl⟩
      exact Instruction.execute_successor _ _ _ hExecuted

------------------------------------------------------------
-- Reached States
------------------------------------------------------------

/- A new processor has the registers of power-on. -/
theorem ofFidelity_eq_ok
    {fidelity : Fidelity}
    {cpu : Cpu}
    (hNew : ofFidelity fidelity = .ok cpu) :
    ∃ table, OpcodeTable.atFidelity fidelity = .ok table ∧
      cpu = ⟨table, .powerOn, false⟩ := by
  unfold ofFidelity at hNew
  cases hTable : OpcodeTable.atFidelity fidelity with
  | error fault =>
      rw [hTable] at hNew
      cases hNew
  | ok table =>
      rw [hTable] at hNew
      cases hNew
      exact ⟨table, rfl, rfl⟩

/-
  The states of a processor that has been switched on,
  whether it is reset or not, whatever is on the bus and
  whatever the lines ask for.
-/
inductive Driven (fidelity : Fidelity) : Cpu → Prop
  | new {cpu : Cpu}
      (hNew : ofFidelity fidelity = .ok cpu) :
      Driven fidelity cpu
  | reset {β : Type} [AddressBus β] {cpu : Cpu} (bus : β)
      (hDriven : Driven fidelity cpu) :
      Driven fidelity (cpu.reset bus).1
  | step {β : Type} [AddressBus β] {cpu : Cpu}
      {lines : InterruptLines} {bus : β} {done : Step}
      (hDriven : Driven fidelity cpu)
      (hStep : (cpu.step lines bus).1 = .ok done) :
      Driven fidelity done.cpu

namespace Driven

variable {fidelity : Fidelity} {cpu : Cpu}

/- Their table is the one of their fidelity. -/
theorem table
    (hDriven : Driven fidelity cpu) :
    OpcodeTable.atFidelity fidelity = .ok cpu.table := by
  induction hDriven with
  | new hNew =>
      rcases ofFidelity_eq_ok hNew with ⟨table, hTable, rfl⟩
      exact hTable
  | reset _ _ ih => exact ih
  | step _ hStep ih =>
      rcases cpu_of_step hStep with ⟨registers, hCpu⟩
      rw [hCpu]
      exact ih

/- They do not store the break flag. -/
theorem breakMark
    (hDriven : Driven fidelity cpu) :
    cpu.registers.status.breakMark = false := by
  induction hDriven with
  | new hNew =>
      rcases ofFidelity_eq_ok hNew with ⟨table, -, rfl⟩
      rfl
  | @reset β _ cpu bus _ ih =>
      show cpu.resetRegisters.status.breakMark = false
      unfold resetRegisters
      split
      · exact ih
      · rfl
  | step _ hStep ih => exact (step_successor hStep).breakMark ih

end Driven

/-
  The states of a processor that has been reset, whatever is
  on the bus and whatever the lines ask for.
-/
inductive Reached (fidelity : Fidelity) : Cpu → Prop
  | start {β : Type} [AddressBus β] {cpu : Cpu} (bus : β)
      (hNew : ofFidelity fidelity = .ok cpu) :
      Reached fidelity (cpu.reset bus).1
  | reset {β : Type} [AddressBus β] {cpu : Cpu} (bus : β)
      (hReached : Reached fidelity cpu) :
      Reached fidelity (cpu.reset bus).1
  | step {β : Type} [AddressBus β] {cpu : Cpu}
      {lines : InterruptLines} {bus : β} {done : Step}
      (hReached : Reached fidelity cpu)
      (hStep : (cpu.step lines bus).1 = .ok done) :
      Reached fidelity done.cpu

namespace Reached

variable {fidelity : Fidelity} {cpu : Cpu}

theorem driven
    (hReached : Reached fidelity cpu) :
    Driven fidelity cpu := by
  induction hReached with
  | start bus hNew => exact .reset bus (.new hNew)
  | reset bus _ ih => exact .reset bus ih
  | step _ hStep ih => exact .step ih hStep

theorem table
    (hReached : Reached fidelity cpu) :
    OpcodeTable.atFidelity fidelity = .ok cpu.table :=
  hReached.driven.table

theorem breakMark
    (hReached : Reached fidelity cpu) :
    cpu.registers.status.breakMark = false :=
  hReached.driven.breakMark

end Reached

end Cpu

end Processor

end Famicom
