import Famicom.Cpu.Execution
import Famicom.Cpu.OpcodeTable
import Famicom.Interrupts

/-
  The processor.

  A step executes one instruction or serves one interrupt and
  tells how many cycles it took.  Spending those cycles on
  the rest of the machine is up to the caller.

  Key definitions include:
    * `Cpu`
    * `Cpu.ofFidelity`
    * `Cpu.reset`
    * `Cpu.Step`
    * `Cpu.step`
-/

namespace Famicom

------------------------------------------------------------
-- Processor
------------------------------------------------------------

/-
  A decoding table, the registers, and whether the processor
  has been reset since it got power.
-/
structure Cpu where
  table : OpcodeTable
  registers : Registers
  powered : Bool

namespace Cpu

variable {β : Type} [AddressBus β]

/- A processor before its first reset. -/
def ofFidelity
    (fidelity : Fidelity) : Except MachineFault Cpu := do
  let table ← OpcodeTable.atFidelity fidelity
  return ⟨table, .powerOn, false⟩

------------------------------------------------------------
-- Reset
------------------------------------------------------------

/-
  The registers that a reset starts from.  The first reset
  gives the power-on state.  A later one moves the stack
  pointer as an interrupt would and disables interrupts.
-/
def resetRegisters (cpu : Cpu) : Registers :=
  let r := cpu.registers
  if cpu.powered then
    { r.putFlag .interruptDisable true with sp := r.sp - 3 }
  else
    .powerOn

/- Start at the address that the reset vector holds. -/
def reset (cpu : Cpu) : StateM β Cpu := do
  let start ← AddressBus.readWord Hardware.resetVector
  return { cpu with
    registers := { cpu.resetRegisters with pc := start }
    powered := true }

------------------------------------------------------------
-- Steps
------------------------------------------------------------

/- The processor and the lines after a step. -/
structure Step where
  cpu : Cpu
  lines : InterruptLines
  cycles : Nat

/- Serve a hardware interrupt. -/
def interrupt
    (cpu : Cpu)
    (lines : InterruptLines)
    (vector : UInt16) : StateM β Step := do
  let r ←
    cpu.registers.enterInterrupt vector cpu.registers.pc false
  return ⟨{ cpu with registers := r }, lines,
    Hardware.interruptCycles⟩

/- Fetch an opcode and execute its instruction. -/
def executeNext
    (cpu : Cpu)
    (lines : InterruptLines) :
    StateM β (Except MachineFault Step) := do
  let opcode ← AddressBus.read cpu.registers.pc
  let executed ←
    (cpu.table.lookup opcode).execute cpu.registers
  return executed.map fun done =>
    ⟨{ cpu with registers := done.registers }, lines,
      done.cycles⟩

/-
  Serve a pending interrupt or execute one instruction.  A
  pending edge is always taken.  The level is served only
  while interrupts are not disabled, and stays asserted.
-/
def step
    (cpu : Cpu)
    (lines : InterruptLines) :
    StateM β (Except MachineFault Step) :=
  let (pending, lines') := lines.takeNmi
  if pending then
    .ok <$> cpu.interrupt lines' Hardware.nmiVector
  else if
      lines.irqAsserted &&
        !cpu.registers.status.interruptDisable then
    .ok <$> cpu.interrupt lines Hardware.irqVector
  else
    cpu.executeNext lines

end Cpu

end Famicom
