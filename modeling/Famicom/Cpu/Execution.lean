import Famicom.Cpu.Addressing
import Famicom.MachineFault

/-
  The execution of single instructions and of the interrupt
  sequence.

  Execution starts with the program counter on the opcode,
  which has been fetched already.  A failing instruction
  yields no registers at all, so it cannot have changed any.

  Key definitions include:
    * `Executed`
    * `Registers.enterInterrupt`
    * `Instruction.execute`
-/

namespace Famicom

------------------------------------------------------------
-- Interrupt Sequence
------------------------------------------------------------

namespace Registers

variable {β : Type} [AddressBus β]

/-
  Save the return address and the status, disable interrupts
  and continue at the address that a vector holds.
-/
def enterInterrupt
    (r : Registers)
    (vector returnAddress : UInt16)
    (software : Bool) : StateM β Registers := do
  let r ← r.pushWord returnAddress
  let r ← r.push (r.status.toStack software)
  let target ← AddressBus.readWord vector
  return { r.putFlag .interruptDisable true with pc := target }

end Registers

------------------------------------------------------------
-- Instructions
------------------------------------------------------------

/- The registers after an instruction and its cycles. -/
structure Executed where
  registers : Registers
  cycles : Nat
deriving DecidableEq

namespace Instruction

variable {β : Type} [AddressBus β]

/- The address of the instruction after this one. -/
def next
    (i : Instruction)
    (r : Registers) : UInt16 :=
  r.pc + i.bytes.toUInt16

/- The registers on the next instruction. -/
def advance
    (i : Instruction)
    (r : Registers) : Registers :=
  { r with pc := i.next r }

/- Read an operand, and pay for a page crossing. -/
def executeRead
    (i : Instruction)
    (op : ReadOp)
    (r : Registers) : StateM β Executed := do
  let operand ← i.mode.resolve r false
  let value ← AddressBus.read operand.address
  let extra :=
    if operand.pageCrossed then i.pageCrossingCost else 0
  return ⟨op.apply (i.advance r) value, i.cycles + extra⟩

/- Store a byte. -/
def executeStore
    (i : Instruction)
    (op : StoreOp)
    (r : Registers) : StateM β Executed := do
  let operand ← i.mode.resolve r true
  AddressBus.write operand.address (op.value r)
  return ⟨i.advance r, i.cycles⟩

/-
  Change a byte in place.  In memory the byte is written back
  unchanged while the result is being computed.
-/
def executeModify
    (i : Instruction)
    (op : ModifyOp)
    (r : Registers) : StateM β Executed := do
  if i.mode = .accumulator then
    let (result, r') := op.apply (i.advance r) r.a
    return ⟨{ r' with a := result }, i.cycles⟩
  else
    let operand ← i.mode.resolve r true
    let value ← AddressBus.read operand.address
    AddressBus.write operand.address value
    let (result, r') := op.apply (i.advance r) value
    AddressBus.write operand.address result
    return ⟨r', i.cycles⟩

/-
  Branch relative to the next instruction.  A taken branch
  takes one more cycle, and two if it leaves that page.
-/
def executeBranch
    (i : Instruction)
    (condition : Condition)
    (r : Registers) : StateM β Executed := do
  let offset ← AddressBus.read (r.pc + 1)
  let next := i.next r
  let target := Bits.displace next offset
  if condition.holds r.status then
    let far := Bits.differentPages next target
    return ⟨{ r with pc := target },
      i.cycles + if far then 2 else 1⟩
  else
    return ⟨{ r with pc := next }, i.cycles⟩

/- Jump to the operand's address. -/
def executeJump
    (i : Instruction)
    (r : Registers) : StateM β Executed := do
  let operand ← i.mode.resolve r false
  return ⟨{ r with pc := operand.address }, i.cycles⟩

/-
  Call a subroutine.  The saved address is the last byte of
  the calling instruction.
-/
def executeCall
    (i : Instruction)
    (r : Registers) : StateM β Executed := do
  let target ← AddressBus.readWord (r.pc + 1)
  let r' ← r.pushWord (i.next r - 1)
  return ⟨{ r' with pc := target }, i.cycles⟩

/- Return to the instruction after a call. -/
def executeReturn
    (i : Instruction)
    (r : Registers) : StateM β Executed := do
  let (address, r') ← r.pullWord
  return ⟨{ r' with pc := address + 1 }, i.cycles⟩

/- Return to where an interrupt was taken. -/
def executeInterruptReturn
    (i : Instruction)
    (r : Registers) : StateM β Executed := do
  let (status, r') ← r.pull
  let (address, r'') ← r'.pullWord
  return ⟨{ r'' with
    status := .ofStack status, pc := address }, i.cycles⟩

/-
  Interrupt by software.  The byte after the opcode is
  padding, which the return address skips.
-/
def executeSoftwareInterrupt
    (i : Instruction)
    (r : Registers) : StateM β Executed := do
  let r' ←
    r.enterInterrupt Hardware.irqVector (i.next r + 1) true
  return ⟨r', i.cycles⟩

/- Push a byte. -/
def executePush
    (i : Instruction)
    (op : PushOp)
    (r : Registers) : StateM β Executed := do
  let r' ← (i.advance r).push (op.value r)
  return ⟨r', i.cycles⟩

/- Pull a byte. -/
def executePull
    (i : Instruction)
    (op : PullOp)
    (r : Registers) : StateM β Executed := do
  let (value, r') ← (i.advance r).pull
  return ⟨op.apply r' value, i.cycles⟩

/- Execute an instruction at the program counter. -/
def execute
    (i : Instruction)
    (r : Registers) :
    StateM β (Except MachineFault Executed) :=
  match i.operation with
  | .implied op =>
      return .ok ⟨op.apply (i.advance r), i.cycles⟩
  | .read op => .ok <$> i.executeRead op r
  | .store op => .ok <$> i.executeStore op r
  | .modify op => .ok <$> i.executeModify op r
  | .branch condition => .ok <$> i.executeBranch condition r
  | .push op => .ok <$> i.executePush op r
  | .pull op => .ok <$> i.executePull op r
  | .jump => .ok <$> i.executeJump r
  | .call => .ok <$> i.executeCall r
  | .subroutineReturn => .ok <$> i.executeReturn r
  | .softwareInterrupt =>
      .ok <$> i.executeSoftwareInterrupt r
  | .interruptReturn => .ok <$> i.executeInterruptReturn r
  | .jam => return .error (.jammed i.opcode r.pc)
  | .unsupported =>
      return .error (.unsupportedOpcode i.opcode r.pc)

end Instruction

end Famicom
