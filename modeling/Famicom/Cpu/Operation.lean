import Famicom.Cpu.Arithmetic

/-
  What an instruction does, apart from where its operand is.

  Operations are grouped by the traffic they cause: none, a
  read, a write, a read with a write back, a branch, a push,
  a pull, or a transfer of control.

  Key definitions include:
    * `RegisterOp`
    * `ReadOp`
    * `StoreOp`
    * `ModifyOp`
    * `Condition`
    * `PushOp`
    * `PullOp`
    * `Operation`
    * `Operation.kind`
-/

namespace Famicom

------------------------------------------------------------
-- Registers Only
------------------------------------------------------------

/- Operations on registers alone. -/
inductive RegisterOp where
  | tax | tay | tsx | txa | txs | tya
  | dex | dey | inx | iny
  | clc | cld | cli | clv | sec | sed | sei
  | nop
deriving DecidableEq

/- The registers after an operation. -/
def RegisterOp.apply
    (r : Registers) : RegisterOp → Registers
  | tax => r.loadX r.a
  | tay => r.loadY r.a
  | tsx => r.loadX r.sp
  | txa => r.loadA r.x
  | txs => { r with sp := r.x }
  | tya => r.loadA r.y
  | dex => r.loadX (r.x - 1)
  | dey => r.loadY (r.y - 1)
  | inx => r.loadX (r.x + 1)
  | iny => r.loadY (r.y + 1)
  | clc => r.putFlag .carry false
  | cld => r.putFlag .decimal false
  | cli => r.putFlag .interruptDisable false
  | clv => r.putFlag .overflow false
  | sec => r.putFlag .carry true
  | sed => r.putFlag .decimal true
  | sei => r.putFlag .interruptDisable true
  | nop => r

------------------------------------------------------------
-- Memory Operands
------------------------------------------------------------

/- Operations that read an operand. -/
inductive ReadOp where
  | lda | ldx | ldy
  | adc | sbc
  | and | eor | ora
  | cmp | cpx | cpy
  | bit
  | nop
  | lax | anc | alr | arr | axs
deriving DecidableEq

/- The registers after an operation on an operand. -/
def ReadOp.apply
    (r : Registers)
    (operand : UInt8) : ReadOp → Registers
  | lda => r.loadA operand
  | ldx => r.loadX operand
  | ldy => r.loadY operand
  | adc => r.addWithCarry operand
  | sbc => r.subtractWithBorrow operand
  | and => r.andA operand
  | eor => r.xorA operand
  | ora => r.orA operand
  | cmp => r.compare r.a operand
  | cpx => r.compare r.x operand
  | cpy => r.compare r.y operand
  | bit => r.testBits operand
  | nop => r
  | lax => r.loadAX operand
  | anc => r.andCarry operand
  | alr => r.andShift operand
  | arr => r.andRotate operand
  | axs => r.subtractIntoX operand

/- Operations that store a byte. -/
inductive StoreOp where
  | sta | stx | sty | sax
deriving DecidableEq

/- The byte to store. -/
def StoreOp.value
    (r : Registers) : StoreOp → UInt8
  | sta => r.a
  | stx => r.x
  | sty => r.y
  | sax => r.a &&& r.x

/- Operations that read a byte and write it back changed. -/
inductive ModifyOp where
  | asl | lsr | rol | ror | dec | inc
  | dcp | isb | slo | rla | sre | rra
deriving DecidableEq

open Registers in
/- The byte to write back, and the registers after it. -/
def ModifyOp.apply
    (r : Registers)
    (operand : UInt8) : ModifyOp → UInt8 × Registers
  | asl => r.shiftLeft operand
  | lsr => r.shiftRight operand
  | rol => r.rotateLeft operand
  | ror => r.rotateRight operand
  | dec => r.decrement operand
  | inc => r.increment operand
  | dcp => r.decrementCompare operand
  | isb => r.incrementSubtract operand
  | slo => r.changeThen shiftLeft orA operand
  | rla => r.changeThen rotateLeft andA operand
  | sre => r.changeThen shiftRight xorA operand
  | rra => r.changeThen rotateRight addWithCarry operand

------------------------------------------------------------
-- Branches and the Stack
------------------------------------------------------------

/- The conditions of branches. -/
inductive Condition where
  | bcc | bcs | beq | bmi | bne | bpl | bvc | bvs
deriving DecidableEq

/- Whether a branch is taken. -/
def Condition.holds
    (status : Status) : Condition → Bool
  | bcc => !status.carry
  | bcs => status.carry
  | beq => status.zero
  | bmi => status.negative
  | bne => !status.zero
  | bpl => !status.negative
  | bvc => !status.overflow
  | bvs => status.overflow

/- Operations that push a byte. -/
inductive PushOp where
  | pha | php
deriving DecidableEq

/- The byte to push. -/
def PushOp.value
    (r : Registers) : PushOp → UInt8
  | pha => r.a
  | php => r.status.toStack true

/- Operations that pull a byte. -/
inductive PullOp where
  | pla | plp
deriving DecidableEq

/- The registers after a pulled byte. -/
def PullOp.apply
    (r : Registers)
    (value : UInt8) : PullOp → Registers
  | pla => r.loadA value
  | plp => { r with status := .ofStack value }

------------------------------------------------------------
-- Operations
------------------------------------------------------------

/-
  All operations.  A jam halts the processor until it is
  reset, and an unsupported opcode cannot be executed at the
  chosen fidelity.
-/
inductive Operation where
  | implied (op : RegisterOp)
  | read (op : ReadOp)
  | store (op : StoreOp)
  | modify (op : ModifyOp)
  | branch (condition : Condition)
  | push (op : PushOp)
  | pull (op : PullOp)
  | jump
  | call
  | subroutineReturn
  | softwareInterrupt
  | interruptReturn
  | jam
  | unsupported
deriving DecidableEq

/- The name of an operation's group in listings. -/
def Operation.kind : Operation → String
  | implied _ => "Implied"
  | read _ => "Read"
  | store _ => "Write"
  | modify _ => "ReadModifyWrite"
  | branch _ => "Branch"
  | push _ => "Push"
  | pull _ => "Pull"
  | jump => "Jump"
  | call => "Call"
  | subroutineReturn => "Return"
  | softwareInterrupt => "SoftwareInterrupt"
  | interruptReturn => "ReturnFromInterrupt"
  | jam => "Jam"
  | unsupported => "Unsupported"

end Famicom
