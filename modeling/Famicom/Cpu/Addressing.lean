import Famicom.Cpu.Instruction
import Famicom.Memory

/-
  Where an instruction's operand is, and the bus traffic that
  it takes to find out.

  Key definitions include:
    * `AddressBus.readWord`
    * `AddressBus.readZeroPageWord`
    * `AddressBus.readWordInPage`
    * `Operand`
    * `AddressingMode.resolve`
    * `Registers.push`
    * `Registers.pull`
-/

namespace Famicom

------------------------------------------------------------
-- Words on the Bus
------------------------------------------------------------

namespace AddressBus

variable {β : Type} [AddressBus β]

/- The word at an address, low byte first. -/
def readWord (address : UInt16) : StateM β UInt16 := do
  let low ← read address
  let high ← read (address + 1)
  return Bits.word low high

/-
  The word at a place of page zero.  The high byte of the
  last place is at the start of the page.
-/
def readZeroPageWord (place : UInt8) : StateM β UInt16 := do
  let low ← read place.toUInt16
  let high ← read (place + 1).toUInt16
  return Bits.word low high

/-
  The word at an address, whose high byte is fetched from the
  same page even when the low byte is the page's last.
-/
def readWordInPage
    (address : UInt16) : StateM β UInt16 := do
  let low ← read address
  let high ← read (Bits.inPageOf address (address + 1))
  return Bits.word low high

end AddressBus

------------------------------------------------------------
-- Operands
------------------------------------------------------------

/-
  The address of an operand, and whether indexing carried it
  into another page than its base.
-/
structure Operand where
  address : UInt16
  pageCrossed : Bool := false
deriving DecidableEq

namespace Operand

variable {β : Type} [AddressBus β]

/-
  An indexed operand.  The sum of the low bytes is known one
  cycle before its carry, and the bus reads that unfinished
  address when the carry matters or when the instruction
  writes.
-/
def indexed
    (base : UInt16)
    (index : UInt8)
    (writes : Bool) : StateM β Operand := do
  let address := base + index.toUInt16
  let crossed := Bits.differentPages base address
  if crossed || writes then
    let _ ← AddressBus.read (Bits.inPageOf base address)
  return ⟨address, crossed⟩

end Operand

namespace AddressingMode

variable {β : Type} [AddressBus β]

/-
  The operand of an instruction at the program counter.
  `writes` tells whether the instruction stores to it.
-/
def resolve
    (mode : AddressingMode)
    (r : Registers)
    (writes : Bool) : StateM β Operand := do
  let argument := r.pc + 1
  match mode with
  | implied | accumulator | immediate | relative =>
      return ⟨argument, false⟩
  | zeroPage =>
      let place ← AddressBus.read argument
      return ⟨place.toUInt16, false⟩
  | zeroPageX =>
      let place ← AddressBus.read argument
      return ⟨(place + r.x).toUInt16, false⟩
  | zeroPageY =>
      let place ← AddressBus.read argument
      return ⟨(place + r.y).toUInt16, false⟩
  | absolute =>
      let address ← AddressBus.readWord argument
      return ⟨address, false⟩
  | absoluteX =>
      let base ← AddressBus.readWord argument
      Operand.indexed base r.x writes
  | absoluteY =>
      let base ← AddressBus.readWord argument
      Operand.indexed base r.y writes
  | indirect =>
      let pointer ← AddressBus.readWord argument
      let address ← AddressBus.readWordInPage pointer
      return ⟨address, false⟩
  | indirectX =>
      let place ← AddressBus.read argument
      let address ←
        AddressBus.readZeroPageWord (place + r.x)
      return ⟨address, false⟩
  | indirectY =>
      let place ← AddressBus.read argument
      let base ← AddressBus.readZeroPageWord place
      Operand.indexed base r.y writes

end AddressingMode

------------------------------------------------------------
-- The Stack
------------------------------------------------------------

namespace Registers

variable {β : Type} [AddressBus β]

/- The bus address of the stack place the pointer selects. -/
def stackAddress (r : Registers) : UInt16 :=
  Hardware.stackPage ||| r.sp.toUInt16

/- Store a byte, then move the stack pointer down. -/
def push
    (r : Registers)
    (value : UInt8) : StateM β Registers := do
  AddressBus.write r.stackAddress value
  return { r with sp := r.sp - 1 }

/- Move the stack pointer up, then load a byte. -/
def pull
    (r : Registers) : StateM β (UInt8 × Registers) := do
  let r' := { r with sp := r.sp + 1 }
  let value ← AddressBus.read r'.stackAddress
  return (value, r')

/- Push a word, high byte first. -/
def pushWord
    (r : Registers)
    (value : UInt16) : StateM β Registers := do
  let r' ← r.push (Bits.highByte value)
  r'.push (Bits.lowByte value)

/- Pull a word, low byte first. -/
def pullWord
    (r : Registers) : StateM β (UInt16 × Registers) := do
  let (low, r') ← r.pull
  let (high, r'') ← r'.pull
  return (Bits.word low high, r'')

end Registers

end Famicom
