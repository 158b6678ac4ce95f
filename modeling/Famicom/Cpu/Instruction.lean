import Famicom.Cpu.Operation
import Famicom.Hex

/-
  Instructions: an opcode, what it does, where its operand
  is, and how many cycles it takes.

  Key definitions include:
    * `AddressingMode`
    * `AddressingMode.bytes`
    * `Instruction`
    * `Instruction.pageCrossingCost`
    * `Instruction.render`
-/

namespace Famicom

------------------------------------------------------------
-- Addressing Modes
------------------------------------------------------------

/- Where an instruction finds its operand. -/
inductive AddressingMode where
  | implied
  | accumulator
  | immediate
  | absolute
  | zeroPage
  | absoluteX
  | absoluteY
  | zeroPageX
  | zeroPageY
  | indirectX
  | indirectY
  | relative
  | indirect
deriving DecidableEq

namespace AddressingMode

/- The length of an instruction, opcode included. -/
def bytes : AddressingMode → Nat
  | implied | accumulator => 1
  | immediate | zeroPage | zeroPageX | zeroPageY
  | indirectX | indirectY | relative => 2
  | absolute | absoluteX | absoluteY | indirect => 3

/- All addressing modes. -/
def all : List AddressingMode :=
  [implied, accumulator, immediate, absolute, zeroPage,
    absoluteX, absoluteY, zeroPageX, zeroPageY, indirectX,
    indirectY, relative, indirect]

/- The name of a mode in listings. -/
def name : AddressingMode → String
  | implied => "Implied"
  | accumulator => "Accumulator"
  | immediate => "Immediate"
  | absolute => "Absolute"
  | zeroPage => "ZeroPage"
  | absoluteX => "AbsoluteX"
  | absoluteY => "AbsoluteY"
  | zeroPageX => "ZeroPageX"
  | zeroPageY => "ZeroPageY"
  | indirectX => "IndirectX"
  | indirectY => "IndirectY"
  | relative => "Relative"
  | indirect => "Indirect"

/-
  Whether the operand's address is a sixteen-bit base plus an
  index, so that the sum can leave the base's page.
-/
def isIndexed : AddressingMode → Bool
  | absoluteX | absoluteY | indirectY => true
  | _ => false

end AddressingMode

------------------------------------------------------------
-- Instructions
------------------------------------------------------------

/-
  One entry of the opcode table.  `cycles` is the base count,
  to which page crossings and taken branches add.
-/
structure Instruction where
  opcode : UInt8
  name : String
  operation : Operation
  mode : AddressingMode
  cycles : Nat
  documented : Bool := true
deriving DecidableEq

namespace Instruction

/- The length of an instruction, opcode included. -/
def bytes (i : Instruction) : Nat :=
  i.mode.bytes

/- The same instruction, marked as undocumented. -/
def undocumented (i : Instruction) : Instruction :=
  { i with documented := false }

/-
  The extra cycles when the operand's address lies in another
  page than its base.  Only indexed reads pay: writes take
  the long way in any case.
-/
def pageCrossingCost (i : Instruction) : Nat :=
  match i.operation with
  | .read _ => if i.mode.isIndexed then 1 else 0
  | _ => 0

/- The instruction in listings. -/
def render (i : Instruction) : String :=
  Hex.byte i.opcode ++ " " ++ i.name ++ " " ++ i.mode.name ++
    " (" ++ toString i.bytes ++ " bytes, " ++
    toString i.cycles ++ " cycles)"

end Instruction

end Famicom
