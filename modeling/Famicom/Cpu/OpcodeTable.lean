import Famicom.Cpu.Opcodes
import Famicom.MachineFault
import Famicom.Settings

/-
  Decoding tables.

  A table gives one instruction for each of the 256 opcodes.
  It is built from any list that defines every opcode exactly
  once, whatever the order of the list.

  Key definitions include:
    * `OpcodeTable`
    * `OpcodeTable.ofInstructions`
    * `OpcodeTable.lookup`
    * `Instruction.adapt`
    * `OpcodeTable.atFidelity`
-/

namespace Famicom

------------------------------------------------------------
-- Tables
------------------------------------------------------------

/- One instruction for each opcode, by ascending opcode. -/
structure OpcodeTable where
  entries : Vector Instruction 256

namespace OpcodeTable

/- The place of an opcode in a table. -/
def slot (opcode : UInt8) : Fin 256 :=
  ⟨opcode.toNat, opcode.toNat_lt⟩

/- The instruction of an opcode. -/
def lookup
    (table : OpcodeTable)
    (opcode : UInt8) : Instruction :=
  table.entries[slot opcode]

/- All instructions by ascending opcode. -/
def toList (table : OpcodeTable) : List Instruction :=
  table.entries.toList

------------------------------------------------------------
-- Building
------------------------------------------------------------

/- A table in the making: the entries defined so far. -/
abbrev Slots := Vector (Option Instruction) 256

/-
  Define one more opcode, unless it has been defined before.
-/
def define
    (slots : Slots)
    (i : Instruction) : Except MachineFault Slots :=
  match slots[slot i.opcode] with
  | some _ => .error (.duplicateOpcode i.opcode)
  | none => .ok (slots.set (slot i.opcode) (some i))

/- The entry of a place, which must have been defined. -/
def entry
    (slots : Slots)
    (place : Fin 256) : Except MachineFault Instruction :=
  match slots[place] with
  | some i => .ok i
  | none =>
      .error (.incompleteOpcodeTable (UInt8.ofNat place))

/-
  The table of a list of instructions.  A repeated opcode is
  reported first, and else the lowest opcode left out.
-/
def ofInstructions
    (list : List Instruction) :
    Except MachineFault OpcodeTable := do
  let slots ← list.foldlM define (Vector.replicate 256 none)
  let entries ← Vector.ofFnM (entry slots)
  return ⟨entries⟩

end OpcodeTable

------------------------------------------------------------
-- Fidelity
------------------------------------------------------------

/- Whether no fidelity executes an instruction. -/
def Instruction.isNeverExecuted (i : Instruction) : Bool :=
  i.operation == .jam || i.operation == .unsupported

/-
  An undocumented instruction at a fidelity level.  Stubs
  keep their length and base cycles but do nothing.
-/
def Instruction.adapt
    (fidelity : Fidelity)
    (i : Instruction) : Instruction :=
  if i.isNeverExecuted then
    i
  else
    match fidelity with
    | .strict => { i with operation := .unsupported }
    | .nopStub => { i with operation := .implied .nop }
    | .undocumented => i

/- All opcodes at a fidelity level. -/
def Opcodes.atFidelity
    (fidelity : Fidelity) : List Instruction :=
  documented ++ undocumented.map (·.adapt fidelity)

/- The decoding table of a fidelity level. -/
def OpcodeTable.atFidelity
    (fidelity : Fidelity) :
    Except MachineFault OpcodeTable :=
  ofInstructions (Opcodes.atFidelity fidelity)

end Famicom
