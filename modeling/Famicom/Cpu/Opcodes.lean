import Famicom.Cpu.Instruction

/-
  The 256 opcodes of the processor.

  The manual documents 151 of them.  The other 105 are listed
  with what the chip does on them: some halt it, most combine
  two documented operations, and a few are unstable.

  Key definitions include:
    * `Opcodes.documented`
    * `Opcodes.undocumented`
-/

namespace Famicom

namespace Opcodes

------------------------------------------------------------
-- Forms
------------------------------------------------------------

/-
  The forms of one operation: an opcode, an addressing mode
  and a base cycle count each.
-/
def forms
    (name : String)
    (operation : Operation)
    (list : List (UInt8 × AddressingMode × Nat)) :
    List Instruction :=
  list.map fun (opcode, mode, cycles) =>
    { opcode := opcode
      name := name
      operation := operation
      mode := mode
      cycles := cycles }

------------------------------------------------------------
-- Documented Opcodes
------------------------------------------------------------

/- Loads, stores and transfers between registers. -/
def transfers : List Instruction :=
  forms "LDA" (.read .lda)
    [(0xA9, .immediate, 2), (0xA5, .zeroPage, 3),
      (0xB5, .zeroPageX, 4), (0xAD, .absolute, 4),
      (0xBD, .absoluteX, 4), (0xB9, .absoluteY, 4),
      (0xA1, .indirectX, 6), (0xB1, .indirectY, 5)] ++
  forms "LDX" (.read .ldx)
    [(0xA2, .immediate, 2), (0xA6, .zeroPage, 3),
      (0xB6, .zeroPageY, 4), (0xAE, .absolute, 4),
      (0xBE, .absoluteY, 4)] ++
  forms "LDY" (.read .ldy)
    [(0xA0, .immediate, 2), (0xA4, .zeroPage, 3),
      (0xB4, .zeroPageX, 4), (0xAC, .absolute, 4),
      (0xBC, .absoluteX, 4)] ++
  forms "STA" (.store .sta)
    [(0x85, .zeroPage, 3), (0x95, .zeroPageX, 4),
      (0x8D, .absolute, 4), (0x9D, .absoluteX, 5),
      (0x99, .absoluteY, 5), (0x81, .indirectX, 6),
      (0x91, .indirectY, 6)] ++
  forms "STX" (.store .stx)
    [(0x86, .zeroPage, 3), (0x96, .zeroPageY, 4),
      (0x8E, .absolute, 4)] ++
  forms "STY" (.store .sty)
    [(0x84, .zeroPage, 3), (0x94, .zeroPageX, 4),
      (0x8C, .absolute, 4)] ++
  forms "TAX" (.implied .tax)
    [(0xAA, .implied, 2)] ++
  forms "TAY" (.implied .tay)
    [(0xA8, .implied, 2)] ++
  forms "TSX" (.implied .tsx)
    [(0xBA, .implied, 2)] ++
  forms "TXA" (.implied .txa)
    [(0x8A, .implied, 2)] ++
  forms "TXS" (.implied .txs)
    [(0x9A, .implied, 2)] ++
  forms "TYA" (.implied .tya)
    [(0x98, .implied, 2)]

/- Pushes and pulls. -/
def stackAccesses : List Instruction :=
  forms "PHA" (.push .pha)
    [(0x48, .implied, 3)] ++
  forms "PHP" (.push .php)
    [(0x08, .implied, 3)] ++
  forms "PLA" (.pull .pla)
    [(0x68, .implied, 4)] ++
  forms "PLP" (.pull .plp)
    [(0x28, .implied, 4)]

/- Decrements and increments. -/
def counters : List Instruction :=
  forms "DEC" (.modify .dec)
    [(0xC6, .zeroPage, 5), (0xD6, .zeroPageX, 6),
      (0xCE, .absolute, 6), (0xDE, .absoluteX, 7)] ++
  forms "DEX" (.implied .dex)
    [(0xCA, .implied, 2)] ++
  forms "DEY" (.implied .dey)
    [(0x88, .implied, 2)] ++
  forms "INC" (.modify .inc)
    [(0xE6, .zeroPage, 5), (0xF6, .zeroPageX, 6),
      (0xEE, .absolute, 6), (0xFE, .absoluteX, 7)] ++
  forms "INX" (.implied .inx)
    [(0xE8, .implied, 2)] ++
  forms "INY" (.implied .iny)
    [(0xC8, .implied, 2)]

/- Additions and subtractions. -/
def additions : List Instruction :=
  forms "ADC" (.read .adc)
    [(0x69, .immediate, 2), (0x65, .zeroPage, 3),
      (0x75, .zeroPageX, 4), (0x6D, .absolute, 4),
      (0x7D, .absoluteX, 4), (0x79, .absoluteY, 4),
      (0x61, .indirectX, 6), (0x71, .indirectY, 5)] ++
  forms "SBC" (.read .sbc)
    [(0xE9, .immediate, 2), (0xE5, .zeroPage, 3),
      (0xF5, .zeroPageX, 4), (0xED, .absolute, 4),
      (0xFD, .absoluteX, 4), (0xF9, .absoluteY, 4),
      (0xE1, .indirectX, 6), (0xF1, .indirectY, 5)]

/- Bitwise logic with the accumulator. -/
def logic : List Instruction :=
  forms "AND" (.read .and)
    [(0x29, .immediate, 2), (0x25, .zeroPage, 3),
      (0x35, .zeroPageX, 4), (0x2D, .absolute, 4),
      (0x3D, .absoluteX, 4), (0x39, .absoluteY, 4),
      (0x21, .indirectX, 6), (0x31, .indirectY, 5)] ++
  forms "EOR" (.read .eor)
    [(0x49, .immediate, 2), (0x45, .zeroPage, 3),
      (0x55, .zeroPageX, 4), (0x4D, .absolute, 4),
      (0x5D, .absoluteX, 4), (0x59, .absoluteY, 4),
      (0x41, .indirectX, 6), (0x51, .indirectY, 5)] ++
  forms "ORA" (.read .ora)
    [(0x09, .immediate, 2), (0x05, .zeroPage, 3),
      (0x15, .zeroPageX, 4), (0x0D, .absolute, 4),
      (0x1D, .absoluteX, 4), (0x19, .absoluteY, 4),
      (0x01, .indirectX, 6), (0x11, .indirectY, 5)]

/- Shifts and rotations. -/
def shifts : List Instruction :=
  forms "ASL" (.modify .asl)
    [(0x0A, .accumulator, 2), (0x06, .zeroPage, 5),
      (0x16, .zeroPageX, 6), (0x0E, .absolute, 6),
      (0x1E, .absoluteX, 7)] ++
  forms "LSR" (.modify .lsr)
    [(0x4A, .accumulator, 2), (0x46, .zeroPage, 5),
      (0x56, .zeroPageX, 6), (0x4E, .absolute, 6),
      (0x5E, .absoluteX, 7)] ++
  forms "ROL" (.modify .rol)
    [(0x2A, .accumulator, 2), (0x26, .zeroPage, 5),
      (0x36, .zeroPageX, 6), (0x2E, .absolute, 6),
      (0x3E, .absoluteX, 7)] ++
  forms "ROR" (.modify .ror)
    [(0x6A, .accumulator, 2), (0x66, .zeroPage, 5),
      (0x76, .zeroPageX, 6), (0x6E, .absolute, 6),
      (0x7E, .absoluteX, 7)]

/- Changes of single flags. -/
def flagChanges : List Instruction :=
  forms "CLC" (.implied .clc)
    [(0x18, .implied, 2)] ++
  forms "CLD" (.implied .cld)
    [(0xD8, .implied, 2)] ++
  forms "CLI" (.implied .cli)
    [(0x58, .implied, 2)] ++
  forms "CLV" (.implied .clv)
    [(0xB8, .implied, 2)] ++
  forms "SEC" (.implied .sec)
    [(0x38, .implied, 2)] ++
  forms "SED" (.implied .sed)
    [(0xF8, .implied, 2)] ++
  forms "SEI" (.implied .sei)
    [(0x78, .implied, 2)]

/- Comparisons. -/
def comparisons : List Instruction :=
  forms "CMP" (.read .cmp)
    [(0xC9, .immediate, 2), (0xC5, .zeroPage, 3),
      (0xD5, .zeroPageX, 4), (0xCD, .absolute, 4),
      (0xDD, .absoluteX, 4), (0xD9, .absoluteY, 4),
      (0xC1, .indirectX, 6), (0xD1, .indirectY, 5)] ++
  forms "CPX" (.read .cpx)
    [(0xE0, .immediate, 2), (0xE4, .zeroPage, 3),
      (0xEC, .absolute, 4)] ++
  forms "CPY" (.read .cpy)
    [(0xC0, .immediate, 2), (0xC4, .zeroPage, 3),
      (0xCC, .absolute, 4)]

/- Branches. -/
def branches : List Instruction :=
  forms "BCC" (.branch .bcc)
    [(0x90, .relative, 2)] ++
  forms "BCS" (.branch .bcs)
    [(0xB0, .relative, 2)] ++
  forms "BEQ" (.branch .beq)
    [(0xF0, .relative, 2)] ++
  forms "BMI" (.branch .bmi)
    [(0x30, .relative, 2)] ++
  forms "BNE" (.branch .bne)
    [(0xD0, .relative, 2)] ++
  forms "BPL" (.branch .bpl)
    [(0x10, .relative, 2)] ++
  forms "BVC" (.branch .bvc)
    [(0x50, .relative, 2)] ++
  forms "BVS" (.branch .bvs)
    [(0x70, .relative, 2)]

/- Jumps and subroutines. -/
def jumps : List Instruction :=
  forms "JMP" .jump
    [(0x4C, .absolute, 3), (0x6C, .indirect, 5)] ++
  forms "JSR" .call
    [(0x20, .absolute, 6)] ++
  forms "RTS" .subroutineReturn
    [(0x60, .implied, 6)]

/- The software interrupt and the return from interrupts. -/
def interrupts : List Instruction :=
  forms "BRK" .softwareInterrupt
    [(0x00, .implied, 7)] ++
  forms "RTI" .interruptReturn
    [(0x40, .implied, 6)]

/- The bit test and the idle instruction. -/
def others : List Instruction :=
  forms "BIT" (.read .bit)
    [(0x24, .zeroPage, 3), (0x2C, .absolute, 4)] ++
  forms "NOP" (.implied .nop)
    [(0xEA, .implied, 2)]

/- The opcodes of the processor's manual. -/
def documented : List Instruction :=
  transfers ++ stackAccesses ++ counters ++
  additions ++ logic ++ shifts ++
  flagChanges ++ comparisons ++ branches ++
  jumps ++ interrupts ++ others

------------------------------------------------------------
-- Undocumented Opcodes
------------------------------------------------------------

/- Opcodes that halt the processor. -/
def jams : List Instruction :=
  forms "JAM" .jam
    [(0x02, .implied, 2), (0x12, .implied, 2),
      (0x22, .implied, 2), (0x32, .implied, 2),
      (0x42, .implied, 2), (0x52, .implied, 2),
      (0x62, .implied, 2), (0x72, .implied, 2),
      (0x92, .implied, 2), (0xB2, .implied, 2),
      (0xD2, .implied, 2), (0xF2, .implied, 2)]

/- Idle instructions. Those with an operand still read it. -/
def idlers : List Instruction :=
  forms "NOP" (.implied .nop)
    [(0x1A, .implied, 2), (0x3A, .implied, 2),
      (0x5A, .implied, 2), (0x7A, .implied, 2),
      (0xDA, .implied, 2), (0xFA, .implied, 2)] ++
  forms "NOP" (.read .nop)
    [(0x80, .immediate, 2), (0x82, .immediate, 2),
      (0x89, .immediate, 2), (0xC2, .immediate, 2),
      (0xE2, .immediate, 2), (0x04, .zeroPage, 3),
      (0x44, .zeroPage, 3), (0x64, .zeroPage, 3),
      (0x14, .zeroPageX, 4), (0x34, .zeroPageX, 4),
      (0x54, .zeroPageX, 4), (0x74, .zeroPageX, 4),
      (0xD4, .zeroPageX, 4), (0xF4, .zeroPageX, 4),
      (0x0C, .absolute, 4), (0x1C, .absoluteX, 4),
      (0x3C, .absoluteX, 4), (0x5C, .absoluteX, 4),
      (0x7C, .absoluteX, 4), (0xDC, .absoluteX, 4),
      (0xFC, .absoluteX, 4)]

/- Loads into two registers and stores of two. -/
def doubleTransfers : List Instruction :=
  forms "LAX" (.read .lax)
    [(0xA7, .zeroPage, 3), (0xB7, .zeroPageY, 4),
      (0xAF, .absolute, 4), (0xBF, .absoluteY, 4),
      (0xA3, .indirectX, 6), (0xB3, .indirectY, 5)] ++
  forms "SAX" (.store .sax)
    [(0x87, .zeroPage, 3), (0x97, .zeroPageY, 4),
      (0x8F, .absolute, 4), (0x83, .indirectX, 6)]

/- Changes of a byte combined with an operation on it. -/
def combinedChanges : List Instruction :=
  forms "DCP" (.modify .dcp)
    [(0xC7, .zeroPage, 5), (0xD7, .zeroPageX, 6),
      (0xCF, .absolute, 6), (0xDF, .absoluteX, 7),
      (0xDB, .absoluteY, 7), (0xC3, .indirectX, 8),
      (0xD3, .indirectY, 8)] ++
  forms "ISB" (.modify .isb)
    [(0xE7, .zeroPage, 5), (0xF7, .zeroPageX, 6),
      (0xEF, .absolute, 6), (0xFF, .absoluteX, 7),
      (0xFB, .absoluteY, 7), (0xE3, .indirectX, 8),
      (0xF3, .indirectY, 8)] ++
  forms "SLO" (.modify .slo)
    [(0x07, .zeroPage, 5), (0x17, .zeroPageX, 6),
      (0x0F, .absolute, 6), (0x1F, .absoluteX, 7),
      (0x1B, .absoluteY, 7), (0x03, .indirectX, 8),
      (0x13, .indirectY, 8)] ++
  forms "RLA" (.modify .rla)
    [(0x27, .zeroPage, 5), (0x37, .zeroPageX, 6),
      (0x2F, .absolute, 6), (0x3F, .absoluteX, 7),
      (0x3B, .absoluteY, 7), (0x23, .indirectX, 8),
      (0x33, .indirectY, 8)] ++
  forms "SRE" (.modify .sre)
    [(0x47, .zeroPage, 5), (0x57, .zeroPageX, 6),
      (0x4F, .absolute, 6), (0x5F, .absoluteX, 7),
      (0x5B, .absoluteY, 7), (0x43, .indirectX, 8),
      (0x53, .indirectY, 8)] ++
  forms "RRA" (.modify .rra)
    [(0x67, .zeroPage, 5), (0x77, .zeroPageX, 6),
      (0x6F, .absolute, 6), (0x7F, .absoluteX, 7),
      (0x7B, .absoluteY, 7), (0x63, .indirectX, 8),
      (0x73, .indirectY, 8)]

/- Combinations on an immediate operand. -/
def immediateCombinations : List Instruction :=
  forms "ANC" (.read .anc)
    [(0x0B, .immediate, 2), (0x2B, .immediate, 2)] ++
  forms "ALR" (.read .alr)
    [(0x4B, .immediate, 2)] ++
  forms "ARR" (.read .arr)
    [(0x6B, .immediate, 2)] ++
  forms "AXS" (.read .axs)
    [(0xCB, .immediate, 2)] ++
  forms "SBC" (.read .sbc)
    [(0xEB, .immediate, 2)]

/-
  Opcodes whose result depends on analog effects. They are
  never executed.
-/
def unstable : List Instruction :=
  forms "XAA" .unsupported
    [(0x8B, .immediate, 2)] ++
  forms "LXA" .unsupported
    [(0xAB, .immediate, 2)] ++
  forms "AHX" .unsupported
    [(0x93, .indirectY, 6), (0x9F, .absoluteY, 5)] ++
  forms "TAS" .unsupported
    [(0x9B, .absoluteY, 5)] ++
  forms "SHY" .unsupported
    [(0x9C, .absoluteX, 5)] ++
  forms "SHX" .unsupported
    [(0x9E, .absoluteY, 5)] ++
  forms "LAS" .unsupported
    [(0xBB, .absoluteY, 4)]

/- The opcodes that the manual leaves out. -/
def undocumented : List Instruction :=
  (jams ++ idlers ++ doubleTransfers ++ combinedChanges ++
    immediateCombinations ++ unstable).map
      Instruction.undocumented

end Opcodes

end Famicom
