import Famicom.Proofs.Cpu.FlatMemory

/-
  Combined operations.

  Most stable opcodes that the manual leaves out do at once
  what two documented ones do in turn.  The flags of the first
  operation are there for the second one to use or to
  overwrite, so the order of the two matters.  What holds of
  the operations is carried over to programs in flat memory.

  Key definitions include:
    * `ModifyOp.pair?`
    * `Session.Alike`
    * `Session.EqualsTwo`

  Main declarations:
    * `ModifyOp.apply_of_pair`
    * `Session.equalsTwo_of_pair`
    * `Session.combinations_equal_pairs`
-/

namespace Famicom

------------------------------------------------------------
-- Operations
------------------------------------------------------------

/-
  The two operations that a combined one stands for: how a
  byte is changed, and what is done with the changed byte.
-/
def ModifyOp.pair? : ModifyOp → Option (ModifyOp × ReadOp)
  | dcp => some (dec, .cmp)
  | isb => some (inc, .sbc)
  | slo => some (asl, .ora)
  | rla => some (rol, .and)
  | sre => some (lsr, .eor)
  | rra => some (ror, .adc)
  | _ => none

/- The second operation works on what the first one leaves. -/
theorem ModifyOp.apply_of_pair
    {op change : ModifyOp}
    {use : ReadOp}
    (hPair : op.pair? = some (change, use))
    (r : Registers)
    (operand : UInt8) :
    let changed := change.apply r operand
    op.apply r operand =
      (changed.1, use.apply changed.2 changed.1) := by
  cases op <;> cases hPair <;> rfl

/- The program counter plays no part in operations. -/
theorem ReadOp.apply_withPc
    (op : ReadOp)
    (r : Registers)
    (operand : UInt8)
    (pc : UInt16) :
    op.apply { r with pc } operand =
      { op.apply r operand with pc } := by
  cases op <;> rfl

theorem ModifyOp.apply_withPc
    (op : ModifyOp)
    (r : Registers)
    (operand : UInt8)
    (pc : UInt16) :
    op.apply { r with pc } operand =
      ((op.apply r operand).1,
        { (op.apply r operand).2 with pc }) := by
  cases op <;> rfl

/- Changing a byte leaves the index registers alone. -/
theorem ModifyOp.apply_indexes
    (op : ModifyOp)
    (r : Registers)
    (operand : UInt8) :
    (op.apply r operand).2.x = r.x ∧
      (op.apply r operand).2.y = r.y := by
  cases op <;> exact ⟨rfl, rfl⟩

------------------------------------------------------------
-- Opcodes
------------------------------------------------------------

/- The addressing modes that an operation has opcodes for. -/
def Opcodes.modes
    (fidelity : Fidelity)
    (operation : Operation) : List AddressingMode :=
  ((Opcodes.atFidelity fidelity).filter
    (·.operation = operation)).map (·.mode)

namespace OpcodeTable

variable {fidelity : Fidelity}
variable {table : OpcodeTable}
variable {mode : AddressingMode}

/- An opcode is decoded to what the list has for it. -/
theorem decodes_of_mem
    (hTable : atFidelity fidelity = .ok table)
    {i : Instruction}
    (hListed : i ∈ Opcodes.atFidelity fidelity) :
    table.Decodes i.opcode i.operation i.mode := by
  unfold Decodes
  rw [lookup_eq_of_mem hTable hListed]
  exact ⟨rfl, rfl⟩

/- A table has an opcode for each mode of an operation. -/
theorem exists_decodes_iff
    {operation : Operation}
    (hTable : atFidelity fidelity = .ok table) :
    (∃ opcode, table.Decodes opcode operation mode) ↔
      mode ∈ Opcodes.modes fidelity operation := by
  unfold Opcodes.modes
  simp only [List.mem_map, List.mem_filter, decide_eq_true_eq]
  constructor
  · rintro ⟨opcode, hOperation, hMode⟩
    have hListed := (lookup_spec hTable opcode).1
    exact ⟨_, ⟨hListed, hOperation⟩, hMode⟩
  · rintro ⟨i, ⟨hListed, rfl⟩, rfl⟩
    exact ⟨i.opcode, decodes_of_mem hTable hListed⟩

/-
  A combined change shares four modes with the two operations
  that it stands for.
-/
theorem exists_pair_iff
    (hTable : atFidelity .undocumented = .ok table)
    {op change : ModifyOp}
    {use : ReadOp}
    (hPair : op.pair? = some (change, use)) :
    (∃ combined first second,
      table.Decodes combined (.modify op) mode ∧
        table.Decodes first (.modify change) mode ∧
        table.Decodes second (.read use) mode) ↔
      mode ∈ [.zeroPage, .zeroPageX, .absolute,
        .absoluteX] := by
  have hShared :
      (Opcodes.modes .undocumented (.modify op)).filter
          (fun mode =>
            mode ∈ Opcodes.modes .undocumented
                (.modify change) ∧
              mode ∈ Opcodes.modes .undocumented
                (.read use)) =
        [.zeroPage, .zeroPageX, .absolute, .absoluteX] := by
    cases op <;> cases hPair <;> decide +kernel
  rw [← hShared, List.mem_filter, decide_eq_true_eq]
  simp only [← exists_decodes_iff hTable,
    exists_and_left, exists_and_right]

/- A load into both registers shares five modes with a load. -/
theorem exists_loads_iff
    (hTable : atFidelity .undocumented = .ok table) :
    (∃ combined first,
      table.Decodes combined (.read .lax) mode ∧
        table.Decodes first (.read .lda) mode) ↔
      mode ∈ [.zeroPage, .absolute, .absoluteY, .indirectX,
        .indirectY] := by
  have hShared :
      (Opcodes.modes .undocumented (.read .lax)).filter
          (· ∈ Opcodes.modes .undocumented (.read .lda)) =
        [.zeroPage, .absolute, .absoluteY, .indirectX,
          .indirectY] := by
    decide +kernel
  rw [← hShared, List.mem_filter, decide_eq_true_eq]
  simp only [← exists_decodes_iff hTable,
    exists_and_left, exists_and_right]

end OpcodeTable

------------------------------------------------------------
-- Sessions
------------------------------------------------------------

namespace Session

/-
  Two sessions in flat memory agree on all registers but the
  program counter, and on all bytes outside of an area.
-/
structure Alike
    (area : UInt16 → Prop)
    (s t : Session Ram) : Prop where
  table : t.cpu.table = s.cpu.table
  registers :
    ∃ pc, t.cpu.registers = { s.cpu.registers with pc }
  flat : s.bus.Flat ∧ t.bus.Flat
  memory : ∀ address, ¬area address →
    t.bus.read address = s.bus.read address

/-
  One step of a session leaves what two steps of another one
  leave, and none of the three fails.
-/
structure EqualsTwo
    (area : UInt16 → Prop)
    (s t : Session Ram) : Prop where
  single : ∃ done, s.outcome = .ok done
  first : ∃ done, t.outcome = .ok done
  second : ∃ done, t.next.outcome = .ok done
  alike : Alike area s.next t.next.next

variable {s t : Session Ram}
variable {area : UInt16 → Prop}

theorem equalsTwo_of_becomes
    {s' t' t'' : Session Ram}
    (hSingle : s.Becomes s')
    (hFirst : t.Becomes t')
    (hSecond : t'.Becomes t'')
    (hAlike : Alike area s' t'') :
    EqualsTwo area s t := by
  rcases hSingle with ⟨hOne, rfl⟩
  rcases hFirst with ⟨hTwo, rfl⟩
  rcases hSecond with ⟨hThree, rfl⟩
  exact ⟨hOne, hTwo, hThree, hAlike⟩

theorem Alike.indexes
    (hAlike : Alike area s t) :
    t.cpu.registers.x = s.cpu.registers.x ∧
      t.cpu.registers.y = s.cpu.registers.y := by
  rcases hAlike.registers with ⟨pc, hRegisters⟩
  rw [hRegisters]
  exact ⟨rfl, rfl⟩

theorem Alike.withState
    {registers registers' : Registers}
    {memory memory' : Ram}
    (hAlike : Alike area s t)
    (hRegisters :
      ∃ pc, registers' = { registers with pc })
    (hFlat : memory.Flat ∧ memory'.Flat)
    (hMemory : ∀ address, ¬area address →
      memory'.read address = memory.read address) :
    Alike area (s.withState registers memory)
      (t.withState registers' memory') :=
  ⟨hAlike.table, hRegisters, hFlat, hMemory⟩

/- Memories that agree are met by the same processor. -/
theorem alike_onMemory
    {memory memory' : Ram}
    (table : OpcodeTable)
    (hFlat : memory.Flat ∧ memory'.Flat)
    (hMemory : ∀ address, ¬area address →
      memory'.read address = memory.read address) :
    Alike area (onMemory table memory)
      (onMemory table memory') :=
  ⟨rfl, ⟨_, rfl⟩, hFlat, hMemory⟩

/- Behind an instruction its successor starts. -/
theorem Starts.behind
    {code rest : List UInt8}
    {registers : Registers}
    {memory : Ram}
    (hStarts : t.Starts area (code ++ rest))
    (hCounter :
      registers.pc =
        t.cpu.registers.pc + .ofNat code.length)
    (hModes :
      Status.SameModes t.cpu.registers.status
        registers.status)
    (hMemory : ∀ address, area address →
      memory.read address = t.bus.read address) :
    (t.withState registers memory).Starts area rest := by
  constructor
  · rw [← hStarts.action]
    unfold Cpu.nextAction
    exact congrArg
      (fun disabled => if t.lines.nmiPending then _ else
        if t.lines.irqAsserted && !disabled then _ else _)
      hModes.interruptDisable
  · have hRest := (Ram.holds_append.mp hStarts.holds).2
    show memory.Holds area registers.pc rest
    rw [hCounter]
    exact hRest.congr hMemory

section Pairs

variable {mode : AddressingMode}
variable {combined first second : UInt8}
variable {argument : List UInt8}

/-
  A combined change of a byte outside of the code.  The pair
  finds the byte twice, since the first change leaves the
  index and the code as they are.
-/
theorem equalsTwo_of_pair
    {op change : ModifyOp}
    {use : ReadOp}
    (hPair : op.pair? = some (change, use))
    (hMode : mode.isDirect = true)
    (hLength : argument.length + 1 = mode.bytes)
    (hAlike : Alike area s t)
    (hCombined :
      s.cpu.table.Decodes combined (.modify op) mode)
    (hFirst :
      s.cpu.table.Decodes first (.modify change) mode)
    (hSecond :
      s.cpu.table.Decodes second (.read use) mode)
    (hSingle : s.Starts area (combined :: argument))
    (hBoth :
      t.Starts area
        ((first :: argument) ++ (second :: argument)))
    (hOutside :
      ¬area (mode.target s.cpu.registers s.bus)) :
    EqualsTwo area s t := by
  rcases hAlike.registers with ⟨pc, hRegisters⟩
  have hInMemory : mode ≠ .accumulator := by
    rintro rfl
    cases hMode
  rw [← hAlike.table] at hFirst hSecond
  let r := s.cpu.registers
  let address := mode.target r s.bus
  let value := s.bus.read address
  let changed := change.apply (r.skip mode.bytes) value
  let counter := pc + mode.bytes.toUInt16
  let registers := { changed.2 with pc := counter }
  let memory := (t.bus.write address value).write address
    changed.1
  have hMemory (place : UInt16) :
      memory.read place =
        if place = address then
          changed.1
        else
          t.bus.read place :=
    hAlike.flat.2.read_write_write _ _ _ _
  -- The first change finds the byte of the combination.
  have hFound : mode.target t.cpu.registers t.bus = address :=
    AddressingMode.target_congr hMode hLength hAlike.indexes
      hSingle.holds.2.2
      (Ram.holds_append.mp hBoth.holds).1.2.2
  have hChanged :
      change.apply (t.cpu.registers.skip mode.bytes) value =
        (changed.1, registers) := by
    rw [hRegisters]
    exact change.apply_withPc (r.skip mode.bytes) value counter
  have hFirstStep :
      t.Becomes (t.withState registers memory) :=
    becomes_of_modify hBoth hFirst hInMemory hFound
      (hAlike.memory address hOutside) hChanged
  -- So does the second one, which uses what is left there.
  have hStarts :
      (t.withState registers memory).Starts area
        (second :: argument) := by
    apply hBoth.behind
    · rw [hRegisters, List.length_cons, hLength]
    · rw [hRegisters]
      exact change.apply_sameModes (r.skip mode.bytes) value
    · intro place hPlace
      rw [hMemory, if_neg]
      rintro rfl
      exact hOutside hPlace
  have hAgain : mode.target registers memory = address :=
    AddressingMode.target_congr hMode hLength
      (change.apply_indexes _ value) hSingle.holds.2.2
      hStarts.holds.2.2
  have hUsed : memory.read address = changed.1 := by
    rw [hMemory, if_pos rfl]
  have hSecondStep :=
    becomes_of_read hStarts hSecond hAgain hUsed
  have hCombinedStep :
      s.Becomes
        (s.withState (use.apply changed.2 changed.1)
          ((s.bus.write address value).write address
            changed.1)) :=
    becomes_of_modify hSingle hCombined hInMemory rfl rfl
      (ModifyOp.apply_of_pair hPair _ _)
  refine equalsTwo_of_becomes hCombinedStep hFirstStep
    hSecondStep (hAlike.withState ?_ ?_ ?_)
  · exact ⟨_, use.apply_withPc changed.2 changed.1 _⟩
  · exact hAlike.flat.imp
      (Ram.flat_write.mpr ∘ Ram.flat_write.mpr)
      (Ram.flat_write.mpr ∘ Ram.flat_write.mpr)
  · intro place hPlace
    rw [hAlike.flat.1.read_write_write,
      ← hAlike.memory place hPlace]
    exact hMemory place

/-
  The first of two instructions reads a byte.  It ends in the
  registers that a read of the first session ends in, with the
  other instruction ahead.
-/
theorem becomes_of_first_read
    {op : ReadOp}
    {address : UInt16}
    {value : UInt8}
    {rest : List UInt8}
    (hLength : argument.length + 1 = mode.bytes)
    (hAlike : Alike area s t)
    (hFirst : s.cpu.table.Decodes first (.read op) mode)
    (hBoth : t.Starts area ((first :: argument) ++ rest))
    (hTarget : mode.target t.cpu.registers t.bus = address)
    (hValue : t.bus.read address = value) :
    let r := s.cpu.registers.skip mode.bytes
    ∃ pc,
      let left := t.withState { op.apply r value with pc } t.bus
      t.Becomes left ∧ left.Starts area rest := by
  intro r
  rcases hAlike.registers with ⟨pc, hRegisters⟩
  let counter := pc + mode.bytes.toUInt16
  let registers := { op.apply r value with pc := counter }
  refine ⟨counter, ?_, ?_⟩
  · rw [← hAlike.table] at hFirst
    have hApply :
        op.apply (t.cpu.registers.skip mode.bytes) value =
          registers := by
      rw [hRegisters]
      exact op.apply_withPc r value counter
    have hStep :=
      becomes_of_read hBoth hFirst hTarget hValue
    rw [hApply] at hStep
    exact hStep
  · apply hBoth.behind
    · rw [hRegisters, List.length_cons, hLength]
    · rw [hRegisters]
      exact op.apply_sameModes r value
    · exact fun _ _ => rfl

/-
  A load into both registers from a byte outside of the code.
  The transfer behind the load of a pair needs no memory.
-/
theorem equalsTwo_of_load
    {moves : UInt8}
    (hLength : argument.length + 1 = mode.bytes)
    (hAlike : Alike area s t)
    (hCombined :
      s.cpu.table.Decodes combined (.read .lax) mode)
    (hFirst : s.cpu.table.Decodes first (.read .lda) mode)
    (hSecond :
      s.cpu.table.Decodes moves (.implied .tax) .implied)
    (hSingle : s.Starts area (combined :: argument))
    (hBoth : t.Starts area ((first :: argument) ++ [moves]))
    (hSame :
      mode.target t.cpu.registers t.bus =
        mode.target s.cpu.registers s.bus)
    (hOutside :
      ¬area (mode.target s.cpu.registers s.bus)) :
    EqualsTwo area s t := by
  rcases becomes_of_first_read hLength hAlike hFirst hBoth hSame
    (hAlike.memory _ hOutside) with ⟨pc, hFirstStep, hStarts⟩
  rw [← hAlike.table] at hSecond
  have hSecondStep := becomes_of_implied hStarts hSecond
  have hCombinedStep :=
    becomes_of_read hSingle hCombined rfl rfl
  exact equalsTwo_of_becomes hCombinedStep hFirstStep
    hSecondStep
    (hAlike.withState ⟨_, rfl⟩ hAlike.flat hAlike.memory)

/- A conjunction and a shift of the accumulator. -/
theorem equalsTwo_of_andShift
    {value shifts : UInt8}
    (hAlike : Alike area s t)
    (hCombined :
      s.cpu.table.Decodes combined (.read .alr) .immediate)
    (hFirst :
      s.cpu.table.Decodes first (.read .and) .immediate)
    (hSecond :
      s.cpu.table.Decodes shifts (.modify .lsr) .accumulator)
    (hSingle : s.Starts area [combined, value])
    (hBoth : t.Starts area ([first, value] ++ [shifts])) :
    EqualsTwo area s t := by
  rcases becomes_of_first_read rfl hAlike hFirst hBoth rfl
    hBoth.holds.2.2.1 with ⟨pc, hFirstStep, hStarts⟩
  rw [← hAlike.table] at hSecond
  have hSecondStep := becomes_of_accumulator hStarts hSecond
  have hCombinedStep :=
    becomes_of_read hSingle hCombined rfl
      hSingle.holds.2.2.1
  exact equalsTwo_of_becomes hCombinedStep hFirstStep
    hSecondStep
    (hAlike.withState ⟨_, rfl⟩ hAlike.flat hAlike.memory)

end Pairs

/-
  A stable combination leaves what its two operations leave in
  turn.  The first clause is about changes of a byte, the
  second about a load into both registers, and the third about
  a conjunction with a shift.  Where the address of an operand
  is itself in memory, the pair must find the same address.
-/
theorem combinations_equal_pairs
    (s t : Session Ram)
    (area : UInt16 → Prop)
    (hTable :
      OpcodeTable.atFidelity .undocumented = .ok s.cpu.table)
    (hAlike : Alike area s t) :
    let table := s.cpu.table
    let operand (mode : AddressingMode) :=
      mode.target s.cpu.registers s.bus
    (∀ op change use mode,
      op.pair? = some (change, use) →
        ((∃ combined first second,
          table.Decodes combined (.modify op) mode ∧
            table.Decodes first (.modify change) mode ∧
            table.Decodes second (.read use) mode) ↔
          mode ∈ [.zeroPage, .zeroPageX, .absolute,
            .absoluteX]) ∧
        ∀ combined first second argument,
          table.Decodes combined (.modify op) mode →
          table.Decodes first (.modify change) mode →
          table.Decodes second (.read use) mode →
          argument.length + 1 = mode.bytes →
          s.Starts area (combined :: argument) →
          t.Starts area
            ((first :: argument) ++ (second :: argument)) →
          ¬area (operand mode) →
            EqualsTwo area s t) ∧
    (∀ mode,
      ((∃ combined first,
        table.Decodes combined (.read .lax) mode ∧
          table.Decodes first (.read .lda) mode) ↔
        mode ∈ [.zeroPage, .absolute, .absoluteY, .indirectX,
          .indirectY]) ∧
      ∀ combined first argument,
        table.Decodes combined (.read .lax) mode →
        table.Decodes first (.read .lda) mode →
        argument.length + 1 = mode.bytes →
        s.Starts area (combined :: argument) →
        t.Starts area ((first :: argument) ++ [0xAA]) →
        (mode.isDirect = true ∨
          mode.target t.cpu.registers t.bus = operand mode) →
        ¬area (operand mode) →
          EqualsTwo area s t) ∧
    (∀ value,
      s.Starts area [0x4B, value] →
      t.Starts area ([0x29, value] ++ [0x4A]) →
        EqualsTwo area s t) ∧
    table.Decodes 0xAA (.implied .tax) .implied ∧
    table.Decodes 0x4B (.read .alr) .immediate ∧
    table.Decodes 0x29 (.read .and) .immediate ∧
    table.Decodes 0x4A (.modify .lsr) .accumulator := by
  intro table operand
  have hTransfer :
      table.Decodes 0xAA (.implied .tax) .implied :=
    OpcodeTable.decodes_of_mem hTable
      (i := ⟨0xAA, "TAX", .implied .tax, .implied, 2, true⟩)
      (by decide +kernel)
  have hCombined :
      table.Decodes 0x4B (.read .alr) .immediate :=
    OpcodeTable.decodes_of_mem hTable
      (i := ⟨0x4B, "ALR", .read .alr, .immediate, 2, false⟩)
      (by decide +kernel)
  have hMasks :
      table.Decodes 0x29 (.read .and) .immediate :=
    OpcodeTable.decodes_of_mem hTable
      (i := ⟨0x29, "AND", .read .and, .immediate, 2, true⟩)
      (by decide +kernel)
  have hShifts :
      table.Decodes 0x4A (.modify .lsr) .accumulator :=
    OpcodeTable.decodes_of_mem hTable
      (i := ⟨0x4A, "LSR", .modify .lsr, .accumulator, 2,
        true⟩)
      (by decide +kernel)
  refine ⟨?_, ?_, ?_, hTransfer, hCombined, hMasks, hShifts⟩
  · intro op change use mode hPair
    have hModes :
        (∃ combined first second,
          table.Decodes combined (.modify op) mode ∧
            table.Decodes first (.modify change) mode ∧
            table.Decodes second (.read use) mode) ↔
          mode ∈ [.zeroPage, .zeroPageX, .absolute,
            .absoluteX] :=
      OpcodeTable.exists_pair_iff hTable hPair
    refine ⟨hModes, ?_⟩
    intro combined first second argument hOne hTwo hThree
      hLength hSingle hBoth hOutside
    have hDirect : mode.isDirect = true := by
      have hMode :=
        hModes.mp ⟨combined, first, second, hOne, hTwo, hThree⟩
      simp only [List.mem_cons, List.not_mem_nil,
        or_false] at hMode
      rcases hMode with rfl | rfl | rfl | rfl <;> rfl
    exact equalsTwo_of_pair hPair hDirect hLength hAlike hOne
      hTwo hThree hSingle hBoth hOutside
  · intro mode
    refine ⟨OpcodeTable.exists_loads_iff hTable, ?_⟩
    intro combined first argument hOne hTwo hLength hSingle
      hBoth hPlace hOutside
    have hSame :
        mode.target t.cpu.registers t.bus = operand mode := by
      rcases hPlace with hDirect | hSame
      · exact AddressingMode.target_congr hDirect hLength
          hAlike.indexes hSingle.holds.2.2
          (Ram.holds_append.mp hBoth.holds).1.2.2
      · exact hSame
    exact equalsTwo_of_load hLength hAlike hOne hTwo hTransfer
      hSingle hBoth hSame hOutside
  · intro value hSingle hBoth
    exact equalsTwo_of_andShift hAlike hCombined hMasks hShifts
      hSingle hBoth

/-
  In memory full of the opcode of RRA, the next step rotates
  the byte at $67 and adds it with the carry that falls out.
-/
theorem rotated_addition_equals_pair :
    ∃ table,
      let area : UInt16 → Prop := (0x8000 ≤ ·)
      let memory := Ram.filled 0x10000 0x67
      let code :=
        (memory.write 0x8000 0x66).write 0x8002 0x65
      let s := onMemory table memory
      let t := onMemory table code
      OpcodeTable.atFidelity .undocumented = .ok s.cpu.table ∧
        Alike area s t ∧ EqualsTwo area s t := by
  rcases OpcodeTable.atFidelity_isOk .undocumented with
    ⟨table, hTable⟩
  have hFlat : (Ram.filled 0x10000 0x67).Flat :=
    Ram.size_filled _ _
  have hFilled (place : UInt16) :
      (Ram.filled 0x10000 0x67).read place = 0x67 :=
    Ram.read_filled (by decide) _ _
  refine ⟨table, ?_⟩
  -- Nothing else about the memory matters.
  generalize Ram.filled 0x10000 0x67 = memory at hFlat hFilled ⊢
  intro area _ code s t
  have hArea
      (place : UInt16)
      (hCode : 0x8000 ≤ place) : area place :=
    hCode
  have hCode (place : UInt16) :
      code.read place =
        if place = 0x8002 then 0x65 else
          if place = 0x8000 then 0x66 else 0x67 := by
    apply ((Ram.flat_write.mpr hFlat).read_write _ _ _).trans
    rw [hFlat.read_write, hFilled]
  have hAlike : Alike area s t := by
    apply alike_onMemory table
    · exact ⟨hFlat, Ram.flat_write.mpr
        (Ram.flat_write.mpr hFlat)⟩
    intro place hOutside
    rw [hCode, if_neg, if_neg]
    · exact (hFilled place).symm
    · rintro rfl
      exact hOutside (hArea 0x8000 (by decide))
    · rintro rfl
      exact hOutside (hArea 0x8002 (by decide))
  have hSingle : s.Starts area [0x67, 0x67] :=
    ⟨rfl, hFilled _, hArea 0x8000 (by decide), hFilled _,
      hArea 0x8001 (by decide), trivial⟩
  have hBoth : t.Starts area ([0x66, 0x67] ++ [0x65, 0x67]) :=
    ⟨rfl, hCode _, hArea 0x8000 (by decide), hCode _,
      hArea 0x8001 (by decide), hCode _,
      hArea 0x8002 (by decide), hCode _,
      hArea 0x8003 (by decide), trivial⟩
  have hOperand :
      AddressingMode.zeroPage.target s.cpu.registers s.bus =
        0x67 :=
    congrArg UInt8.toUInt16 (hFilled 0x8001)
  have hOutside :
      ¬area (AddressingMode.zeroPage.target s.cpu.registers
        s.bus) := by
    rw [hOperand]
    decide
  have hDecodes (i : Instruction)
      (hListed : i ∈ Opcodes.atFidelity .undocumented) :
      table.Decodes i.opcode i.operation i.mode :=
    OpcodeTable.decodes_of_mem hTable hListed
  have hRotates : table.Decodes 0x67 (.modify .rra) .zeroPage :=
    hDecodes ⟨_, "RRA", _, _, 5, false⟩ (by decide +kernel)
  have hFirst : table.Decodes 0x66 (.modify .ror) .zeroPage :=
    hDecodes ⟨_, "ROR", _, _, 5, true⟩ (by decide +kernel)
  have hSecond : table.Decodes 0x65 (.read .adc) .zeroPage :=
    hDecodes ⟨_, "ADC", _, _, 3, true⟩ (by decide +kernel)
  have hPairs :=
    (combinations_equal_pairs s t area hTable hAlike).1
  exact ⟨hTable, hAlike,
    (hPairs .rra .ror .adc .zeroPage rfl).2 _ _ _ [0x67]
      hRotates hFirst hSecond rfl hSingle hBoth hOutside⟩

end Session

end Famicom
