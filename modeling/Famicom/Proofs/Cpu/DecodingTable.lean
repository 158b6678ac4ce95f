import Famicom.Proofs.Cpu.TableBuilding
import Famicom.Proofs.Cpu.Traffic

/-
  The decoding tables of the fidelity levels.

  Every entry of a table is an instruction of the list it was
  built from, so what holds of all instructions of a fidelity
  level holds of whatever the processor decodes.

  Main declarations:
    * `OpcodeTable.atFidelity_isOk`
    * `OpcodeTable.lookup_eq_of_mem`
    * `OpcodeTable.wellTimed_atFidelity`
-/

namespace Famicom

namespace OpcodeTable

------------------------------------------------------------
-- Fidelity Levels
------------------------------------------------------------

theorem opcode_adapt
    (fidelity : Fidelity)
    (i : Instruction) :
    (i.adapt fidelity).opcode = i.opcode := by
  unfold Instruction.adapt
  split
  · rfl
  · split <;> rfl

/- The levels differ in what opcodes do, not in their list. -/
theorem opcodes_atFidelity (fidelity : Fidelity) :
    (Opcodes.atFidelity fidelity).map (·.opcode) =
      (Opcodes.documented ++ Opcodes.undocumented).map
        (·.opcode) := by
  unfold Opcodes.atFidelity
  rw [List.map_append, List.map_append, List.map_map]
  congr 1
  exact List.map_congr_left fun i _ => opcode_adapt fidelity i

/- Sorted, the opcodes are the numbers of all bytes. -/
theorem insertionSort_opcodes :
    ((Opcodes.documented ++ Opcodes.undocumented).map
      (·.opcode.toNat)).insertionSort (· ≤ ·) =
      List.range 256 := by
  decide +kernel

theorem perm_opcodes (fidelity : Fidelity) :
    List.Perm
      (((Opcodes.atFidelity fidelity).map
        (·.opcode)).map UInt8.toNat)
      (List.range 256) := by
  rw [opcodes_atFidelity, List.map_map,
    ← insertionSort_opcodes]
  exact (List.perm_insertionSort _ _).symm

/- Every fidelity level has a table. -/
theorem atFidelity_isOk (fidelity : Fidelity) :
    ∃ table, atFidelity fidelity = .ok table := by
  have hPerm := perm_opcodes fidelity
  apply ofInstructions_isOk
  · apply List.Nodup.of_map UInt8.toNat
    exact hPerm.nodup_iff.mpr List.nodup_range
  · intro opcode
    have hMember := hPerm.mem_iff.mpr
      (List.mem_range.mpr opcode.toNat_lt)
    rcases List.mem_map.mp hMember with ⟨other, hOther, hSame⟩
    exact UInt8.toNat_inj.mp hSame ▸ hOther

/- What is in the list is what its opcode is decoded to. -/
theorem lookup_eq_of_mem
    {fidelity : Fidelity}
    {table : OpcodeTable}
    (hTable : atFidelity fidelity = .ok table)
    {i : Instruction}
    (hMember : i ∈ Opcodes.atFidelity fidelity) :
    table.lookup i.opcode = i :=
  ((tableOf_of_ofInstructions hTable).lookup _ _).mpr
    ⟨hMember, rfl⟩

/- The manual's instructions are decoded at every level. -/
theorem lookup_of_documented
    {fidelity : Fidelity}
    {table : OpcodeTable}
    (hTable : atFidelity fidelity = .ok table)
    {i : Instruction}
    (hDocumented : i ∈ Opcodes.documented) :
    table.lookup i.opcode = i :=
  lookup_eq_of_mem hTable (List.mem_append_left _ hDocumented)

/- All instructions take two to eight cycles. -/
theorem cycles_of_mem_atFidelity
    {fidelity : Fidelity}
    {i : Instruction}
    (hMember : i ∈ Opcodes.atFidelity fidelity) :
    2 ≤ i.cycles ∧ i.cycles ≤ 8 := by
  have hAll :
      (Opcodes.atFidelity fidelity).all (fun i =>
        decide (2 ≤ i.cycles ∧ i.cycles ≤ 8)) = true := by
    cases fidelity <;> decide +kernel
  exact of_decide_eq_true (List.all_eq_true.mp hAll i hMember)

theorem wellTimed_atFidelity
    {fidelity : Fidelity}
    {table : OpcodeTable}
    (hTable : atFidelity fidelity = .ok table) :
    table.WellTimed := fun opcode =>
  cycles_of_mem_atFidelity (lookup_spec hTable opcode).1

/- At every level there is an instruction that does nothing. -/
theorem isNeverExecuted_nop
    {fidelity : Fidelity}
    {i : Instruction}
    (hMember : i ∈ Opcodes.atFidelity fidelity)
    (hOpcode : i.opcode = 0xEA) :
    i.isNeverExecuted = false := by
  have hAll :
      (Opcodes.atFidelity fidelity).all (fun i =>
        i.opcode != 0xEA || !i.isNeverExecuted) = true := by
    cases fidelity <;> decide +kernel
  simpa [hOpcode] using List.all_eq_true.mp hAll i hMember

/- At every level there is a jump to a fixed address. -/
theorem operation_jump
    {fidelity : Fidelity}
    {table : OpcodeTable}
    (hTable : atFidelity fidelity = .ok table) :
    (table.lookup 0x4C).operation = .jump ∧
      (table.lookup 0x4C).mode = .absolute := by
  have hAll :
      (Opcodes.atFidelity fidelity).all (fun i =>
        i.opcode != 0x4C ||
          decide (i.operation = .jump ∧
            i.mode = .absolute)) = true := by
    cases fidelity <;> decide +kernel
  rcases lookup_spec hTable 0x4C with ⟨hMember, hOpcode⟩
  simpa [hOpcode] using List.all_eq_true.mp hAll _ hMember

end OpcodeTable

------------------------------------------------------------
-- Execution
------------------------------------------------------------

section Execution

variable {β : Type} [AddressBus β]

/- Only what is never executed fails. -/
theorem Instruction.execute_isOk
    {i : Instruction}
    (hExecuted : i.isNeverExecuted = false)
    (r : Registers)
    (bus : β) :
    ∃ done, (i.execute r bus).1 = .ok done := by
  unfold isNeverExecuted at hExecuted
  unfold execute
  cases hOperation : i.operation with
  | jam => simp [hOperation] at hExecuted
  | unsupported => simp [hOperation] at hExecuted
  | _ => exact ⟨_, rfl⟩

/- A step succeeds if what it would execute is executed. -/
theorem Cpu.step_isOk
    {cpu : Cpu}
    (bus : β)
    (hExecuted :
      (cpu.table.lookup
        (AddressBus.read cpu.registers.pc bus).1
        ).isNeverExecuted = false)
    (lines : InterruptLines) :
    ∃ done, (cpu.step lines bus).1 = .ok done := by
  unfold step InterruptLines.takeNmi
  dsimp only
  split_ifs
  · exact ⟨_, rfl⟩
  · exact ⟨_, rfl⟩
  · rcases Instruction.execute_isOk hExecuted
      cpu.registers (AddressBus.read cpu.registers.pc bus).2 with
      ⟨done, hDone⟩
    refine ⟨⟨{ cpu with registers := done.registers }, lines,
      done.cycles⟩, ?_⟩
    exact congrArg (Except.map _) hDone

end Execution

end Famicom
