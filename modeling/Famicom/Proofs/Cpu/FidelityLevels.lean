import Famicom.Proofs.Cpu.Session

/-
  How the fidelity levels compare.

  All levels decode the opcodes of the manual alike, and they
  refuse the same jams and unstable opcodes.  They part on
  the stable opcodes that the manual leaves out: one level
  executes them, one only passes over them in the same time,
  and one refuses them.

  Key definitions include:
    * `Opcodes.IsDocumented`
    * `Opcodes.IsStable`
    * `Operation.isSequential`
    * `Session.withTable`
    * `Session.history`
    * `Session.KeepsToManual`

  Main declarations:
    * `OpcodeTable.exists_adapt_of_isStable`
    * `Instruction.execute_of_isSequential`
    * `Cpu.step_withTable`
    * `Session.run_withTable`
    * `Session.fidelity_levels_agree`
-/

namespace Famicom

------------------------------------------------------------
-- Kinds of Opcodes
------------------------------------------------------------

namespace Opcodes

/- The opcodes of a list of instructions. -/
def codes (list : List Instruction) : List UInt8 :=
  list.map (·.opcode)

/- The manual has the opcode. -/
def IsDocumented (opcode : UInt8) : Prop :=
  opcode ∈ codes documented

/- The opcode halts the processor. -/
def IsJam (opcode : UInt8) : Prop :=
  opcode ∈ codes jams

/- The result of the opcode depends on analog effects. -/
def IsUnstable (opcode : UInt8) : Prop :=
  opcode ∈ codes unstable

/-
  The manual leaves the opcode out, but it always does the
  same and lets the processor go on.
-/
structure IsStable (opcode : UInt8) : Prop where
  undocumented : ¬IsDocumented opcode
  goesOn : ¬IsJam opcode
  reliable : ¬IsUnstable opcode

theorem operation_of_mem_jams
    {i : Instruction}
    (hMember : i ∈ jams) :
    i.operation = .jam := by
  have hAll :
      jams.all (fun i => i.operation == .jam) = true := by
    decide
  exact beq_iff_eq.mp (List.all_eq_true.mp hAll i hMember)

theorem operation_of_mem_unstable
    {i : Instruction}
    (hMember : i ∈ unstable) :
    i.operation = .unsupported := by
  have hAll :
      unstable.all (fun i => i.operation == .unsupported) =
        true := by
    decide
  exact beq_iff_eq.mp (List.all_eq_true.mp hAll i hMember)

end Opcodes

/-
  Whether an operation goes on with the instruction behind
  its own, whatever the registers are.
-/
def Operation.isSequential : Operation → Bool
  | .implied _ | .read _ | .store _ | .modify _
  | .push _ | .pull _ => true
  | _ => false

namespace Instruction

variable (i : Instruction)
variable (hSequential : i.operation.isSequential = true)

include hSequential

theorem isNeverExecuted_of_isSequential :
    i.isNeverExecuted = false := by
  unfold isNeverExecuted
  cases hOperation : i.operation with
  | jam | unsupported =>
      rw [hOperation] at hSequential
      cases hSequential
  | _ => rfl

/- What the levels make of a sequential instruction. -/
theorem adapt_undocumented :
    i.adapt .undocumented = i := by
  simp [adapt, i.isNeverExecuted_of_isSequential hSequential]

theorem adapt_nopStub :
    i.adapt .nopStub =
      { i with operation := .implied .nop } := by
  simp [adapt, i.isNeverExecuted_of_isSequential hSequential]

theorem adapt_strict :
    i.adapt .strict =
      { i with operation := .unsupported } := by
  simp [adapt, i.isNeverExecuted_of_isSequential hSequential]

end Instruction

open Opcodes (codes IsDocumented IsJam IsUnstable IsStable)

/- What is stable goes on. -/
theorem Opcodes.isSequential_of_isStable
    {i : Instruction}
    (hListed : i ∈ undocumented)
    (hStable : IsStable i.opcode) :
    i.operation.isSequential = true := by
  have hAll :
      undocumented.all (fun i =>
        decide (i.opcode ∈ codes jams) ||
          decide (i.opcode ∈ codes unstable) ||
          i.operation.isSequential) = true := by
    decide +kernel
  have hHere := List.all_eq_true.mp hAll i hListed
  have hNoJam : i.opcode ∉ codes jams := hStable.goesOn
  have hReliable : i.opcode ∉ codes unstable :=
    hStable.reliable
  simpa [hNoJam, hReliable] using hHere

namespace OpcodeTable

variable {fidelity other : Fidelity}
variable {table table' : OpcodeTable}
variable {opcode : UInt8}

/- The manual's opcodes mean the same at all levels. -/
theorem lookup_eq_of_isDocumented
    (hTable : atFidelity fidelity = .ok table)
    (hOther : atFidelity other = .ok table')
    (hDocumented : IsDocumented opcode) :
    table'.lookup opcode = table.lookup opcode := by
  rcases List.mem_map.mp hDocumented with ⟨i, hListed, rfl⟩
  rw [lookup_of_documented hTable hListed,
    lookup_of_documented hOther hListed]

/- The others mean what their level makes of them. -/
theorem lookup_of_undocumented
    (hTable : atFidelity fidelity = .ok table)
    {i : Instruction}
    (hListed : i ∈ Opcodes.undocumented) :
    table.lookup i.opcode = i.adapt fidelity := by
  have hAdapted :
      i.adapt fidelity ∈ Opcodes.atFidelity fidelity :=
    List.mem_append_right _ (List.mem_map_of_mem hListed)
  have hEntry := lookup_eq_of_mem hTable hAdapted
  rw [opcode_adapt] at hEntry
  exact hEntry

/- Each opcode is in the manual or among the others. -/
theorem exists_mem_undocumented
    (hLeftOut : ¬IsDocumented opcode) :
    ∃ i ∈ Opcodes.undocumented, i.opcode = opcode := by
  rcases atFidelity_isOk .undocumented with ⟨table, hTable⟩
  rcases lookup_spec hTable opcode with ⟨hListed, hOpcode⟩
  rcases List.mem_append.mp hListed with hManual | hOther
  · exact absurd
      (hOpcode ▸ List.mem_map_of_mem hManual) hLeftOut
  · rcases List.mem_map.mp hOther with ⟨i, hMember, hAdapted⟩
    refine ⟨i, hMember, ?_⟩
    rw [← hOpcode, ← hAdapted, opcode_adapt]

/- What is never executed is the same at every level. -/
theorem operation_of_isNeverExecuted
    (hTable : atFidelity fidelity = .ok table)
    {i : Instruction}
    (hListed : i.undocumented ∈ Opcodes.undocumented)
    (hNever : i.isNeverExecuted = true) :
    (table.lookup i.opcode).operation = i.operation := by
  have hEntry := lookup_of_undocumented hTable hListed
  have hSame :
      i.undocumented.adapt fidelity = i.undocumented :=
    if_pos hNever
  rw [hSame] at hEntry
  have hOperation := congrArg Instruction.operation hEntry
  exact hOperation

theorem operation_of_isJam
    (hTable : atFidelity fidelity = .ok table)
    (hJam : IsJam opcode) :
    (table.lookup opcode).operation = .jam := by
  rcases List.mem_map.mp hJam with ⟨i, hMember, rfl⟩
  have hOperation := Opcodes.operation_of_mem_jams hMember
  have hListed : i.undocumented ∈ Opcodes.undocumented := by
    apply List.mem_map_of_mem
    simp only [List.mem_append, hMember, true_or]
  rw [← hOperation]
  apply operation_of_isNeverExecuted hTable hListed
  unfold Instruction.isNeverExecuted
  rw [hOperation]
  rfl

theorem operation_of_isUnstable
    (hTable : atFidelity fidelity = .ok table)
    (hUnstable : IsUnstable opcode) :
    (table.lookup opcode).operation = .unsupported := by
  rcases List.mem_map.mp hUnstable with ⟨i, hMember, rfl⟩
  have hOperation := Opcodes.operation_of_mem_unstable hMember
  have hListed : i.undocumented ∈ Opcodes.undocumented := by
    apply List.mem_map_of_mem
    simp only [List.mem_append, hMember, or_true]
  rw [← hOperation]
  apply operation_of_isNeverExecuted hTable hListed
  unfold Instruction.isNeverExecuted
  rw [hOperation]
  rfl

/-
  A stable opcode has one instruction, of which every level
  makes its own.
-/
theorem exists_adapt_of_isStable
    (hStable : IsStable opcode) :
    ∃ i : Instruction,
      i.opcode = opcode ∧
        i.operation.isSequential = true ∧
        ∀ {fidelity table},
          atFidelity fidelity = .ok table →
            table.lookup opcode = i.adapt fidelity := by
  rcases exists_mem_undocumented hStable.undocumented with
    ⟨i, hListed, rfl⟩
  exact ⟨i, rfl,
    Opcodes.isSequential_of_isStable hListed hStable,
    fun hTable => lookup_of_undocumented hTable hListed⟩

end OpcodeTable

------------------------------------------------------------
-- Going On
------------------------------------------------------------

/- Operations on registers leave the program counter alone. -/
theorem RegisterOp.apply_pc
    (op : RegisterOp)
    (r : Registers) :
    (op.apply r).pc = r.pc := by
  cases op <;> rfl

theorem ReadOp.apply_pc
    (op : ReadOp)
    (r : Registers)
    (operand : UInt8) :
    (op.apply r operand).pc = r.pc := by
  cases op <;> rfl

theorem ModifyOp.apply_pc
    (op : ModifyOp)
    (r : Registers)
    (operand : UInt8) :
    (op.apply r operand).2.pc = r.pc := by
  cases op <;> rfl

theorem PullOp.apply_pc
    (op : PullOp)
    (r : Registers)
    (value : UInt8) :
    (op.apply r value).pc = r.pc := by
  cases op <;> rfl

section Processor

variable {β : Type} [AddressBus β]

/- A sequential instruction succeeds and is followed by the next. -/
theorem Instruction.execute_of_isSequential
    {i : Instruction}
    (hSequential : i.operation.isSequential = true)
    (r : Registers)
    (bus : β) :
    ∃ done,
      (i.execute r bus).1 = .ok done ∧
        done.registers.pc = i.next r := by
  unfold execute
  cases hOperation : i.operation with
  | implied op =>
      exact ⟨_, rfl, op.apply_pc (i.advance r)⟩
  | read op =>
      exact ⟨_, rfl, op.apply_pc (i.advance r) _⟩
  | store op => exact ⟨_, rfl, rfl⟩
  | modify op =>
      refine ⟨_, rfl, ?_⟩
      show (i.executeModify op r bus).1.registers.pc = _
      unfold executeModify
      split
      · exact op.apply_pc (i.advance r) r.a
      · exact op.apply_pc (i.advance r) _
  | push op => exact ⟨_, rfl, rfl⟩
  | pull op =>
      exact ⟨_, rfl,
        op.apply_pc { i.advance r with sp := r.sp + 1 } _⟩
  | branch _ | jump | call | subroutineReturn
  | softwareInterrupt | interruptReturn | jam
  | unsupported =>
      rw [hOperation] at hSequential
      cases hSequential

------------------------------------------------------------
-- Other Tables
------------------------------------------------------------

namespace Cpu

/- The same processor with another decoding table. -/
def withTable
    (cpu : Cpu)
    (table : OpcodeTable) : Cpu :=
  { cpu with table := table }

/- The same step of that processor. -/
def Step.withTable
    (done : Step)
    (table : OpcodeTable) : Step :=
  { done with cpu := done.cpu.withTable table }

/-
  The table does not matter to a step as long as it has the
  same instruction for the opcode that is fetched.
-/
theorem step_withTable
    {cpu : Cpu}
    {lines : InterruptLines}
    (bus : β)
    (table : OpcodeTable)
    (hSame : ∀ opcode, cpu.Fetches lines bus opcode →
      table.lookup opcode = cpu.table.lookup opcode) :
    (cpu.withTable table).step lines bus =
      (cpu.step lines bus).map
        (·.map (·.withTable table)) id := by
  have hNext :
      (cpu.withTable table).nextAction lines =
        cpu.nextAction lines :=
    rfl
  cases hAction : cpu.nextAction lines with
  | serveNmi | serveIrq =>
      rw [step_eq_perform, step_eq_perform, hNext, hAction]
      rfl
  | execute =>
      let fetched := AddressBus.read cpu.registers.pc bus
      have hFetches : cpu.Fetches lines bus fetched.1 :=
        ⟨hAction, rfl⟩
      have hOther :
          (cpu.withTable table).Fetches lines bus fetched.1 :=
        ⟨hNext.trans hAction, rfl⟩
      have hEntry :
          (cpu.withTable table).table.lookup fetched.1 =
            cpu.table.lookup fetched.1 :=
        hSame fetched.1 hFetches
      rw [step_of_fetches hFetches, step_of_fetches hOther,
        hEntry]
      show Prod.map _ id ((cpu.table.lookup fetched.1).execute
        cpu.registers fetched.2) = _
      generalize (cpu.table.lookup fetched.1).execute
        cpu.registers fetched.2 = ran
      rcases ran with ⟨_ | _, _⟩ <;> rfl

end Cpu

------------------------------------------------------------
-- Sessions
------------------------------------------------------------

namespace Session

variable {s : Session β}
variable {table : OpcodeTable}
variable {opcode : UInt8}

/- The same session with another decoding table. -/
def withTable
    (s : Session β)
    (table : OpcodeTable) : Session β :=
  { s with cpu := s.cpu.withTable table }

/-
  What can be seen of a step: the registers and the cycles
  that it ends with, or its fault, and every access.
-/
structure Observation where
  result : Except MachineFault (Registers × Nat)
  traffic : List BusAccess

/- What can be seen of the next step. -/
def observe (s : Session β) : Observation where
  result := s.outcome.map fun done =>
    (done.cpu.registers, done.cycles)
  traffic := s.traffic

/- What can be seen of all steps of a schedule, in order. -/
def history (s : Session β) : List Event → List Observation
  | [] => []
  | event :: events =>
      (if event = .step then [s.observe] else []) ++
        (s.handle event).history events

/- All opcodes that a schedule's steps fetch are documented. -/
def KeepsToManual (s : Session β) : List Event → Prop
  | [] => True
  | event :: events =>
      (event = .step →
        ∀ opcode, s.fetched? = some opcode →
          IsDocumented opcode) ∧
        (s.handle event).KeepsToManual events

/- A step with another table that has the same instruction. -/
theorem step_withTable
    (hSame : ∀ opcode, s.fetched? = some opcode →
      table.lookup opcode = s.cpu.table.lookup opcode) :
    (s.withTable table).observe = s.observe ∧
      (s.withTable table).next = s.next.withTable table := by
  have hFetched {opcode : UInt8}
      (hFetches : s.cpu.Fetches s.lines s.bus opcode) :
      table.lookup opcode = s.cpu.table.lookup opcode :=
    hSame opcode (fetched?_eq_some_iff.mpr hFetches)
  have hStep := Cpu.step_withTable s.bus table
    fun _ hFetches => hFetched hFetches
  have hRecorded :=
    Cpu.step_withTable ({ bus := s.bus } : Recorded β) table
      fun _ hFetches =>
        hFetched ⟨hFetches.action, hFetches.opcode⟩
  have hTraffic :
      (s.withTable table).traffic = s.traffic :=
    congrArg (·.2.accesses) hRecorded
  have hOutcome :
      (s.withTable table).outcome =
        s.outcome.map (·.withTable table) :=
    congrArg Prod.fst hStep
  constructor
  · unfold observe
    rw [hTraffic, hOutcome]
    cases s.outcome <;> rfl
  · have hHere :
        (s.withTable table).cpu.step (s.withTable table).lines
            (s.withTable table).bus =
          (s.cpu.step s.lines s.bus).map
            (·.map (·.withTable table)) id :=
      hStep
    unfold next
    rw [hHere]
    rcases s.cpu.step s.lines s.bus with ⟨_ | _, _⟩ <;> rfl

/- Runs with tables that share the manual's instructions. -/
theorem run_withTable
    {events : List Event}
    (hSame : ∀ opcode, IsDocumented opcode →
      table.lookup opcode = s.cpu.table.lookup opcode)
    (hManual : s.KeepsToManual events) :
    (s.withTable table).history events = s.history events ∧
      (s.withTable table).run events =
        (s.run events).withTable table := by
  induction events generalizing s with
  | nil => exact ⟨rfl, rfl⟩
  | cons event events ih =>
      rcases hManual with ⟨hHere, hLater⟩
      rw [← table_handle event] at hSame
      have hRest := ih hSame hLater
      unfold history
      rw [run_cons, run_cons]
      cases event with
      | raiseNmi | setIrq _ => exact hRest
      | step =>
          rw [table_handle] at hSame
          rcases step_withTable fun opcode hFetched =>
            hSame opcode (hHere rfl opcode hFetched) with
            ⟨hObserve, hNext⟩
          have hHandle :
              (s.withTable table).handle .step =
                (s.handle .step).withTable table :=
            hNext
          rw [hHandle, hRest.1, hRest.2, hObserve]
          exact ⟨rfl, rfl⟩

/-
  A step whose instruction does not use the bus: all that
  goes by is the fetch.
-/
theorem observe_of_pure
    (result : Except MachineFault Executed)
    (hFetched : s.fetched? = some opcode)
    (hPure : ∀ (δ : Type) [AddressBus δ],
      (s.cpu.table.lookup opcode).execute s.cpu.registers =
        (pure result : StateM δ _)) :
    s.observe =
      ⟨result.map fun done => (done.registers, done.cycles),
        [.read s.cpu.registers.pc opcode]⟩ := by
  have hFetches := fetched?_eq_some_iff.mp hFetched
  have hRecorded :
      s.cpu.Fetches s.lines
        ({ bus := s.bus } : Recorded β) opcode :=
    ⟨hFetches.action, hFetches.opcode⟩
  have hOutcome :
      s.outcome = result.map (s.cpu.stepOf s.lines) := by
    unfold outcome
    rw [Cpu.step_of_fetches hFetches, hPure]
    rfl
  have hTraffic :
      s.traffic = [.read s.cpu.registers.pc opcode] := by
    unfold traffic
    rw [Cpu.step_of_fetches hRecorded, hPure,
      ← hFetches.opcode]
    rfl
  unfold observe
  rw [hOutcome, hTraffic]
  cases result <;> rfl

/- An opcode that is never executed fails in the same way. -/
theorem observe_of_isJam
    {fidelity : Fidelity}
    (hTable :
      OpcodeTable.atFidelity fidelity = .ok s.cpu.table)
    (hFetched : s.fetched? = some opcode)
    (hJam : IsJam opcode) :
    s.observe =
      ⟨.error (.jammed opcode s.cpu.registers.pc),
        [.read s.cpu.registers.pc opcode]⟩ := by
  have hOperation :=
    OpcodeTable.operation_of_isJam hTable hJam
  have hOpcode := (OpcodeTable.lookup_spec hTable opcode).2
  apply observe_of_pure
    (.error (.jammed opcode s.cpu.registers.pc)) hFetched
  intro δ _
  unfold Instruction.execute
  rw [hOperation, hOpcode]

theorem observe_of_unsupported
    {fidelity : Fidelity}
    (hTable :
      OpcodeTable.atFidelity fidelity = .ok s.cpu.table)
    (hFetched : s.fetched? = some opcode)
    (hUnsupported :
      (s.cpu.table.lookup opcode).operation =
        .unsupported) :
    s.observe =
      ⟨.error (.unsupportedOpcode opcode s.cpu.registers.pc),
        [.read s.cpu.registers.pc opcode]⟩ := by
  have hOpcode := (OpcodeTable.lookup_spec hTable opcode).2
  apply observe_of_pure
    (.error (.unsupportedOpcode opcode s.cpu.registers.pc))
    hFetched
  intro δ _
  unfold Instruction.execute
  rw [hUnsupported, hOpcode]

/- A stub goes on behind itself in its base cycles. -/
theorem observe_of_stub
    {i : Instruction}
    (hFetched : s.fetched? = some opcode)
    (hStub :
      s.cpu.table.lookup opcode =
        { i with operation := .implied .nop }) :
    s.observe =
      ⟨.ok ({ s.cpu.registers with
            pc := i.next s.cpu.registers }, i.cycles),
        [.read s.cpu.registers.pc opcode]⟩ := by
  apply observe_of_pure
    (.ok ⟨i.advance s.cpu.registers, i.cycles⟩) hFetched
  intro δ _
  rw [hStub]
  rfl

/- A sequential instruction goes on behind itself as well. -/
theorem outcome_of_isSequential
    (hFetched : s.fetched? = some opcode)
    (hSequential :
      (s.cpu.table.lookup opcode).operation.isSequential =
        true) :
    ∃ done,
      s.outcome = .ok done ∧
        done.cpu.registers.pc =
          (s.cpu.table.lookup opcode).next
            s.cpu.registers := by
  rcases Instruction.execute_of_isSequential hSequential
      s.cpu.registers
      (AddressBus.read s.cpu.registers.pc s.bus).2 with
    ⟨done, hDone, hNext⟩
  refine ⟨s.cpu.stepOf s.lines done, ?_, hNext⟩
  unfold outcome
  rw [Cpu.step_of_fetches (fetched?_eq_some_iff.mp hFetched)]
  exact congrArg (Except.map _) hDone

/- The other table does not change what is fetched. -/
theorem fetched?_withTable :
    (s.withTable table).fetched? = some opcode ↔
      s.fetched? = some opcode := by
  rw [fetched?_eq_some_iff, fetched?_eq_some_iff]
  exact ⟨fun h => ⟨h.action, h.opcode⟩,
    fun h => ⟨h.action, h.opcode⟩⟩

------------------------------------------------------------
-- Levels
------------------------------------------------------------

/-
  Three processors that differ in their fidelity level only,
  on the same bus and with the same lines.  Along every
  schedule that keeps one of them to the manual, each step of
  each other shows the same registers, cycles and accesses,
  and the schedule leaves the same state behind.  On a stable
  opcode that the manual leaves out, the stub takes the base
  cycles and ends where the executed opcode ends, with only
  the fetch on the bus and all other registers as they were,
  and the strict level fails.  The twelve jams and the eight
  unstable opcodes fail in the same way at all levels.
-/
theorem fidelity_levels_agree
    {tables : Fidelity → OpcodeTable}
    (hTables : ∀ fidelity,
      OpcodeTable.atFidelity fidelity =
        .ok (tables fidelity))
    (s : Session β) :
    let level (fidelity : Fidelity) :=
      s.withTable (tables fidelity)
    let r := s.cpu.registers
    (∀ fidelity other events,
      (level fidelity).KeepsToManual events →
        (level other).history events =
            (level fidelity).history events ∧
          (level other).run events =
            ((level fidelity).run events).withTable
              (tables other)) ∧
    (∀ opcode, s.fetched? = some opcode →
      (IsStable opcode →
        (∃ done,
          (level .undocumented).outcome = .ok done ∧
            (level .nopStub).observe =
              ⟨.ok ({ r with pc := done.cpu.registers.pc },
                  ((tables .undocumented).lookup
                    opcode).cycles),
                [.read r.pc opcode]⟩) ∧
          (level .strict).observe =
            ⟨.error (.unsupportedOpcode opcode r.pc),
              [.read r.pc opcode]⟩) ∧
      (IsJam opcode → ∀ fidelity,
        (level fidelity).observe =
          ⟨.error (.jammed opcode r.pc),
            [.read r.pc opcode]⟩) ∧
      (IsUnstable opcode → ∀ fidelity,
        (level fidelity).observe =
          ⟨.error (.unsupportedOpcode opcode r.pc),
            [.read r.pc opcode]⟩)) ∧
    (codes Opcodes.jams).length = 12 ∧
    (codes Opcodes.unstable).length = 8 := by
  intro level r
  refine ⟨?_, ?_, rfl, rfl⟩
  · intro fidelity other events hManual
    apply run_withTable (s := level fidelity) _ hManual
    intro opcode hDocumented
    exact OpcodeTable.lookup_eq_of_isDocumented
      (hTables fidelity) (hTables other) hDocumented
  · intro opcode hFetched
    have hHere (fidelity : Fidelity) :
        (level fidelity).fetched? = some opcode :=
      fetched?_withTable.mpr hFetched
    refine ⟨?_, ?_, ?_⟩
    · intro hStable
      rcases OpcodeTable.exists_adapt_of_isStable hStable with
        ⟨i, hOpcode, hSequential, hEntry⟩
      have hFull :
          (tables .undocumented).lookup opcode = i :=
        (hEntry (hTables .undocumented)).trans
          (i.adapt_undocumented hSequential)
      have hStub :
          (tables .nopStub).lookup opcode =
            { i with operation := .implied .nop } :=
        (hEntry (hTables .nopStub)).trans
          (i.adapt_nopStub hSequential)
      have hStrict :
          (tables .strict).lookup opcode =
            { i with operation := .unsupported } :=
        (hEntry (hTables .strict)).trans
          (i.adapt_strict hSequential)
      rw [← hFull] at hSequential
      rcases outcome_of_isSequential (hHere .undocumented)
          hSequential with
        ⟨done, hDone, hNext⟩
      refine ⟨⟨done, hDone, ?_⟩, ?_⟩
      · have hEnd : done.cpu.registers.pc = i.next r := by
          rw [hNext]
          exact congrArg (·.next r) hFull
        rw [hEnd, hFull]
        exact observe_of_stub (hHere .nopStub) hStub
      · exact observe_of_unsupported (hTables .strict)
          (hHere .strict) (congrArg _ hStrict)
    · intro hJam fidelity
      exact observe_of_isJam (hTables fidelity)
        (hHere fidelity) hJam
    · intro hUnstable fidelity
      exact observe_of_unsupported (hTables fidelity)
        (hHere fidelity)
        (OpcodeTable.operation_of_isUnstable
          (hTables fidelity) hUnstable)

end Session

end Processor

namespace Session

/- A processor at the start of memory that is full of a byte. -/
def amidst
    (table : OpcodeTable)
    (value : UInt8) : Session Ram where
  cpu := ⟨table, .blank, true⟩
  lines := {}
  bus := .filled 0x0100 value

theorem fetched?_amidst
    (table : OpcodeTable)
    (value : UInt8) :
    (amidst table value).fetched? = some value := by
  have hSize : 0 < 0x0100 := by decide
  have hRead := Ram.read_filled hSize value 0
  exact fetched?_eq_some_iff.mpr ⟨rfl, hRead⟩

/-
  Among idle instructions the levels run alike, whatever
  interrupts them.  On LAX the stub passes over two bytes in
  three cycles, and the strict level fails.
-/
theorem levels_on_nop_and_lax :
    ∃ tables : Fidelity → OpcodeTable,
      (∀ fidelity,
        OpcodeTable.atFidelity fidelity =
          .ok (tables fidelity)) ∧
      let idle (fidelity : Fidelity) :=
        amidst (tables fidelity) 0xEA
      let load (fidelity : Fidelity) :=
        amidst (tables fidelity) 0xA7
      let schedule : List Event := [.step, .raiseNmi, .step]
      (idle .undocumented).history schedule =
          (idle .strict).history schedule ∧
        (load .nopStub).observe =
          ⟨.ok ({ Registers.blank with pc := 2 }, 3),
            [.read 0 0xA7]⟩ ∧
        (load .strict).observe =
          ⟨.error (.unsupportedOpcode 0xA7 0),
            [.read 0 0xA7]⟩ := by
  choose tables hTables using OpcodeTable.atFidelity_isOk
  have hNop : IsDocumented 0xEA := by
    unfold IsDocumented
    decide +kernel
  have hLax : IsStable 0xA7 := by
    constructor
    · unfold IsDocumented
      decide +kernel
    · unfold IsJam
      decide +kernel
    · unfold IsUnstable
      decide +kernel
  have hEntry :
      (tables .undocumented).lookup 0xA7 =
        ⟨0xA7, "LAX", .read .lax, .zeroPage, 3, false⟩ := by
    apply OpcodeTable.lookup_eq_of_mem
      (hTables .undocumented)
      (i := ⟨0xA7, "LAX", .read .lax, .zeroPage, 3, false⟩)
    decide +kernel
  refine ⟨tables, hTables, ?_⟩
  intro idle load schedule
  have hManual : (idle .strict).KeepsToManual schedule := by
    refine ⟨?_, nofun, ?_, trivial⟩
    · intro _ opcode hFetched
      rw [fetched?_amidst] at hFetched
      exact Option.some.inj hFetched ▸ hNop
    · intro _ opcode hFetched
      have hFetches := fetched?_eq_some_iff.mp hFetched
      have hServes := (Cpu.nextAction_eq_serveNmi
        ((idle .strict).handle .step).cpu
        ((idle .strict).handle .step).lines.raiseNmi).mpr rfl
      cases hServes.symm.trans hFetches.action
  have hIdle :=
    (fidelity_levels_agree hTables (idle .strict)).1 .strict
      .undocumented schedule hManual
  have hLoad :=
    ((fidelity_levels_agree hTables (load .strict)).2.1 0xA7
      (fetched?_amidst _ _)).1 hLax
  rcases hLoad with ⟨⟨done, hDone, hStub⟩, hStrict⟩
  refine ⟨hIdle.1, ?_, hStrict⟩
  rcases outcome_of_isSequential
      (fetched?_amidst (tables .undocumented) 0xA7)
      (congrArg (·.operation.isSequential) hEntry) with
    ⟨done', hDone', hNext⟩
  cases hDone.symm.trans hDone'
  have hEnd : done.cpu.registers.pc = 2 := by
    rw [hNext]
    exact congrArg (·.next Registers.blank) hEntry
  rw [hEnd, hEntry] at hStub
  exact hStub

end Session

end Famicom
