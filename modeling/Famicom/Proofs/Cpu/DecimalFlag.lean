import Famicom.Proofs.Cpu.Session

/-
  The decimal flag is stored and nothing else.

  Two processors that differ in this flag alone do the same,
  as long as they show their status to nobody.  Afterwards
  they still differ in the flag, unless the operation is one
  that decides it.

  Key definitions include:
    * `Operation.showsStatus`
    * `Operation.decidesDecimal`
    * `Registers.flipDecimal`
    * `Cpu.Step.flipUnless`
    * `Session.flipDecimal`

  Main declarations:
    * `Instruction.execute_flipDecimal`
    * `Session.outcome_flipDecimal`
    * `Session.traffic_flipDecimal`
-/

namespace Famicom

------------------------------------------------------------
-- Operations
------------------------------------------------------------

namespace Operation

/- Whether an operation copies the status to the stack. -/
def showsStatus : Operation → Bool
  | push op => op == .php
  | softwareInterrupt => true
  | _ => false

/- Whether the decimal flag afterwards is the operation's. -/
def decidesDecimal : Operation → Bool
  | implied op => op == .cld || op == .sed
  | pull op => op == .plp
  | interruptReturn => true
  | _ => false

end Operation

namespace OpcodeTable

variable {fidelity : Fidelity} {table : OpcodeTable}

/- BRK and PHP are the opcodes that show the status. -/
theorem showsStatus_lookup_iff
    (hTable : atFidelity fidelity = .ok table)
    (opcode : UInt8) :
    (table.lookup opcode).operation.showsStatus = true ↔
      opcode = 0x00 ∨ opcode = 0x08 := by
  have hAll :
      (Opcodes.atFidelity fidelity).all (fun i =>
        i.operation.showsStatus ==
          decide (i.opcode = 0x00 ∨ i.opcode = 0x08)) =
        true := by
    cases fidelity <;> decide +kernel
  rcases lookup_spec hTable opcode with ⟨hMember, hOpcode⟩
  have hHere := List.all_eq_true.mp hAll _ hMember
  rw [beq_iff_eq.mp hHere, hOpcode, decide_eq_true_iff]

/- CLD, SED, PLP and RTI are those that decide the flag. -/
theorem decidesDecimal_lookup_iff
    (hTable : atFidelity fidelity = .ok table)
    (opcode : UInt8) :
    (table.lookup opcode).operation.decidesDecimal = true ↔
      opcode ∈ [0xD8, 0xF8, 0x28, 0x40] := by
  have hAll :
      (Opcodes.atFidelity fidelity).all (fun i =>
        i.operation.decidesDecimal ==
          decide (i.opcode ∈ [0xD8, 0xF8, 0x28, 0x40])) =
        true := by
    cases fidelity <;> decide +kernel
  rcases lookup_spec hTable opcode with ⟨hMember, hOpcode⟩
  have hHere := List.all_eq_true.mp hAll _ hMember
  rw [beq_iff_eq.mp hHere, hOpcode, decide_eq_true_iff]

end OpcodeTable

------------------------------------------------------------
-- Registers
------------------------------------------------------------

namespace Registers

/- The registers with the other decimal flag. -/
def flipDecimal (r : Registers) : Registers :=
  { r with
    status :=
      { r.status with decimal := !r.status.decimal } }

/- The same, unless the flag is decided otherwise. -/
def flipUnless
    (decided : Bool)
    (r : Registers) : Registers :=
  if decided then r else r.flipDecimal

end Registers

theorem RegisterOp.apply_flipDecimal
    (op : RegisterOp)
    (r : Registers) :
    op.apply r.flipDecimal =
      (op.apply r).flipUnless
        (Operation.implied op).decidesDecimal := by
  cases op <;> rfl

theorem ReadOp.apply_flipDecimal
    (op : ReadOp)
    (r : Registers)
    (operand : UInt8) :
    op.apply r.flipDecimal operand =
      (op.apply r operand).flipDecimal := by
  cases op <;> rfl

theorem ModifyOp.apply_flipDecimal
    (op : ModifyOp)
    (r : Registers)
    (operand : UInt8) :
    op.apply r.flipDecimal operand =
      (op.apply r operand).map id Registers.flipDecimal := by
  cases op <;> rfl

theorem PullOp.apply_flipDecimal
    (op : PullOp)
    (r : Registers)
    (value : UInt8) :
    op.apply r.flipDecimal value =
      (op.apply r value).flipUnless
        (Operation.pull op).decidesDecimal := by
  cases op <;> rfl

theorem Condition.holds_flipDecimal
    (condition : Condition)
    (r : Registers) :
    condition.holds r.flipDecimal.status =
      condition.holds r.status := by
  cases condition <;> rfl

------------------------------------------------------------
-- Instructions
------------------------------------------------------------

section Processor

variable {β : Type} [AddressBus β]

/- Where an operand is does not depend on the status. -/
theorem AddressingMode.resolve_flipDecimal
    (mode : AddressingMode)
    (r : Registers)
    (writes : Bool) :
    (mode.resolve r.flipDecimal writes : StateM β Operand) =
      mode.resolve r writes := by
  cases mode <;> rfl

/- The outcome with the other decimal flag, if it is kept. -/
def Executed.flipUnless
    (decided : Bool)
    (done : Executed) : Executed :=
  { done with registers := done.registers.flipUnless decided }

namespace Instruction

variable (i : Instruction) (r : Registers) (bus : β)

theorem executeRead_flipDecimal (op : ReadOp) :
    i.executeRead op r.flipDecimal bus =
      (i.executeRead op r bus).map
        (Executed.flipUnless false) id := by
  unfold executeRead
  rw [AddressingMode.resolve_flipDecimal]
  simp only [bind, StateT.bind]
  exact congrArg
    (fun registers => ((⟨registers, _⟩ : Executed), _))
    (op.apply_flipDecimal (i.advance r) _)

theorem executeModify_flipDecimal (op : ModifyOp) :
    i.executeModify op r.flipDecimal bus =
      (i.executeModify op r bus).map
        (Executed.flipUnless false) id := by
  unfold executeModify
  split
  · have hApply := op.apply_flipDecimal (i.advance r) r.a
    show ((⟨{ (op.apply (i.advance r).flipDecimal r.a).2 with
      a := (op.apply (i.advance r).flipDecimal r.a).1 }, _⟩ :
        Executed), bus) = _
    rw [hApply]
    rfl
  · rw [AddressingMode.resolve_flipDecimal]
    have hApply (value : UInt8) :
        op.apply (i.advance r.flipDecimal) value =
          (op.apply (i.advance r) value).map id
            Registers.flipDecimal :=
      op.apply_flipDecimal (i.advance r) value
    simp only [bind, StateT.bind, hApply]
    rfl

theorem executeBranch_flipDecimal (condition : Condition) :
    i.executeBranch condition r.flipDecimal bus =
      (i.executeBranch condition r bus).map
        (Executed.flipUnless false) id := by
  unfold executeBranch
  rw [Condition.holds_flipDecimal]
  simp only [bind, StateT.bind]
  by_cases hTaken : condition.holds r.status = true
  · simp only [hTaken, if_true]
    rfl
  · simp only [hTaken, Bool.false_eq_true, if_false]
    rfl

theorem executeStore_flipDecimal (op : StoreOp) :
    i.executeStore op r.flipDecimal bus =
      (i.executeStore op r bus).map
        (Executed.flipUnless false) id := by
  unfold executeStore
  rw [AddressingMode.resolve_flipDecimal]
  cases op <;> rfl

theorem executeJump_flipDecimal :
    i.executeJump r.flipDecimal bus =
      (i.executeJump r bus).map
        (Executed.flipUnless false) id := by
  unfold executeJump
  rw [AddressingMode.resolve_flipDecimal]
  rfl

theorem executePull_flipDecimal (op : PullOp) :
    i.executePull op r.flipDecimal bus =
      (i.executePull op r bus).map
        (Executed.flipUnless
          (Operation.pull op).decidesDecimal) id := by
  let pulled := (i.advance r).pull bus
  exact congrArg
    (fun registers =>
      ((⟨registers, i.cycles⟩ : Executed), pulled.2))
    (op.apply_flipDecimal pulled.1.2 pulled.1.1)

/-
  An instruction that shows the status to nobody does the
  same with the other decimal flag.
-/
theorem execute_flipDecimal
    (hHides : i.operation.showsStatus = false) :
    i.execute r.flipDecimal bus =
      (i.execute r bus).map
        (·.map (Executed.flipUnless
          i.operation.decidesDecimal)) id := by
  have hOk
      {decided : Bool}
      {other same : Executed × β}
      (hSame :
        other = same.map (Executed.flipUnless decided) id) :
      Prod.map (Except.ok (ε := MachineFault)) id other =
        (Prod.map Except.ok id same).map
          (·.map (Executed.flipUnless decided)) id := by
    rw [hSame]
    rfl
  unfold execute
  cases hOperation : i.operation with
  | softwareInterrupt =>
      rw [hOperation] at hHides
      cases hHides
  | implied op =>
      have hApply := op.apply_flipDecimal (i.advance r)
      exact congrArg
        (fun registers =>
          ((.ok ⟨registers, i.cycles⟩ :
            Except MachineFault Executed), bus)) hApply
  | read op => exact hOk (i.executeRead_flipDecimal r bus op)
  | modify op =>
      exact hOk (i.executeModify_flipDecimal r bus op)
  | branch condition =>
      exact hOk (i.executeBranch_flipDecimal r bus condition)
  | push op =>
      cases op with
      | pha => rfl
      | php =>
          rw [hOperation] at hHides
          cases hHides
  | pull op => exact hOk (i.executePull_flipDecimal r bus op)
  | store op =>
      exact hOk (i.executeStore_flipDecimal r bus op)
  | jump => exact hOk (i.executeJump_flipDecimal r bus)
  | call => rfl
  | subroutineReturn => rfl
  | interruptReturn => rfl
  | jam | unsupported => rfl

end Instruction

------------------------------------------------------------
-- Steps
------------------------------------------------------------

namespace Cpu

/- The processor with the other decimal flag. -/
def flipDecimal (cpu : Cpu) : Cpu :=
  { cpu with registers := cpu.registers.flipDecimal }

/- The step with it, if it is kept. -/
def Step.flipUnless
    (decided : Bool)
    (done : Step) : Step :=
  { done with
    cpu :=
      { done.cpu with
        registers := done.cpu.registers.flipUnless decided } }

/- What the next step does is up to other flags. -/
theorem fetches_flipDecimal
    {cpu : Cpu}
    {lines : InterruptLines}
    {bus : β}
    {opcode : UInt8}
    (hFetches : cpu.Fetches lines bus opcode) :
    cpu.flipDecimal.Fetches lines bus opcode :=
  ⟨hFetches.action, hFetches.opcode⟩

theorem step_flipDecimal
    {cpu : Cpu}
    {lines : InterruptLines}
    {bus : β}
    {opcode : UInt8}
    (hFetches : cpu.Fetches lines bus opcode)
    (hHides :
      (cpu.table.lookup opcode).operation.showsStatus =
        false) :
    cpu.flipDecimal.step lines bus =
      (cpu.step lines bus).map
        (·.map (Step.flipUnless
          (cpu.table.lookup
            opcode).operation.decidesDecimal)) id := by
  have hExecute := (cpu.table.lookup opcode
    ).execute_flipDecimal cpu.registers
      (AddressBus.read cpu.registers.pc bus).2 hHides
  rw [step_of_fetches hFetches,
    step_of_fetches (fetches_flipDecimal hFetches)]
  show Prod.map _ id ((cpu.table.lookup opcode).execute
    cpu.registers.flipDecimal
      (AddressBus.read cpu.registers.pc bus).2) = _
  rw [hExecute]
  generalize (cpu.table.lookup opcode).execute cpu.registers
    (AddressBus.read cpu.registers.pc bus).2 = executed
  rcases executed with ⟨_ | _, _⟩ <;> rfl

end Cpu

------------------------------------------------------------
-- Sessions
------------------------------------------------------------

namespace Session

/- The session with the other decimal flag. -/
def flipDecimal (s : Session β) : Session β :=
  { s with cpu := s.cpu.flipDecimal }

variable {s : Session β} {opcode : UInt8}

theorem outcome_flipDecimal
    (hFetched : s.fetched? = some opcode)
    (hHides :
      (s.cpu.table.lookup opcode).operation.showsStatus =
        false) :
    s.flipDecimal.outcome =
      s.outcome.map (Cpu.Step.flipUnless
        (s.cpu.table.lookup
          opcode).operation.decidesDecimal) :=
  congrArg Prod.fst
    (Cpu.step_flipDecimal (fetched?_eq_some_iff.mp hFetched)
      hHides)

/- The same holds on a bus that records its traffic. -/
theorem traffic_flipDecimal
    (hFetched : s.fetched? = some opcode)
    (hHides :
      (s.cpu.table.lookup opcode).operation.showsStatus =
        false) :
    s.flipDecimal.traffic = s.traffic := by
  have hFetches := fetched?_eq_some_iff.mp hFetched
  have hRecorded :
      s.cpu.Fetches s.lines
        ({ bus := s.bus } : Recorded β) opcode :=
    ⟨hFetches.action, hFetches.opcode⟩
  have hStep := Cpu.step_flipDecimal hRecorded hHides
  unfold traffic
  exact congrArg (·.2.accesses) hStep

theorem next_flipDecimal_bus
    (hFetched : s.fetched? = some opcode)
    (hHides :
      (s.cpu.table.lookup opcode).operation.showsStatus =
        false) :
    s.flipDecimal.next.bus = s.next.bus := by
  have hBus (t : Session β) :
      t.next.bus = (t.cpu.step t.lines t.bus).2 := by
    unfold next
    generalize t.cpu.step t.lines t.bus = stepped
    rcases stepped with ⟨result, bus⟩
    cases result <;> rfl
  have hStep := Cpu.step_flipDecimal
    (fetched?_eq_some_iff.mp hFetched) hHides
  rw [hBus, hBus]
  exact congrArg (·.2) hStep

/-
  Since it has been switched on, a processor of any fidelity
  has the bit without storage set and the break flag clear,
  whatever the bus and the lines do.  If the next step
  executes an instruction other than BRK and PHP, it does the
  same with the other decimal flag: it fails with the same
  fault or takes the same cycles, it causes the same traffic,
  and all registers and all other flags are the same after
  it.  After CLD, SED, PLP and RTI so is the decimal flag, and
  after all others it is still the other one.
-/
theorem decimal_flag_only_stored
    {fidelity : Fidelity}
    (hDriven : Cpu.Driven fidelity s.cpu) :
    let status := s.cpu.registers.status
    let other := s.flipDecimal
    Bits.isSet status.toByte 5 = true ∧
    Bits.isSet status.toByte 4 = false ∧
    ∀ opcode, s.fetched? = some opcode →
      opcode ≠ 0x00 → opcode ≠ 0x08 →
        other.traffic = s.traffic ∧
        other.next.bus = s.next.bus ∧
        (∀ fault, s.outcome = .error fault →
          other.outcome = .error fault) ∧
        ∀ done, s.outcome = .ok done →
          other.outcome = .ok
            (if opcode ∈ [0xD8, 0xF8, 0x28, 0x40] then
              done
            else
              { done with cpu := done.cpu.flipDecimal }) := by
  intro status other
  have hBreak : Bits.isSet status.toByte 4 = false :=
    (status.isSet_toByte .breakMark).trans hDriven.breakMark
  refine ⟨status.isSet_toByte_unused, hBreak, ?_⟩
  intro opcode hFetched hBrk hPhp
  have hHides :
      (s.cpu.table.lookup opcode).operation.showsStatus =
        false := by
    apply Bool.eq_false_iff.mpr
    rw [ne_eq, OpcodeTable.showsStatus_lookup_iff hDriven.table]
    exact not_or_intro hBrk hPhp
  have hDecides := OpcodeTable.decidesDecimal_lookup_iff
    hDriven.table opcode
  have hOutcome := outcome_flipDecimal hFetched hHides
  refine ⟨traffic_flipDecimal hFetched hHides,
    next_flipDecimal_bus hFetched hHides, ?_, ?_⟩
  · intro fault hFails
    rw [hOutcome, hFails]
    rfl
  · intro done hDone
    rw [hOutcome, hDone]
    refine congrArg Except.ok ?_
    unfold Cpu.Step.flipUnless Registers.flipUnless
    by_cases hListed : opcode ∈ [0xD8, 0xF8, 0x28, 0x40]
    · rw [if_pos (hDecides.mpr hListed), if_pos hListed]
    · rw [if_neg (mt hDecides.mp hListed), if_neg hListed]
      rfl

end Session

end Processor

/-
  In memory that is full of ADCs, the second addition gives
  the binary sum, whether the decimal flag is set or not.
-/
theorem Session.added_in_binary :
    ∃ (s : Session Ram) (done : Cpu.Step),
      Cpu.Driven .strict s.cpu ∧
        s.fetched? = some 0x69 ∧
        s.cpu.registers.a = 0x69 ∧
        s.flipDecimal.cpu.registers.status.decimal = true ∧
        s.flipDecimal.outcome = .ok done ∧
        done.cpu.registers.a = 0xD2 ∧
        done.cpu.registers.status.decimal = true := by
  let memory := Ram.filled 0x0100 0x69
  let adc : Instruction :=
    { opcode := 0x69, name := "ADC", operation := .read .adc
      mode := .immediate, cycles := 2 }
  let r : Registers := { Registers.powerOn with pc := 0x6969 }
  rcases OpcodeTable.atFidelity_isOk .strict with
    ⟨table, hTable⟩
  have hEntry : table.lookup 0x69 = adc := by
    apply OpcodeTable.lookup_eq_of_mem hTable (i := adc)
    decide +kernel
  have hStart :
      (AddressBus.readWord Hardware.resetVector memory).1 =
        0x6969 := by
    decide +kernel
  have hNew : Cpu.ofFidelity .strict =
      .ok ⟨table, .powerOn, false⟩ := by
    unfold Cpu.ofFidelity
    rw [hTable]
    rfl
  have hReset : Cpu.Driven .strict ⟨table, r, true⟩ := by
    show Cpu.Driven .strict
      ⟨table, { Registers.powerOn with pc := 0x6969 }, true⟩
    rw [← hStart]
    exact .reset memory (.new hNew)
  -- Both additions fetch the opcode from the same memory.
  have hStep
      (r : Registers)
      (hOpcode : (AddressBus.read r.pc memory).1 = 0x69) :
      Cpu.Fetches ⟨table, r, true⟩ {} memory 0x69 ∧
        (Cpu.step ⟨table, r, true⟩ {} memory).1 =
          (adc.execute r memory).1.map fun done =>
            ⟨⟨table, done.registers, true⟩, {},
              done.cycles⟩ := by
    have hFetches :
        Cpu.Fetches ⟨table, r, true⟩ {} memory 0x69 :=
      ⟨rfl, hOpcode⟩
    refine ⟨hFetches, ?_⟩
    rw [Cpu.step_of_fetches hFetches, ← hEntry]
    rfl
  let once : Registers := { r with a := 0x69, pc := 0x696B }
  let twice : Registers :=
    { r with
      a := 0xD2
      pc := 0x696D
      status :=
        { Status.powerOn with
          negative := true
          overflow := true } }
  have hOnce : (adc.execute r memory).1 = .ok ⟨once, 2⟩ := by
    decide +kernel
  have hTwice :
      (adc.execute once memory).1 = .ok ⟨twice, 2⟩ := by
    decide +kernel
  have hFirst := (hStep r (by decide +kernel)).2
  rw [hOnce] at hFirst
  have hDriven : Cpu.Driven .strict ⟨table, once, true⟩ :=
    .step hReset hFirst
  let s : Session Ram := ⟨⟨table, once, true⟩, {}, memory⟩
  rcases hStep once (by decide +kernel) with
    ⟨hFetches, hSecond⟩
  rw [hTwice] at hSecond
  have hFetched : s.fetched? = some 0x69 :=
    Session.fetched?_eq_some_iff.mpr hFetches
  rcases Session.decimal_flag_only_stored (s := s) hDriven with
    ⟨-, -, hSame⟩
  rcases hSame 0x69 hFetched (by decide) (by decide) with
    ⟨-, -, -, hOther⟩
  exact ⟨s, _, hDriven, hFetched, rfl, rfl,
    hOther _ hSecond, rfl, rfl⟩

end Famicom
