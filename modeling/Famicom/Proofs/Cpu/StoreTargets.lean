import Famicom.Proofs.Cpu.EffectiveAddresses

/-
  Where steps write to.

  Most steps write to the stack page at most.  A step that
  writes elsewhere executes an instruction that stores, and
  all that it writes goes to the one operand.

  Key definitions include:
    * `BusAccess.WritesTo`
    * `Operation.stores`

  Main declarations:
    * `OnBus.Within.writesTo`
    * `Instruction.execute_writesTo`
    * `Cpu.step_of_stored`
-/

namespace Famicom

open Recorded (Leaves)

variable {β : Type} [AddressBus β]

------------------------------------------------------------
-- Traffic
------------------------------------------------------------

/- All writes go to addresses of a region. -/
def BusAccess.WritesTo
    (inside : UInt16 → Prop)
    (accesses : List BusAccess) : Prop :=
  ∀ address value,
    .write address value ∈ accesses → inside address

namespace BusAccess

variable {inside : UInt16 → Prop}
variable {address : UInt16} {value : UInt8}
variable {accesses : List BusAccess}

@[simp] theorem writesTo_nil : WritesTo inside [] :=
  fun _ _ hNone => absurd hNone List.not_mem_nil

@[simp] theorem writesTo_read_cons :
    WritesTo inside (.read address value :: accesses) ↔
      WritesTo inside accesses := by
  unfold WritesTo
  simp

@[simp] theorem writesTo_write_cons :
    WritesTo inside (.write address value :: accesses) ↔
      inside address ∧ WritesTo inside accesses := by
  constructor
  · intro hWrites
    exact ⟨hWrites address value List.mem_cons_self,
      fun _ _ hRest =>
        hWrites _ _ (List.mem_cons_of_mem _ hRest)⟩
  · rintro ⟨hHere, hRest⟩ other value' hWrite
    rcases List.mem_cons.mp hWrite with hSame | hLater
    · cases hSame
      exact hHere
    · exact hRest other value' hLater

@[simp] theorem writesTo_append
    {more : List BusAccess} :
    WritesTo inside (accesses ++ more) ↔
      WritesTo inside accesses ∧ WritesTo inside more := by
  unfold WritesTo
  simp [or_imp, forall_and]

end BusAccess

open BusAccess (WritesTo)

/- Without other writes all go to the region. -/
theorem OnBus.Within.writesTo
    {α : Type}
    {inside : UInt16 → Prop}
    {post : α → Prop}
    {computation : OnBus α}
    (hWithin : Within inside 0 post computation) :
    Leaves (fun _ accesses => WritesTo inside accesses)
      (computation (Recorded β)) := by
  rcases hWithin with ⟨program, hProgram, hRun⟩
  rw [hRun]
  clear hRun
  generalize hNone : 0 = writes at hProgram
  induction hProgram with
  | done hPost => exact .pure BusAccess.writesTo_nil
  | @read _ address _ _ ih =>
      refine (Leaves.read address).bind ?_
      rintro value _ rfl
      refine (ih value hNone).mono fun _ more hMore => ?_
      exact BusAccess.writesTo_read_cons.mpr hMore
  | @inside _ address value _ hInside _ ih =>
      refine (Leaves.write address value).bind ?_
      rintro _ _ rfl
      refine (ih hNone).mono fun _ more hMore => ?_
      exact BusAccess.writesTo_write_cons.mpr ⟨hInside, hMore⟩
  | outside => cases hNone

------------------------------------------------------------
-- Instructions
------------------------------------------------------------

/- Finding an operand writes nothing. -/
theorem AddressingMode.Locates.writesTo
    {mode : AddressingMode}
    {r : Registers}
    {writes : Bool}
    {address : Nat}
    {accesses : List BusAccess}
    {inside : UInt16 → Prop}
    (hLocates : mode.Locates r writes address accesses) :
    WritesTo inside accesses := by
  have hFix
      {base address : Nat}
      {index : UInt8}
      {fix : List BusAccess}
      (hIndexes : Indexes base index writes address fix) :
      WritesTo inside fix := by
    have hTraffic := hIndexes.2
    split_ifs at hTraffic
    · rcases hTraffic with ⟨value, rfl⟩
      simp
    · rw [hTraffic]
      exact BusAccess.writesTo_nil
  cases hLocates with
  | absoluteX low high hIndexes => simp [hFix hIndexes]
  | absoluteY low high hIndexes => simp [hFix hIndexes]
  | indirectY place low high hIndexes => simp [hFix hIndexes]
  | _ => simp

/- Whether an operation stores to an operand. -/
def Operation.stores : Operation → Bool
  | store _ | modify _ => true
  | _ => false

namespace Instruction

variable {i : Instruction}

theorem execute_writesTo
    (hStores : i.operation.stores = false)
    (r : Registers) :
    Leaves (β := β)
      (fun _ behind => WritesTo Registers.OnStack behind)
      (i.execute r) := by
  have hOk
      {execution : OnBus Executed}
      (hWithin : i.ExecutesWithin 0 execution) :
      Leaves (β := β)
        (fun _ behind => WritesTo Registers.OnStack behind)
        (Except.ok (ε := MachineFault) <$>
          execution (Recorded β)) :=
    hWithin.writesTo.map _ fun _ _ hWrites => hWrites
  unfold execute
  cases hOperation : i.operation with
  | store op | modify op =>
      rw [hOperation] at hStores
      cases hStores
  | implied op => exact .pure BusAccess.writesTo_nil
  | jam => exact .pure BusAccess.writesTo_nil
  | unsupported => exact .pure BusAccess.writesTo_nil
  | read op => exact hOk (i.executeRead_within r op)
  | branch condition =>
      exact hOk (i.executeBranch_within r condition)
  | push op => exact hOk (i.executePush_within r op)
  | pull op => exact hOk (i.executePull_within r op)
  | jump => exact hOk (i.executeJump_within r)
  | call => exact hOk (i.executeCall_within r)
  | subroutineReturn => exact hOk (i.executeReturn_within r)
  | softwareInterrupt =>
      exact hOk (i.executeSoftwareInterrupt_within r)
  | interruptReturn =>
      exact hOk (i.executeInterruptReturn_within r)

/- If it does, all writes go to the same address. -/
theorem Addresses.writesTo
    {r after : Registers}
    {behind : List BusAccess}
    (hStores : i.operation.stores = true)
    (hAddresses : i.Addresses r after behind) :
    ∃ target, WritesTo (· = target) behind := by
  unfold Addresses at hAddresses
  cases hOperation : i.operation with
  | store op =>
      rw [hOperation] at hAddresses
      rcases hAddresses with ⟨address, lookups, hLocates, rfl⟩
      refine ⟨.ofNat address, ?_⟩
      simp [hLocates.writesTo]
  | modify op =>
      rw [hOperation] at hAddresses
      dsimp only at hAddresses
      split_ifs at hAddresses
      · rw [hAddresses]
        exact ⟨0, BusAccess.writesTo_nil⟩
      · rcases hAddresses with
          ⟨address, lookups, value, hLocates, rfl⟩
        refine ⟨.ofNat address, ?_⟩
        simp [hLocates.writesTo]
  | _ =>
      rw [hOperation] at hStores
      cases hStores

end Instruction

------------------------------------------------------------
-- Steps
------------------------------------------------------------

/- An interrupt saves to the stack and nowhere else. -/
theorem Registers.sequenceTraffic_writesTo
    (r : Registers)
    (vector : UInt16)
    (low high : UInt8) :
    WritesTo OnStack (r.sequenceTraffic vector low high) := by
  have hPlace (place : UInt8) : OnStack (stackAt place) := by
    have hAt := toNat_stackPlace place
    have hBelow : place.toNat < 256 := place.toNat_lt
    unfold OnStack stackAt
    omega
  unfold sequenceTraffic
  simp [hPlace]

theorem Cpu.interrupt_writesTo
    (cpu : Cpu)
    (lines : InterruptLines)
    (bus : β)
    (vector : UInt16) :
    WritesTo Registers.OnStack
      (cpu.interrupt lines vector
        ({ bus := bus } : Recorded β)).2.accesses := by
  rcases cpu.interrupt_traffic lines bus vector with
    ⟨low, high, hTraffic, -⟩
  rw [hTraffic]
  exact cpu.registers.sequenceTraffic_writesTo vector low high

/-
  A step that writes elsewhere succeeds, and writes nowhere
  else.
-/
theorem Cpu.step_of_stored
    {cpu : Cpu}
    {lines : InterruptLines}
    {bus : β}
    {address : UInt16}
    {value : UInt8}
    (hWrite :
      .write address value ∈
        (cpu.step lines
          ({ bus := bus } : Recorded β)).2.accesses)
    (hOutside : ¬Registers.OnStack address) :
    ∃ done recorded,
      cpu.step lines ({ bus := bus } : Recorded β) =
          (.ok done, recorded) ∧
        WritesTo (· = address) recorded.accesses := by
  cases hAction : cpu.nextAction lines with
  | serveNmi =>
      rw [step_eq_perform, hAction] at hWrite
      have hSaves := cpu.interrupt_writesTo lines.takeNmi.2
        bus Hardware.nmiVector
      exact absurd (hSaves _ _ hWrite) hOutside
  | serveIrq =>
      rw [step_eq_perform, hAction] at hWrite
      have hSaves := cpu.interrupt_writesTo lines bus
        Hardware.irqVector
      exact absurd (hSaves _ _ hWrite) hOutside
  | execute =>
      let opcode := (AddressBus.read cpu.registers.pc bus).1
      let i := cpu.table.lookup opcode
      have hFetches : cpu.Fetches lines bus opcode :=
        ⟨hAction, rfl⟩
      cases hStores : i.operation.stores with
      | false =>
          rcases step_leaves hFetches
            (i.execute_writesTo hStores cpu.registers) with
            ⟨result, recorded, behind, hStep, hSeen, hWrites⟩
          rw [hStep] at hWrite
          rw [← BusAccess.writesTo_read_cons, ← hSeen]
            at hWrites
          exact absurd (hWrites _ _ hWrite) hOutside
      | true =>
          have hExecuted : i.isNeverExecuted = false := by
            unfold Instruction.isNeverExecuted
            cases hOperation : i.operation <;>
              first
              | rfl
              | (rw [hOperation] at hStores
                 cases hStores)
          rcases step_addresses hFetches hExecuted with
            ⟨executed, recorded, behind, hStep, hSeen,
              hAddresses⟩
          rcases hAddresses.writesTo hStores with
            ⟨target, hWrites⟩
          rw [← BusAccess.writesTo_read_cons, ← hSeen]
            at hWrites
          rw [hStep] at hWrite
          have hTarget := hWrites _ _ hWrite
          subst hTarget
          exact ⟨_, recorded, hStep, hWrites⟩

end Famicom
