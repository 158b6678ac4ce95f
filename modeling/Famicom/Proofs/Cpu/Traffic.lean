import Famicom.Cpu
import Famicom.Proofs.Bus.Program

/-
  The traffic of the processor.

  Every step of the processor is a program on its bus.  It
  writes at most twice outside of the stack page, and the
  cycles it takes are those of the instruction and at most
  two more.

  Key definitions include:
    * `Registers.OnStack`
    * `Instruction.Takes`
    * `Cpu.Step.Follows`

  Main declarations:
    * `Instruction.execute_within`
    * `Cpu.reset_within`
    * `Cpu.step_within`
-/

namespace Famicom

open OnBus

------------------------------------------------------------
-- Words and Operands
------------------------------------------------------------

/- The addresses of the stack page. -/
def Registers.OnStack (address : UInt16) : Prop :=
  address.toNat / 256 = 1

/- A computation that writes nothing but the stack. -/
def OnBus.KeepsToStack
    {α : Type}
    (computation : OnBus α) : Prop :=
  Within Registers.OnStack 0 (fun _ => True) computation

namespace AddressBus

theorem readWord_within (address : UInt16) :
    KeepsToStack (fun _ _ => readWord address) :=
  (Within.read address).followedBy fun _ _ =>
    (Within.read _).followedBy fun _ _ => .pure trivial

theorem readZeroPageWord_within (place : UInt8) :
    KeepsToStack (fun _ _ => readZeroPageWord place) :=
  (Within.read _).followedBy fun _ _ =>
    (Within.read _).followedBy fun _ _ => .pure trivial

theorem readWordInPage_within (address : UInt16) :
    KeepsToStack (fun _ _ => readWordInPage address) :=
  (Within.read _).followedBy fun _ _ =>
    (Within.read _).followedBy fun _ _ => .pure trivial

end AddressBus

theorem Operand.indexed_within
    (base : UInt16)
    (index : UInt8)
    (writes : Bool) :
    KeepsToStack
      (fun _ _ => Operand.indexed base index writes) := by
  unfold Operand.indexed
  dsimp only
  split
  · exact (Within.read _).followedBy fun _ _ => .pure trivial
  · exact .pure trivial

/- Finding an operand only takes reads. -/
theorem AddressingMode.resolve_within
    (mode : AddressingMode)
    (r : Registers)
    (writes : Bool) :
    KeepsToStack (fun _ _ => mode.resolve r writes) := by
  cases mode with
  | implied | accumulator | immediate | relative =>
      exact .pure trivial
  | zeroPage | zeroPageX | zeroPageY =>
      exact (Within.read _).followedBy fun _ _ =>
        .pure trivial
  | absolute =>
      exact (AddressBus.readWord_within _).followedBy
        fun _ _ => .pure trivial
  | absoluteX | absoluteY =>
      exact (AddressBus.readWord_within _).followedBy
        fun _ _ => Operand.indexed_within _ _ _
  | indirect =>
      exact (AddressBus.readWord_within _).followedBy
        fun _ _ =>
          (AddressBus.readWordInPage_within _).followedBy
            fun _ _ => .pure trivial
  | indirectX =>
      exact (Within.read _).followedBy fun _ _ =>
        (AddressBus.readZeroPageWord_within _).followedBy
          fun _ _ => .pure trivial
  | indirectY =>
      exact (Within.read _).followedBy fun _ _ =>
        (AddressBus.readZeroPageWord_within _).followedBy
          fun _ _ => Operand.indexed_within _ _ _

------------------------------------------------------------
-- The Stack
------------------------------------------------------------

namespace Registers

/- Page one begins at 256. -/
theorem toNat_stackPlace (place : UInt8) :
    (Hardware.stackPage ||| place.toUInt16).toNat =
      256 + place.toNat := by
  rw [UInt16.toNat_or, UInt8.toNat_toUInt16]
  exact (Nat.two_pow_add_eq_or_of_lt (i := 8)
    place.toNat_lt 1).symm

theorem onStack_stackAddress (r : Registers) :
    OnStack r.stackAddress := by
  have hPlace : r.sp.toNat < 256 := r.sp.toNat_lt
  have hAddress := toNat_stackPlace r.sp
  unfold OnStack stackAddress
  omega

theorem push_within
    (r : Registers)
    (value : UInt8) :
    KeepsToStack (fun _ _ => r.push value) :=
  (Within.writeInside value
    (onStack_stackAddress r)).followedBy
      fun _ _ => .pure trivial

theorem pull_within (r : Registers) :
    KeepsToStack (fun _ _ => r.pull) :=
  (Within.read _).followedBy fun _ _ => .pure trivial

theorem pushWord_within
    (r : Registers)
    (value : UInt16) :
    KeepsToStack (fun _ _ => r.pushWord value) :=
  (push_within r _).followedBy fun r' _ => push_within r' _

theorem pullWord_within (r : Registers) :
    KeepsToStack (fun _ _ => r.pullWord) :=
  (pull_within r).followedBy fun pulled _ =>
    (pull_within pulled.2).followedBy fun _ _ =>
      .pure trivial

theorem enterInterrupt_within
    (r : Registers)
    (vector returnAddress : UInt16)
    (software : Bool) :
    KeepsToStack (fun _ _ =>
      r.enterInterrupt vector returnAddress software) :=
  (pushWord_within r _).followedBy fun r' _ =>
    (push_within r' _).followedBy fun _ _ =>
      (AddressBus.readWord_within _).followedBy fun _ _ =>
        .pure trivial

end Registers

------------------------------------------------------------
-- Instructions
------------------------------------------------------------

namespace Instruction

variable (i : Instruction) (r : Registers)

/- An execution takes the cycles of its instruction or more. -/
def Takes (executed : Executed) : Prop :=
  i.cycles ≤ executed.cycles ∧
    executed.cycles ≤ i.cycles + 2

theorem takes_cycles
    {registers : Registers}
    {extra : Nat}
    (hExtra : extra ≤ 2) :
    i.Takes ⟨registers, i.cycles + extra⟩ :=
  ⟨Nat.le_add_right _ _, Nat.add_le_add_left hExtra _⟩

/- An execution that writes at most a number of times. -/
def ExecutesWithin
    (writes : Nat)
    (execution : OnBus Executed) : Prop :=
  Within Registers.OnStack writes i.Takes execution

/- Most executions end with the cycles of the instruction. -/
theorem executesWithin_pure
    (writes : Nat)
    (registers : Registers) :
    i.ExecutesWithin writes
      (fun _ _ => pure ⟨registers, i.cycles⟩) :=
  .pure (i.takes_cycles (Nat.zero_le 2))

theorem executeRead_within (op : ReadOp) :
    i.ExecutesWithin 0 (fun _ _ => i.executeRead op r) := by
  have hCost : i.pageCrossingCost ≤ 2 := by
    unfold pageCrossingCost
    split
    · split <;> decide
    · decide
  refine (i.mode.resolve_within r false).followedBy
    fun operand _ => (Within.read _).followedBy
      fun value _ => .pure (i.takes_cycles ?_)
  split
  · exact hCost
  · decide

theorem executeStore_within (op : StoreOp) :
    i.ExecutesWithin 1 (fun _ _ => i.executeStore op r) :=
  (i.mode.resolve_within r true).followedBy fun _ _ =>
    .writeThen _ _ (i.executesWithin_pure 0 _)

theorem executeModify_within (op : ModifyOp) :
    i.ExecutesWithin 2 (fun _ _ => i.executeModify op r) := by
  unfold executeModify
  split
  · exact i.executesWithin_pure _ _
  · exact (i.mode.resolve_within r true).followedBy fun _ _ =>
      (Within.read _).followedBy fun _ _ =>
        .writeThen _ _ (.writeThen _ _
          (i.executesWithin_pure 0 _))

theorem executeBranch_within (condition : Condition) :
    i.ExecutesWithin 0
      (fun _ _ => i.executeBranch condition r) := by
  refine (Within.read _).followedBy fun offset _ => ?_
  dsimp only
  split
  · refine .pure (i.takes_cycles ?_)
    split <;> decide
  · exact i.executesWithin_pure _ _

theorem executeJump_within :
    i.ExecutesWithin 0 (fun _ _ => i.executeJump r) :=
  (i.mode.resolve_within r false).followedBy fun _ _ =>
    i.executesWithin_pure _ _

theorem executeCall_within :
    i.ExecutesWithin 0 (fun _ _ => i.executeCall r) :=
  (AddressBus.readWord_within _).followedBy fun _ _ =>
    (r.pushWord_within _).followedBy fun _ _ =>
      i.executesWithin_pure _ _

theorem executeReturn_within :
    i.ExecutesWithin 0 (fun _ _ => i.executeReturn r) :=
  r.pullWord_within.followedBy fun _ _ =>
    i.executesWithin_pure _ _

theorem executeInterruptReturn_within :
    i.ExecutesWithin 0
      (fun _ _ => i.executeInterruptReturn r) :=
  r.pull_within.followedBy fun pulled _ =>
    pulled.2.pullWord_within.followedBy fun _ _ =>
      i.executesWithin_pure _ _

theorem executeSoftwareInterrupt_within :
    i.ExecutesWithin 0
      (fun _ _ => i.executeSoftwareInterrupt r) :=
  (r.enterInterrupt_within _ _ _).followedBy fun _ _ =>
    i.executesWithin_pure _ _

theorem executePush_within (op : PushOp) :
    i.ExecutesWithin 0 (fun _ _ => i.executePush op r) :=
  ((i.advance r).push_within _).followedBy fun _ _ =>
    i.executesWithin_pure _ _

theorem executePull_within (op : PullOp) :
    i.ExecutesWithin 0 (fun _ _ => i.executePull op r) :=
  (i.advance r).pull_within.followedBy fun _ _ =>
    i.executesWithin_pure _ _

/-
  An instruction writes at most twice outside of the stack
  page, and a successful one takes its cycles and at most two
  more.
-/
theorem execute_within :
    Within Registers.OnStack 2
      (fun executed => ∀ done,
        executed = .ok done → i.Takes done)
      (fun _ _ => i.execute r) := by
  have hOk
      {writes : Nat}
      {execution : OnBus Executed}
      (hWithin : i.ExecutesWithin writes execution)
      (hWrites : writes ≤ 2) :
      Within Registers.OnStack 2
        (fun executed => ∀ done,
          executed = Except.ok (ε := MachineFault) done →
            i.Takes done)
        (fun β _ => Except.ok <$> execution β) := by
    refine (Within.map _ hWithin ?_).mono hWrites
      fun _ hHere => hHere
    intro result hTakes done hDone
    exact Except.ok.inj hDone ▸ hTakes
  have hError (fault : MachineFault) :
      Within Registers.OnStack 2
        (fun executed => ∀ done,
          executed = Except.ok done → i.Takes done)
        (fun _ _ => pure (.error fault)) := by
    refine .pure ?_
    intro done hDone
    cases hDone
  unfold execute
  cases i.operation with
  | implied op =>
      refine .pure ?_
      intro done hDone
      exact Except.ok.inj hDone ▸
        i.takes_cycles (Nat.zero_le 2)
  | read op => exact hOk (i.executeRead_within r op) (by decide)
  | store op =>
      exact hOk (i.executeStore_within r op) (by decide)
  | modify op =>
      exact hOk (i.executeModify_within r op) (by decide)
  | branch condition =>
      exact hOk (i.executeBranch_within r condition)
        (by decide)
  | push op => exact hOk (i.executePush_within r op) (by decide)
  | pull op => exact hOk (i.executePull_within r op) (by decide)
  | jump => exact hOk (i.executeJump_within r) (by decide)
  | call => exact hOk (i.executeCall_within r) (by decide)
  | subroutineReturn =>
      exact hOk (i.executeReturn_within r) (by decide)
  | softwareInterrupt =>
      exact hOk (i.executeSoftwareInterrupt_within r)
        (by decide)
  | interruptReturn =>
      exact hOk (i.executeInterruptReturn_within r)
        (by decide)
  | jam => exact hError _
  | unsupported => exact hError _

end Instruction

------------------------------------------------------------
-- Steps
------------------------------------------------------------

/- The cycles of all instructions of a table are in bounds. -/
def OpcodeTable.WellTimed
    (table : OpcodeTable) : Prop :=
  ∀ opcode,
    2 ≤ (table.lookup opcode).cycles ∧
      (table.lookup opcode).cycles ≤ 8

namespace Cpu

/-
  What a step leaves alone: the table, and the lines except
  for a pending edge, which it takes.
-/
structure Step.Follows
    (cpu : Cpu)
    (lines : InterruptLines)
    (done : Step) : Prop where
  table : done.cpu.table = cpu.table
  lines : done.lines = lines.takeNmi.2
  cycles :
    cpu.table.WellTimed →
      2 ≤ done.cycles ∧ done.cycles ≤ 10

variable (cpu : Cpu) (lines : InterruptLines)

theorem reset_within :
    KeepsToStack (fun _ _ => cpu.reset) :=
  (AddressBus.readWord_within _).followedBy fun _ _ =>
    .pure trivial

/- A computation that ends like a step. -/
def StepsWithin
    (computation : OnBus (Except MachineFault Step)) : Prop :=
  Within Registers.OnStack 2
    (fun stepped => ∀ done,
      stepped = .ok done → done.Follows cpu lines)
    computation

theorem interruptCycles_bounds :
    2 ≤ Hardware.interruptCycles ∧
      Hardware.interruptCycles ≤ 10 := by
  decide

theorem interrupt_within
    (remaining : InterruptLines)
    (vector : UInt16)
    (hLines : remaining = lines.takeNmi.2) :
    cpu.StepsWithin lines (fun _ _ =>
      .ok <$> cpu.interrupt remaining vector) := by
  have hInterrupt :
      Within Registers.OnStack 2 (Step.Follows cpu lines)
        (fun _ _ => cpu.interrupt remaining vector) :=
    (cpu.registers.enterInterrupt_within _ _ _).followedBy
      fun _ _ => .pure
        { table := rfl
          lines := hLines
          cycles := fun _ => interruptCycles_bounds }
  refine Within.map _ hInterrupt ?_
  intro result hFollows done hDone
  exact Except.ok.inj hDone ▸ hFollows

theorem executeNext_within
    (hLines : lines = lines.takeNmi.2) :
    cpu.StepsWithin lines (fun _ _ =>
      cpu.executeNext lines) := by
  refine (Within.read _).followedBy fun opcode _ => ?_
  refine ((cpu.table.lookup opcode).execute_within
    cpu.registers).endedBy fun executed hTakes => ?_
  refine .pure ?_
  intro done hDone
  cases executed with
  | error fault => cases hDone
  | ok result =>
      have hCycles := hTakes result rfl
      rw [← Except.ok.inj hDone]
      constructor
      · rfl
      · exact hLines
      · intro hTable
        have hBounds := hTable opcode
        exact ⟨hBounds.1.trans hCycles.1,
          hCycles.2.trans (Nat.add_le_add_right hBounds.2 2)⟩

/- Every step is a program on the bus. -/
theorem step_within :
    cpu.StepsWithin lines (fun _ _ => cpu.step lines) := by
  cases lines with
  | mk pending asserted =>
      cases pending with
      | true => exact cpu.interrupt_within _ _ _ rfl
      | false =>
          unfold step
          simp only [InterruptLines.takeNmi,
            Bool.false_eq_true, if_false]
          split
          · exact cpu.interrupt_within _ _ _ rfl
          · exact cpu.executeNext_within _ rfl

end Cpu

end Famicom
