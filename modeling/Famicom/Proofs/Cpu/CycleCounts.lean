import Famicom.Proofs.Bus.Recording
import Famicom.Proofs.Cpu.Actions
import Famicom.Proofs.Cpu.OperandTraffic

/-
  The cycles of a step and its traffic on the bus.

  The table says how many cycles an instruction takes, and
  executing it says how often the bus is used.  The two agree
  for all instructions that access an operand, but for the
  cycle in which an index is added to a place of page zero.

  Key definitions include:
    * `Instruction.traffic`
    * `Instruction.crossingCycles`
    * `Instruction.branchCycles`
    * `Instruction.Executes`
    * `Instruction.Paced`

  Main declarations:
    * `Instruction.execute_leaves`
    * `Instruction.paced_of_mem_atFidelity`
    * `Cpu.cycles_agree_with_traffic`
-/

namespace Famicom

open Recorded (Leaves)

variable {β : Type} [AddressBus β]

------------------------------------------------------------
-- Instructions
------------------------------------------------------------

/- Whether the cycles of an operation never vary. -/
def Operation.isFixed : Operation → Bool
  | read _ | branch _ => false
  | _ => true

namespace Instruction

variable (i : Instruction) (r : Registers)

/-
  The accesses behind the opcode's, but for the one that an
  indexed read makes when it crosses a page.
-/
def traffic : Nat :=
  match i.operation with
  | .read _ => i.mode.lookups + 1
  | .store _ =>
      i.mode.lookups + i.mode.isIndexed.toNat + 1
  | .modify _ =>
      if i.mode = .accumulator then
        0
      else
        i.mode.lookups + i.mode.isIndexed.toNat + 3
  | .branch _ | .push _ | .pull _ => 1
  | .jump => i.mode.lookups
  | .call => 4
  | .subroutineReturn => 2
  | .softwareInterrupt => 5
  | .interruptReturn => 3
  | .implied _ | .jam | .unsupported => 0

/- Whether the instruction accesses an operand in memory. -/
def accessesOperand : Bool :=
  match i.operation with
  | .read _ | .store _ => true
  | .modify _ => i.mode ≠ .accumulator
  | _ => false

/- The extra cycle of a read across a page. -/
def crossingCycles (accesses : List BusAccess) : Nat :=
  match i.operation with
  | .read _ => if i.mode.CrossesPage r accesses then 1 else 0
  | _ => 0

/- The extra cycles of a branch that ends at an address. -/
def branchCycles (target : UInt16) : Nat :=
  match i.operation with
  | .branch condition =>
      if condition.holds r.status then
        if target.toNat / 256 = (i.next r).toNat / 256 then
          1
        else
          2
      else
        0
  | _ => 0

/-
  What an execution leaves in the log behind the opcode.  An
  indexed read ends with the access to its operand.
-/
structure Executes
    (executed : Executed)
    (accesses : List BusAccess) : Prop where
  cycles :
    executed.cycles =
      i.cycles + i.crossingCycles r accesses +
        i.branchCycles r executed.registers.pc
  length :
    accesses.length = i.traffic + i.crossingCycles r accesses
  operand : ∀ op,
    i.operation = .read op →
      i.mode.isIndexed = true →
        ∃ value, accesses.getLast? =
          some (.read (i.mode.effective r accesses) value)

/- The same of an execution that may fail. -/
def ExecutesOk
    (executed : Except MachineFault Executed)
    (accesses : List BusAccess) : Prop :=
  ∀ done, executed = .ok done → i.Executes r done accesses

variable {i r}

/- Only reads and branches take longer than their base. -/
theorem executes_of_fixed
    {operation : Operation}
    {registers : Registers}
    {accesses : List BusAccess}
    (hOperation : i.operation = operation)
    (hFixed : operation.isFixed = true)
    (hLength :
      accesses.length = traffic { i with operation }) :
    i.Executes r ⟨registers, i.cycles⟩ accesses := by
  have hSame : { i with operation } = i := by
    rw [← hOperation]
  rw [hSame] at hLength
  rw [← hOperation] at hFixed
  have hCrossing : i.crossingCycles r accesses = 0 := by
    unfold crossingCycles
    split
    next hRead =>
      rw [hRead] at hFixed
      cases hFixed
    next => rfl
  have hBranch : i.branchCycles r registers.pc = 0 := by
    unfold branchCycles
    split
    next hTaken =>
      rw [hTaken] at hFixed
      cases hFixed
    next => rfl
  constructor
  · rw [hCrossing, hBranch]
    rfl
  · rw [hCrossing]
    exact hLength
  · intro op hRead
    rw [hRead] at hFixed
    cases hFixed

theorem executeRead_leaves
    {op : ReadOp}
    (hOperation : i.operation = .read op) :
    Leaves (β := β) (i.Executes r) (i.executeRead op r) := by
  refine (i.mode.resolve_leaves r false).bind
    fun operand seen hResolves => ?_
  refine (Leaves.read operand.address).bind ?_
  rintro value _ rfl
  refine .pure ?_
  rw [List.append_nil]
  have hCrossed :=
    hResolves.crossed [.read operand.address value]
  have hCrossing :
      i.crossingCycles r
          (seen ++ [.read operand.address value]) =
        operand.pageCrossed.toNat := by
    unfold crossingCycles
    rw [hOperation]
    dsimp only
    simp only [← hCrossed]
    cases operand.pageCrossed <;> rfl
  have hCost :
      (if operand.pageCrossed then i.pageCrossingCost else 0) =
        operand.pageCrossed.toNat := by
    unfold pageCrossingCost
    rw [hOperation]
    split
    next hHere =>
      dsimp only
      rw [if_pos (hCrossed.mp hHere).1, hHere]
      rfl
    next hHere =>
      rw [Bool.eq_false_iff.mpr hHere]
      rfl
  constructor
  · unfold branchCycles
    rw [hOperation, hCost, hCrossing]
    rfl
  · unfold traffic
    rw [hOperation, hCrossing, List.length_append,
      hResolves.length, Bool.false_and, Bool.or_false]
    exact Nat.add_right_comm _ _ _
  · intro _ _ hIndexed
    refine ⟨value, ?_⟩
    rw [List.getLast?_append, ← hResolves.address hIndexed]
    rfl

theorem executeStore_leaves
    {op : StoreOp}
    (hOperation : i.operation = .store op) :
    Leaves (β := β) (i.Executes r) (i.executeStore op r) := by
  refine (i.mode.resolve_leaves r true).bind
    fun operand seen hResolves => ?_
  refine (Leaves.write operand.address _).bind ?_
  rintro _ _ rfl
  refine .pure (executes_of_fixed hOperation rfl ?_)
  rw [List.append_nil, List.length_append,
    hResolves.length_of_writes]
  rfl

theorem executeModify_leaves
    {op : ModifyOp}
    (hOperation : i.operation = .modify op) :
    Leaves (β := β) (i.Executes r)
      (i.executeModify op r) := by
  unfold executeModify
  split
  next hMode =>
    exact .pure (executes_of_fixed hOperation rfl
      (if_pos hMode).symm)
  next hMode =>
    refine (i.mode.resolve_leaves r true).bind
      fun operand seen hResolves => ?_
    refine (Leaves.read operand.address).bind ?_
    rintro value _ rfl
    refine (Leaves.write operand.address value).bind ?_
    rintro _ _ rfl
    refine (Leaves.write operand.address _).bind ?_
    rintro _ _ rfl
    refine .pure (executes_of_fixed hOperation rfl ?_)
    rw [List.length_append, hResolves.length_of_writes]
    exact (if_neg hMode).symm

theorem executeBranch_leaves
    {condition : Condition}
    (hOperation : i.operation = .branch condition) :
    Leaves (β := β) (i.Executes r)
      (i.executeBranch condition r) := by
  refine (Leaves.read _).bind ?_
  rintro offset _ rfl
  dsimp only
  have hExecutes
      (target : UInt16)
      (extra : Nat)
      (hExtra : extra = i.branchCycles r target) :
      i.Executes r ⟨{ r with pc := target }, i.cycles + extra⟩
        [.read (r.pc + 1) offset] := by
    constructor
    · unfold crossingCycles
      rw [hOperation, hExtra]
      rfl
    · unfold traffic crossingCycles
      rw [hOperation]
      rfl
    · intro op hRead
      rw [hOperation] at hRead
      cases hRead
  split
  next hHolds =>
    refine .pure (hExecutes _ _ ?_)
    unfold branchCycles
    rw [hOperation]
    dsimp only
    rw [if_pos hHolds]
    by_cases hFar :
        Bits.differentPages (i.next r)
          (Bits.displace (i.next r) offset) = true
    · rw [if_pos hFar, if_neg]
      exact Ne.symm ((Bits.differentPages_iff _ _).mp hFar)
    · rw [if_neg hFar, if_pos]
      rw [Bits.differentPages_iff, not_not] at hFar
      exact hFar.symm
  next hFails =>
    refine .pure (hExecutes _ 0 ?_)
    unfold branchCycles
    rw [hOperation]
    dsimp only
    rw [if_neg hFails]

theorem executeJump_leaves
    (hOperation : i.operation = .jump)
    (hMode : i.mode.isIndexed = false) :
    Leaves (β := β) (i.Executes r) (i.executeJump r) := by
  refine (i.mode.resolve_leaves r false).bind
    fun operand seen hResolves => ?_
  have hStays : operand.pageCrossed = false := by
    have hCrossed := hResolves.crossed []
    rw [Bool.eq_false_iff, Ne, hCrossed]
    rintro ⟨hIndexed, -⟩
    rw [hMode] at hIndexed
    cases hIndexed
  refine .pure (executes_of_fixed hOperation rfl ?_)
  rw [List.append_nil, hResolves.length, hStays]
  rfl

theorem executeCall_leaves
    (hOperation : i.operation = .call) :
    Leaves (β := β) (i.Executes r) (i.executeCall r) := by
  refine (AddressBus.readWord_leaves _).bind ?_
  rintro target _ ⟨low, high, rfl, -⟩
  refine (r.pushWord_leaves _).bind fun r' more hMore => ?_
  refine .pure (executes_of_fixed hOperation rfl ?_)
  rw [List.append_nil, List.length_append, hMore]
  rfl

theorem executeReturn_leaves
    (hOperation : i.operation = .subroutineReturn) :
    Leaves (β := β) (i.Executes r) (i.executeReturn r) := by
  refine r.pullWord_leaves.bind fun pulled seen hSeen => ?_
  exact .pure (executes_of_fixed hOperation rfl
    (by rw [List.append_nil]; exact hSeen))

theorem executeInterruptReturn_leaves
    (hOperation : i.operation = .interruptReturn) :
    Leaves (β := β) (i.Executes r)
      (i.executeInterruptReturn r) := by
  refine r.pull_leaves.bind fun status seen hSeen => ?_
  refine status.2.pullWord_leaves.bind
    fun address more hMore => ?_
  refine .pure (executes_of_fixed hOperation rfl ?_)
  rw [List.append_nil, List.length_append, hSeen, hMore]
  rfl

theorem executeSoftwareInterrupt_leaves
    (hOperation : i.operation = .softwareInterrupt) :
    Leaves (β := β) (i.Executes r)
      (i.executeSoftwareInterrupt r) := by
  refine (r.enterInterrupt_leaves _ _ _).bind
    fun r' seen hSeen => ?_
  exact .pure (executes_of_fixed hOperation rfl
    (by rw [List.append_nil]; exact hSeen))

theorem executePush_leaves
    {op : PushOp}
    (hOperation : i.operation = .push op) :
    Leaves (β := β) (i.Executes r) (i.executePush op r) := by
  refine ((i.advance r).push_leaves _).bind
    fun r' seen hSeen => ?_
  exact .pure (executes_of_fixed hOperation rfl
    (by rw [List.append_nil]; exact hSeen))

theorem executePull_leaves
    {op : PullOp}
    (hOperation : i.operation = .pull op) :
    Leaves (β := β) (i.Executes r) (i.executePull op r) := by
  refine (i.advance r).pull_leaves.bind
    fun pulled seen hSeen => ?_
  exact .pure (executes_of_fixed hOperation rfl
    (by rw [List.append_nil]; exact hSeen))

/- What every instruction leaves, unless it fails. -/
theorem execute_leaves
    (hJump : i.operation = .jump → i.mode.isIndexed = false) :
    Leaves (β := β) (i.ExecutesOk r) (i.execute r) := by
  have hOk
      {execution : StateM (Recorded β) Executed}
      (hLeaves : Leaves (i.Executes r) execution) :
      Leaves (i.ExecutesOk r) (Except.ok <$> execution) := by
    refine hLeaves.map _ ?_
    intro executed accesses hExecutes done hDone
    exact Except.ok.inj hDone ▸ hExecutes
  have hError (fault : MachineFault) :
      Leaves (β := β) (i.ExecutesOk r)
        (pure (.error fault)) := by
    refine .pure ?_
    intro done hDone
    cases hDone
  unfold execute
  cases hOperation : i.operation with
  | implied op =>
      refine .pure ?_
      intro done hDone
      rw [← Except.ok.inj hDone]
      exact executes_of_fixed hOperation rfl rfl
  | read op => exact hOk (executeRead_leaves hOperation)
  | store op => exact hOk (executeStore_leaves hOperation)
  | modify op => exact hOk (executeModify_leaves hOperation)
  | branch condition =>
      exact hOk (executeBranch_leaves hOperation)
  | push op => exact hOk (executePush_leaves hOperation)
  | pull op => exact hOk (executePull_leaves hOperation)
  | jump =>
      exact hOk (executeJump_leaves hOperation
        (hJump hOperation))
  | call => exact hOk (executeCall_leaves hOperation)
  | subroutineReturn =>
      exact hOk (executeReturn_leaves hOperation)
  | softwareInterrupt =>
      exact hOk (executeSoftwareInterrupt_leaves hOperation)
  | interruptReturn =>
      exact hOk (executeInterruptReturn_leaves hOperation)
  | jam => exact hError _
  | unsupported => exact hError _

------------------------------------------------------------
-- The Table
------------------------------------------------------------

/-
  An instruction's cycles leave time for its traffic, and no
  more than that if it accesses an operand.
-/
structure Paced (i : Instruction) : Prop where
  enough : 1 + i.traffic ≤ i.cycles
  exact :
    i.accessesOperand = true →
      1 + i.traffic + i.mode.addsOffBus.toNat = i.cycles
  jump : i.operation = .jump → i.mode.isIndexed = false

instance : Decidable i.Paced :=
  decidable_of_iff
    ((1 + i.traffic ≤ i.cycles) ∧
      (i.accessesOperand = true →
        1 + i.traffic + i.mode.addsOffBus.toNat = i.cycles) ∧
      (i.operation = .jump → i.mode.isIndexed = false))
    ⟨fun h => ⟨h.1, h.2.1, h.2.2⟩,
      fun h => ⟨h.enough, h.exact, h.jump⟩⟩

/- At every level the cycles fit the traffic. -/
theorem paced_of_mem_atFidelity
    {fidelity : Fidelity}
    (hMember : i ∈ Opcodes.atFidelity fidelity) :
    i.Paced := by
  have hAll :
      (Opcodes.atFidelity fidelity).all
        (fun i => decide i.Paced) = true := by
    cases fidelity <;> decide +kernel
  exact of_decide_eq_true (List.all_eq_true.mp hAll i hMember)

/- Branches have no operand in memory. -/
theorem branchCycles_of_accessesOperand
    (hOperand : i.accessesOperand = true)
    (target : UInt16) :
    i.branchCycles r target = 0 := by
  unfold accessesOperand at hOperand
  unfold branchCycles
  split
  next hBranch =>
    rw [hBranch] at hOperand
    cases hOperand
  next => rfl

end Instruction

------------------------------------------------------------
-- Steps
------------------------------------------------------------

namespace Cpu

variable (cpu : Cpu) (lines : InterruptLines)

/- Serving an interrupt always leaves as much. -/
theorem interrupt_leaves (vector : UInt16) :
    Leaves (β := β)
      (fun stepped accesses => ∀ done,
        stepped = .ok done →
          done.cycles = 7 ∧ accesses.length = 5)
      ((.ok <$> cpu.interrupt lines vector :
        StateM (Recorded β) (Except MachineFault Step))) := by
  have hInterrupt :
      Leaves (β := β)
        (fun done accesses =>
          done.cycles = 7 ∧ accesses.length = 5)
        (cpu.interrupt lines vector) := by
    refine (cpu.registers.enterInterrupt_leaves _ _ _).bind
      fun r seen hSeen => ?_
    refine .pure ⟨rfl, ?_⟩
    rw [List.append_nil]
    exact hSeen
  refine hInterrupt.map _ ?_
  intro done accesses hHere other hSame
  exact Except.ok.inj hSame ▸ hHere

/-
  Executing an instruction leaves the access to its opcode
  and what its execution leaves.
-/
theorem executeNext_leaves
    (hTable : ∀ opcode, (cpu.table.lookup opcode).Paced) :
    Leaves (β := β)
      (fun stepped accesses => ∀ done,
        stepped = .ok done → ∃ opcode behind,
          accesses =
              .read cpu.registers.pc opcode :: behind ∧
            (cpu.table.lookup opcode).Executes cpu.registers
              ⟨done.cpu.registers, done.cycles⟩ behind)
      (cpu.executeNext lines) := by
  refine (Leaves.read cpu.registers.pc).bind ?_
  rintro opcode _ rfl
  refine (Instruction.execute_leaves (hTable opcode).jump).bind
    fun executed behind hExecuted => ?_
  refine .pure ?_
  intro done hDone
  refine ⟨opcode, behind, ?_, ?_⟩
  · rw [List.append_nil]
    rfl
  · cases executed with
    | error fault => cases hDone
    | ok result =>
        cases hDone
        exact hExecuted result rfl

/-
  The cycles of a step are at least two, and they leave time
  for all of its accesses.  An instruction takes the cycles
  of the table, one more if it is an indexed read across a
  page, and one or two more if it is a branch that is taken.
  If it accesses an operand in memory then every cycle is an
  access, except for the one in which an index is added to a
  place of page zero.
-/
theorem cycles_agree_with_traffic
    {fidelity : Fidelity}
    {cpu : Cpu}
    (hTable :
      OpcodeTable.atFidelity fidelity = .ok cpu.table)
    (lines : InterruptLines)
    (bus : β)
    {done : Step}
    {recorded : Recorded β}
    (hStep :
      cpu.step lines ({ bus := bus } : Recorded β) =
        (.ok done, recorded)) :
    let r := cpu.registers
    let accesses := recorded.accesses
    2 ≤ done.cycles ∧
      accesses.length ≤ done.cycles ∧
      match cpu.nextAction lines with
      | .serveNmi | .serveIrq => done.cycles = 7
      | .execute => ∃ opcode behind,
          let i := cpu.table.lookup opcode
          accesses = .read r.pc opcode :: behind ∧
            i ∈ Opcodes.atFidelity fidelity ∧
            i.opcode = opcode ∧
            done.cycles =
              i.cycles + i.crossingCycles r behind +
                i.branchCycles r done.cpu.registers.pc ∧
            (i.accessesOperand = true →
              accesses.length + i.mode.addsOffBus.toNat =
                done.cycles) ∧
            ∀ op,
              i.operation = .read op →
                i.mode.isIndexed = true →
                  ∃ value, behind.getLast? =
                    some (.read (i.mode.effective r behind)
                      value) := by
  intro r accesses
  have hEntries (opcode : UInt8) :=
    OpcodeTable.lookup_spec hTable opcode
  have hPaced (opcode : UInt8) :
      (cpu.table.lookup opcode).Paced :=
    Instruction.paced_of_mem_atFidelity (hEntries opcode).1
  have hInterrupt
      {remaining : InterruptLines}
      {vector : UInt16}
      (hServe :
        (Except.ok (ε := MachineFault) <$>
            cpu.interrupt remaining vector)
            ({ bus := bus } : Recorded β) =
          (.ok done, recorded)) :
      done.cycles = 7 ∧ accesses.length = 5 := by
    have hLeft :=
      (cpu.interrupt_leaves remaining vector).accesses bus
    rw [hServe] at hLeft
    exact hLeft done rfl
  rw [step_eq_perform] at hStep
  cases hAction : cpu.nextAction lines with
  | serveNmi =>
      rw [hAction] at hStep
      rcases hInterrupt hStep with ⟨hCycles, hLength⟩
      rw [hCycles, hLength]
      exact ⟨by decide, by decide, rfl⟩
  | serveIrq =>
      rw [hAction] at hStep
      rcases hInterrupt hStep with ⟨hCycles, hLength⟩
      rw [hCycles, hLength]
      exact ⟨by decide, by decide, rfl⟩
  | execute =>
      rw [hAction] at hStep
      have hLeft :=
        (cpu.executeNext_leaves lines hPaced).accesses bus
      have hNext :
          cpu.executeNext lines ({ bus := bus } : Recorded β) =
            (.ok done, recorded) :=
        hStep
      rw [hNext] at hLeft
      rcases hLeft done rfl with
        ⟨opcode, behind, hAccesses, hExecutes⟩
      have hTimed :=
        OpcodeTable.wellTimed_atFidelity hTable opcode
      have hEnough := (hPaced opcode).enough
      have hCycles := hExecutes.cycles
      have hLength : accesses.length = behind.length + 1 :=
        congrArg List.length hAccesses
      dsimp only at hCycles
      rw [hExecutes.length] at hLength
      refine ⟨by omega, by omega, opcode, behind, hAccesses,
        (hEntries opcode).1, (hEntries opcode).2, hCycles, ?_,
        hExecutes.operand⟩
      intro hOperand
      have hExact := (hPaced opcode).exact hOperand
      have hStraight :=
        Instruction.branchCycles_of_accessesOperand
          (r := cpu.registers) hOperand
          done.cpu.registers.pc
      omega

/- A load whose operand is indexed. -/
def absoluteLoad : Instruction where
  opcode := 0xBD
  name := "LDA"
  operation := .read .lda
  mode := .absoluteX
  cycles := 4

/-
  On a bus of one byte, over and over, an indexed load from
  $BDBD crosses the page.  It takes five cycles, and each of
  them is an access.
-/
theorem cycles_of_load_across_page :
    let bus : Recorded Ram := { bus := .filled 1 0xBD }
    let r : Registers := { Registers.blank with x := 0x50 }
    ∃ (cpu : Cpu) (done : Step) (recorded : Recorded Ram),
      cpu.registers = r ∧
        cpu.step {} bus = (.ok done, recorded) ∧
        done.cycles = 5 ∧
        recorded.accesses.length = 5 ∧
        2 ≤ done.cycles ∧
        recorded.accesses.length ≤ done.cycles := by
  intro bus r
  rcases OpcodeTable.atFidelity_isOk .strict with
    ⟨table, hTable⟩
  have hLoads :
      (Opcodes.atFidelity .strict).all (fun i =>
        decide (i.opcode = 0xBD → i = absoluteLoad)) =
          true := by
    decide +kernel
  have hEntry : table.lookup 0xBD = absoluteLoad := by
    rcases OpcodeTable.lookup_spec hTable 0xBD with
      ⟨hMember, hOpcode⟩
    exact of_decide_eq_true
      (List.all_eq_true.mp hLoads _ hMember) hOpcode
  let cpu : Cpu := ⟨table, r, true⟩
  have hStep :
      cpu.step {} bus =
        ((table.lookup 0xBD).execute r
          (AddressBus.read 0 bus).2).map
            (·.map fun done =>
              ⟨{ cpu with registers := done.registers }, {},
                done.cycles⟩) id :=
    rfl
  have hRun :
      let run :=
        absoluteLoad.execute r (AddressBus.read 0 bus).2
      run.1.map Executed.cycles = .ok 5 ∧
        run.2.accesses.length = 5 := by
    decide +kernel
  rw [hEntry] at hStep
  generalize
    absoluteLoad.execute r (AddressBus.read 0 bus).2 = run
    at hStep hRun
  rcases run with ⟨result, recorded⟩
  rcases hRun with ⟨hCycles, hFull⟩
  cases result with
  | error fault => cases hCycles
  | ok done =>
      have hAgrees :=
        cycles_agree_with_traffic hTable {} bus.bus hStep
      exact ⟨cpu, _, recorded, rfl, hStep,
        Except.ok.inj hCycles, hFull, hAgrees.1, hAgrees.2.1⟩

end Cpu

end Famicom
