import Famicom.Proofs.Cpu.StackPage
import Famicom.Proofs.Cpu.StoredStatus

/-
  Interrupts and calls that return.

  What an interrupt or a call saves is what the matching
  return takes back.  In between anything may happen that
  leaves the stack pointer and the saved bytes as they are.

  Key definitions include:
    * `Entry`
    * `Entry.Starts`
    * `Entry.returnAddress`
    * `StackPage.Untouched`

  Main declarations:
    * `StackPage.step_interruptReturn`
    * `StackPage.step_subroutineReturn`
    * `Entry.step_yields`
    * `Cpu.interrupts_and_calls_return`
-/

namespace Famicom

variable {β : Type} [AddressBus β]
variable {page : StackPage β}
variable {bus : β}
variable {cpu : Cpu}
variable {lines : InterruptLines}
variable {fidelity : Fidelity}

------------------------------------------------------------
-- Instructions on the Stack
------------------------------------------------------------

namespace StackPage

/- An executing step does what its instruction does. -/
theorem step_yields
    {opcode : UInt8}
    {post : Executed → Prop}
    {cells : UInt8 → UInt8}
    (hPlain : page.Plain bus)
    (hFetches : cpu.Fetches lines bus opcode)
    (hRuns : ∀ fetched, page.Plain fetched →
      page.cell fetched = page.cell bus →
        page.Yields fetched
          (fun executed => ∃ done,
            executed = .ok done ∧ post done)
          cells
          ((cpu.table.lookup opcode).execute
            cpu.registers)) :
    page.Yields bus
      (fun stepped => ∃ done,
        stepped = .ok (cpu.stepOf lines done) ∧ post done)
      cells (cpu.step lines) := by
  rw [Cpu.step_eq_perform, hFetches.action]
  refine (Yields.read hPlain cpu.registers.pc).bind ?_
  rintro _ fetched rfl hFetched hCells
  rw [hFetches.opcode]
  refine (hRuns fetched hFetched hCells).map _ ?_
  rintro _ ⟨done, rfl, hDone⟩
  exact ⟨done, rfl, hDone⟩

/- An execution that cannot fail. -/
theorem ok_yields
    {post : Executed → Prop}
    {cells : UInt8 → UInt8}
    {execution : StateM β Executed}
    (hYields : page.Yields bus post cells execution) :
    page.Yields bus
      (fun executed => ∃ done,
        executed = Except.ok (ε := MachineFault) done ∧
          post done)
      cells (Except.ok <$> execution) :=
  hYields.map _ fun done hDone => ⟨done, rfl, hDone⟩

/- Pushing the status saves it as software does. -/
theorem step_pushStatus
    (hTable :
      OpcodeTable.atFidelity fidelity = .ok cpu.table)
    (hPlain : page.Plain bus)
    (hFetches : cpu.Fetches lines bus 0x08) :
    let r := cpu.registers
    page.Yields bus
      (fun stepped => ∃ done,
        stepped = .ok (cpu.stepOf lines done) ∧
          done.registers =
            { r with sp := r.sp - 1, pc := r.pc + 1 })
      (Function.update (page.cell bus) r.sp
        (r.status.toStack true))
      (cpu.step lines) := by
  intro r
  have hEntry := OpcodeTable.lookup_of_documented hTable
    (i := ⟨0x08, "PHP", .push .php, .implied, 3, true⟩)
    (by decide +kernel)
  refine step_yields hPlain hFetches ?_
  intro fetched hFetched hCells
  rw [hEntry, ← hCells]
  refine ok_yields ((push_yields hFetched
    { r with pc := r.pc + 1 } _).bind ?_)
  rintro _ last rfl hLast hCells
  exact .pure hLast hCells rfl

/- A software interrupt skips the byte behind its opcode. -/
theorem step_softwareInterrupt
    (hTable :
      OpcodeTable.atFidelity fidelity = .ok cpu.table)
    (hPlain : page.Plain bus)
    (hFetches : cpu.Fetches lines bus 0x00) :
    let r := cpu.registers
    page.Yields bus
      (fun stepped => ∃ done,
        stepped = .ok (cpu.stepOf lines done) ∧
          ∃ target, done.registers =
            { r.putFlag .interruptDisable true with
              sp := r.sp - 1 - 1 - 1
              pc := target })
      (Function.update
        (saveWord (page.cell bus) r.sp (r.pc + 2))
        (r.sp - 1 - 1) (r.status.toStack true))
      (cpu.step lines) := by
  intro r
  have hEntry := OpcodeTable.lookup_of_documented hTable
    (i := ⟨0x00, "BRK", .softwareInterrupt, .implied, 7,
      true⟩) (by decide +kernel)
  have hAddress : r.pc + 2 = r.pc + 1 + 1 := by
    rw [UInt16.add_assoc]
    rfl
  refine step_yields hPlain hFetches ?_
  intro fetched hFetched hCells
  rw [hEntry, hAddress, ← hCells]
  refine ok_yields
    ((enterInterrupt_yields hFetched r _ _ true).bind ?_)
  rintro _ last ⟨target, rfl⟩ hLast hCells
  exact .pure hLast hCells ⟨target, rfl⟩

/- A return from an interrupt takes back three bytes. -/
theorem step_interruptReturn
    (hTable :
      OpcodeTable.atFidelity fidelity = .ok cpu.table)
    (hPlain : page.Plain bus)
    (hFetches : cpu.Fetches lines bus 0x40) :
    let r := cpu.registers
    let cells := page.cell bus
    page.Yields bus
      (fun stepped => ∃ done,
        stepped = .ok (cpu.stepOf lines done) ∧
          done.registers =
            { r with
              sp := r.sp + 1 + 1 + 1
              pc := Bits.word (cells (r.sp + 1 + 1))
                (cells (r.sp + 1 + 1 + 1))
              status := .ofStack (cells (r.sp + 1)) })
      cells (cpu.step lines) := by
  intro r cells
  have hEntry := OpcodeTable.lookup_of_documented hTable
    (i := ⟨0x40, "RTI", .interruptReturn, .implied, 6, true⟩)
    (by decide +kernel)
  refine step_yields hPlain hFetches ?_
  intro fetched hFetched hCells
  rw [hEntry, show cells = page.cell fetched from hCells.symm]
  refine ok_yields ((pull_yields hFetched r).bind ?_)
  rintro _ pulled rfl hPulled hCells
  rw [← hCells]
  refine (pullWord_yields hPulled
    { r with sp := r.sp + 1 }).bind ?_
  rintro _ last rfl hLast hCells
  exact .pure hLast hCells rfl

/- A call saves the address of its last byte. -/
theorem step_call
    (hTable :
      OpcodeTable.atFidelity fidelity = .ok cpu.table)
    (hPlain : page.Plain bus)
    (hFetches : cpu.Fetches lines bus 0x20) :
    let r := cpu.registers
    page.Yields bus
      (fun stepped => ∃ done,
        stepped = .ok (cpu.stepOf lines done) ∧
          ∃ target, done.registers =
            { r with sp := r.sp - 1 - 1, pc := target })
      (saveWord (page.cell bus) r.sp (r.pc + 3 - 1))
      (cpu.step lines) := by
  intro r
  have hEntry := OpcodeTable.lookup_of_documented hTable
    (i := ⟨0x20, "JSR", .call, .absolute, 6, true⟩)
    (by decide +kernel)
  refine step_yields hPlain hFetches ?_
  intro fetched hFetched hCells
  rw [hEntry, ← hCells]
  refine ok_yields
    ((readWord_yields hFetched (r.pc + 1)).bind ?_)
  rintro target read - hRead hCells
  rw [← hCells]
  refine (pushWord_yields hRead r (r.pc + 3 - 1)).bind ?_
  rintro _ last rfl hLast hCells
  exact .pure hLast hCells ⟨target, rfl⟩

/- A return from a subroutine takes back two bytes. -/
theorem step_subroutineReturn
    (hTable :
      OpcodeTable.atFidelity fidelity = .ok cpu.table)
    (hPlain : page.Plain bus)
    (hFetches : cpu.Fetches lines bus 0x60) :
    let r := cpu.registers
    let cells := page.cell bus
    page.Yields bus
      (fun stepped => ∃ done,
        stepped = .ok (cpu.stepOf lines done) ∧
          done.registers =
            { r with
              sp := r.sp + 1 + 1
              pc := Bits.word (cells (r.sp + 1))
                (cells (r.sp + 1 + 1)) + 1 })
      cells (cpu.step lines) := by
  intro r cells
  have hEntry := OpcodeTable.lookup_of_documented hTable
    (i := ⟨0x60, "RTS", .subroutineReturn, .implied, 6, true⟩)
    (by decide +kernel)
  refine step_yields hPlain hFetches ?_
  intro fetched hFetched hCells
  rw [hEntry, show cells = page.cell fetched from hCells.symm]
  refine ok_yields ((pullWord_yields hFetched r).bind ?_)
  rintro _ last rfl hLast hCells
  exact .pure hLast hCells rfl

end StackPage

------------------------------------------------------------
-- Entries
------------------------------------------------------------

/- What saves an address and the status for a return. -/
inductive Entry where
  | nmi
  | irq
  | brk
deriving DecidableEq

namespace Entry

/- Whether the next step of a processor is the entry. -/
def Starts
    (cpu : Cpu)
    (lines : InterruptLines)
    (bus : β) : Entry → Prop
  | nmi => cpu.nextAction lines = .serveNmi
  | irq => cpu.nextAction lines = .serveIrq
  | brk => cpu.Fetches lines bus 0x00

/- Where a return from the entry goes on. -/
def returnAddress
    (pc : UInt16) : Entry → UInt16
  | nmi | irq => pc
  | brk => pc + 2

/- Whether the saved status has the break flag. -/
def marksBreak : Entry → Bool
  | nmi | irq => false
  | brk => true

/- What an entry leaves in the registers of its step. -/
def Entered
    (cpu : Cpu)
    (done : Cpu.Step) : Prop :=
  done.cpu.table = cpu.table ∧
    done.cpu.registers.sp = cpu.registers.sp - 1 - 1 - 1

/- The stack after an entry. -/
def saved
    (cells : UInt8 → UInt8)
    (r : Registers)
    (entry : Entry) : UInt8 → UInt8 :=
  Function.update
    (StackPage.saveWord cells r.sp
      (entry.returnAddress r.pc))
    (r.sp - 1 - 1) (r.status.toStack entry.marksBreak)

theorem interrupt_yields
    (hPlain : page.Plain bus)
    (vector : UInt16)
    {entry : Entry}
    (hHardware : entry ≠ .brk) :
    page.Yields bus (Entered cpu)
      (entry.saved (page.cell bus) cpu.registers)
      (cpu.interrupt lines vector) := by
  have hSaved :
      entry.saved (page.cell bus) cpu.registers =
        saved (page.cell bus) cpu.registers .nmi := by
    cases entry with
    | nmi | irq => rfl
    | brk => exact absurd rfl hHardware
  rw [hSaved]
  refine (StackPage.enterInterrupt_yields hPlain
    cpu.registers vector cpu.registers.pc false).bind ?_
  rintro _ last ⟨target, rfl⟩ hLast hCells
  exact .pure hLast hCells ⟨rfl, rfl⟩

/- Every entry succeeds, and saves three bytes. -/
theorem step_yields
    (hTable :
      OpcodeTable.atFidelity fidelity = .ok cpu.table)
    (hPlain : page.Plain bus)
    {entry : Entry}
    (hStarts : entry.Starts cpu lines bus) :
    page.Yields bus
      (fun stepped => ∃ done,
        stepped = .ok done ∧ Entered cpu done)
      (entry.saved (page.cell bus) cpu.registers)
      (cpu.step lines) := by
  cases entry with
  | nmi =>
      have hAction : cpu.nextAction lines = .serveNmi :=
        hStarts
      rw [Cpu.step_eq_perform, hAction]
      exact (interrupt_yields hPlain _ (by decide)).map _
        fun done hDone => ⟨done, rfl, hDone⟩
  | irq =>
      have hAction : cpu.nextAction lines = .serveIrq :=
        hStarts
      rw [Cpu.step_eq_perform, hAction]
      exact (interrupt_yields hPlain _ (by decide)).map _
        fun done hDone => ⟨done, rfl, hDone⟩
  | brk =>
      have hStep := StackPage.step_softwareInterrupt
        hTable hPlain hStarts
      rcases hStep.result with
        ⟨done, hDone, target, hRegisters⟩
      have hPointer := congrArg (·.sp) hRegisters
      exact ⟨⟨_, hDone, rfl, hPointer⟩, hStep.plain,
        hStep.cells⟩

/- The three saved bytes, from the lowest place up. -/
theorem saved_status
    (cells : UInt8 → UInt8)
    (r : Registers)
    (entry : Entry) :
    entry.saved cells r (r.sp - 1 - 1) =
      r.status.toStack entry.marksBreak :=
  Function.update_self _ _ _

theorem saved_low
    (cells : UInt8 → UInt8)
    (r : Registers)
    (entry : Entry) :
    entry.saved cells r (r.sp - 1) =
      Bits.lowByte (entry.returnAddress r.pc) := by
  unfold saved
  rw [Function.update_of_ne (StackPage.sub_one_ne _).symm]
  exact StackPage.saveWord_low _

theorem saved_high
    (cells : UInt8 → UInt8)
    (r : Registers)
    (entry : Entry) :
    entry.saved cells r r.sp =
      Bits.highByte (entry.returnAddress r.pc) := by
  unfold saved
  rw [Function.update_of_ne (StackPage.sub_two_ne _).symm]
  exact StackPage.saveWord_high _

end Entry

------------------------------------------------------------
-- Returns
------------------------------------------------------------

namespace StackPage

/-
  A later moment at which the stack pointer and a number of
  bytes above it are as a step has left them.  Everything
  else may have changed.
-/
structure Untouched
    (page : StackPage β)
    (done : Cpu.Step)
    (bus : β)
    (depth : UInt8)
    (later : Cpu)
    (bus' : β) : Prop where
  table : later.table = done.cpu.table
  pointer : later.registers.sp = done.cpu.registers.sp
  plain : page.Plain bus'
  saved : ∀ n, 0 < n → n ≤ depth →
    page.cell bus' (later.registers.sp + n) =
      page.cell bus (later.registers.sp + n)

namespace Untouched

variable {done : Cpu.Step}
variable {after bus' : β}
variable {later : Cpu}
variable {lines' : InterruptLines}

/- Returning from an interrupt restores what it has saved. -/
theorem interruptReturn
    {entry : Entry}
    {cells : UInt8 → UInt8}
    (hTable :
      OpcodeTable.atFidelity fidelity = .ok cpu.table)
    (hStored : cpu.registers.status.breakMark = false)
    (hEntered : Entry.Entered cpu done)
    (hSaved :
      page.cell after = entry.saved cells cpu.registers)
    (hUntouched : page.Untouched done after 3 later bus')
    (hFetches : later.Fetches lines' bus' 0x40) :
    ∃ back, (later.step lines' bus').1 = .ok back ∧
      back.cpu.registers.status = cpu.registers.status ∧
      back.cpu.registers.sp = cpu.registers.sp ∧
      back.cpu.registers.pc =
        entry.returnAddress cpu.registers.pc := by
  have hHere :
      OpcodeTable.atFidelity fidelity = .ok later.table := by
    rw [hUntouched.table, hEntered.1]
    exact hTable
  rcases (step_interruptReturn hHere hUntouched.plain
    hFetches).result with ⟨executed, hStep, hRegisters⟩
  have hPointer := hUntouched.pointer.trans hEntered.2
  -- The pointer passes the three places on its way up.
  have hFirst :
      later.registers.sp + 1 = cpu.registers.sp - 1 - 1 := by
    rw [hPointer, UInt8.sub_add_cancel]
  have hSecond :
      later.registers.sp + 1 + 1 = cpu.registers.sp - 1 := by
    rw [hFirst, UInt8.sub_add_cancel]
  have hThird :
      later.registers.sp + 1 + 1 + 1 = cpu.registers.sp := by
    rw [hSecond, UInt8.sub_add_cancel]
  have hStatus := hUntouched.saved 1 (by decide) (by decide)
  have hLow := hUntouched.saved (1 + 1) (by decide) (by decide)
  have hHigh :=
    hUntouched.saved (1 + 1 + 1) (by decide) (by decide)
  rw [hSaved, hFirst, Entry.saved_status] at hStatus
  rw [hSaved, ← UInt8.add_assoc, hSecond,
    Entry.saved_low] at hLow
  rw [hSaved, ← UInt8.add_assoc, ← UInt8.add_assoc, hThird,
    Entry.saved_high] at hHigh
  rw [hThird, hSecond, hFirst, hStatus, hLow, hHigh,
    Status.ofStack_toStack hStored,
    Bits.word_lowByte_highByte] at hRegisters
  refine ⟨_, hStep, ?_, ?_, ?_⟩
  · exact congrArg (·.status) hRegisters
  · exact congrArg (·.sp) hRegisters
  · exact congrArg (·.pc) hRegisters

/- Returning from a subroutine goes on behind its call. -/
theorem subroutineReturn
    {cells : UInt8 → UInt8}
    {place : UInt8}
    {address : UInt16}
    (hTable :
      OpcodeTable.atFidelity fidelity = .ok later.table)
    (hPointer : done.cpu.registers.sp = place - 1 - 1)
    (hSaved : page.cell after = saveWord cells place address)
    (hUntouched : page.Untouched done after 2 later bus')
    (hFetches : later.Fetches lines' bus' 0x60) :
    ∃ back, (later.step lines' bus').1 = .ok back ∧
      back.cpu.registers.status = later.registers.status ∧
      back.cpu.registers.sp = place ∧
      back.cpu.registers.pc = address + 1 := by
  rcases (step_subroutineReturn hTable hUntouched.plain
    hFetches).result with ⟨executed, hStep, hRegisters⟩
  have hFirst : later.registers.sp + 1 = place - 1 := by
    rw [hUntouched.pointer, hPointer, UInt8.sub_add_cancel]
  have hSecond : later.registers.sp + 1 + 1 = place := by
    rw [hFirst, UInt8.sub_add_cancel]
  have hLow := hUntouched.saved 1 (by decide) (by decide)
  have hHigh := hUntouched.saved (1 + 1) (by decide) (by decide)
  rw [hSaved, hFirst, saveWord_low] at hLow
  rw [hSaved, ← UInt8.add_assoc, hSecond,
    saveWord_high] at hHigh
  rw [hSecond, hFirst, hLow, hHigh,
    Bits.word_lowByte_highByte] at hRegisters
  refine ⟨_, hStep, ?_, ?_, ?_⟩
  · exact congrArg (·.status) hRegisters
  · exact congrArg (·.sp) hRegisters
  · exact congrArg (·.pc) hRegisters

end Untouched

end StackPage

------------------------------------------------------------
-- Round Trips
------------------------------------------------------------

/-
  From every state that a reset processor can reach, an
  interrupt or BRK succeeds and saves a status whose bit 5 is
  set, and whose bit 4 is set for BRK only.  An RTI that
  finds the stack pointer and the three bytes untouched
  restores the status and the pointer, and goes on where the
  processor was interrupted, or two bytes behind BRK.  An RTS
  does the same for a JSR, three bytes behind it, and neither
  changes the status.  PHP saves the status with both bits.
-/
theorem Cpu.interrupts_and_calls_return
    (page : StackPage β)
    {fidelity : Fidelity}
    {cpu : Cpu}
    (hReached : Cpu.Reached fidelity cpu)
    (lines : InterruptLines)
    {bus : β}
    (hPlain : page.Plain bus) :
    let r := cpu.registers
    (∀ entry : Entry, entry.Starts cpu lines bus →
      ∃ done after, cpu.step lines bus = (.ok done, after) ∧
        page.Plain after ∧
        (let copy := page.cell after (r.sp - 2);
          copy = r.status.toStack entry.marksBreak ∧
            Bits.isSet copy 5 = true ∧
            (Bits.isSet copy 4 = true ↔ entry = .brk)) ∧
        ∀ later lines' bus',
          page.Untouched done after 3 later bus' →
          later.Fetches lines' bus' 0x40 →
          ∃ back, (later.step lines' bus').1 = .ok back ∧
            back.cpu.registers.status = r.status ∧
            back.cpu.registers.sp = r.sp ∧
            back.cpu.registers.pc =
              entry.returnAddress r.pc) ∧
    (cpu.Fetches lines bus 0x20 →
      ∃ done after, cpu.step lines bus = (.ok done, after) ∧
        page.Plain after ∧
        done.cpu.registers.status = r.status ∧
        ∀ later lines' bus',
          page.Untouched done after 2 later bus' →
          later.Fetches lines' bus' 0x60 →
          ∃ back, (later.step lines' bus').1 = .ok back ∧
            back.cpu.registers.status =
              later.registers.status ∧
            back.cpu.registers.sp = r.sp ∧
            back.cpu.registers.pc = r.pc + 3) ∧
    (cpu.Fetches lines bus 0x08 →
      ∃ done after, cpu.step lines bus = (.ok done, after) ∧
        let copy := page.cell after r.sp
        copy = r.status.toStack true ∧
          Bits.isSet copy 5 = true ∧
          Bits.isSet copy 4 = true) := by
  intro r
  have hTable := hReached.table
  have hStored := hReached.breakMark
  have hPlace : r.sp - 2 = r.sp - 1 - 1 := by
    rw [sub_sub]
    rfl
  refine ⟨?_, ?_, ?_⟩
  · intro entry hStarts
    have hStep := entry.step_yields hTable hPlain hStarts
    rcases hStep.result with ⟨done, hDone, hEntered⟩
    refine ⟨done, _, Prod.ext hDone rfl, hStep.plain, ?_, ?_⟩
    · intro copy
      have hCopy :
          copy = r.status.toStack entry.marksBreak := by
        show page.cell _ (r.sp - 2) = _
        rw [hPlace, hStep.cells]
        exact Entry.saved_status _ r entry
      rw [hCopy]
      refine ⟨rfl, Status.isSet_toByte_unused _, ?_⟩
      rw [Status.isSet_toStack_breakMark]
      cases entry <;> decide
    · intro later lines' bus' hUntouched hFetches
      exact hUntouched.interruptReturn hTable hStored hEntered
        hStep.cells hFetches
  · intro hCall
    have hStep := StackPage.step_call hTable hPlain hCall
    rcases hStep.result with
      ⟨executed, hDone, target, hRegisters⟩
    refine ⟨_, _, Prod.ext hDone rfl, hStep.plain, ?_, ?_⟩
    · exact congrArg (·.status) hRegisters
    · intro later lines' bus' hUntouched hFetches
      have hHere :
          OpcodeTable.atFidelity fidelity =
            .ok later.table := by
        rw [hUntouched.table]
        exact hTable
      have hPointer := congrArg (·.sp) hRegisters
      have hAddress : r.pc + 3 - 1 + 1 = r.pc + 3 :=
        UInt16.sub_add_cancel _ _
      rw [← hAddress]
      exact hUntouched.subroutineReturn hHere hPointer
        hStep.cells hFetches
  · intro hPush
    have hStep := StackPage.step_pushStatus hTable hPlain hPush
    rcases hStep.result with ⟨executed, hDone, -⟩
    refine ⟨_, _, Prod.ext hDone rfl, ?_⟩
    intro copy
    have hCopy : copy = r.status.toStack true := by
      show page.cell _ r.sp = _
      rw [hStep.cells]
      exact Function.update_self _ _ _
    rw [hCopy]
    exact ⟨rfl, Status.isSet_toByte_unused _,
      Status.isSet_toStack_breakMark _ _⟩

/-
  In memory that is full of RTIs, the first instruction of
  the interrupt handler returns from it.
-/
theorem Cpu.nmi_returns_in_filled_memory :
    ∃ cpu done after,
      let memory := Ram.filled 0x0300 0x40
      Cpu.Reached .strict cpu ∧
        Ram.stackPage.Plain memory ∧
        cpu.step ⟨true, false⟩ memory = (.ok done, after) ∧
        done.cpu.registers.sp ≠ cpu.registers.sp ∧
        ∃ back, (done.cpu.step {} after).1 = .ok back ∧
          back.cpu.registers.status = cpu.registers.status ∧
          back.cpu.registers.sp = cpu.registers.sp ∧
          back.cpu.registers.pc = cpu.registers.pc := by
  let memory := Ram.filled 0x0300 0x40
  let r : Registers := { Registers.powerOn with pc := 0x4040 }
  let entered :=
    r.enterInterrupt Hardware.nmiVector r.pc false memory
  rcases OpcodeTable.atFidelity_isOk .strict with
    ⟨table, hTable⟩
  let cpu : Cpu := ⟨table, r, true⟩
  have hStart :
      (AddressBus.readWord Hardware.resetVector memory).1 =
        0x4040 := by
    decide +kernel
  have hReached : Cpu.Reached .strict cpu := by
    have hNew : Cpu.ofFidelity .strict =
        .ok ⟨table, .powerOn, false⟩ := by
      unfold ofFidelity
      rw [hTable]
      rfl
    have hReset := Reached.start memory hNew
    show Cpu.Reached .strict
      ⟨table, { Registers.powerOn with pc := 0x4040 }, true⟩
    rw [← hStart]
    exact hReset
  have hPlain : Ram.stackPage.Plain memory := by
    show 0x0200 ≤ (Array.replicate 0x0300 (0x40 : UInt8)).size
    rw [Array.size_replicate]
    decide
  have hOpcode :
      (AddressBus.read entered.1.pc entered.2).1 = 0x40 := by
    decide +kernel
  rcases (interrupts_and_calls_return Ram.stackPage hReached
    ⟨true, false⟩ hPlain).1 .nmi rfl with
    ⟨done, after, hStep, hAfter, -, hReturn⟩
  cases hStep
  have hMoved : entered.1.sp ≠ cpu.registers.sp := by
    show (0xFD - 1 - 1 - 1 : UInt8) ≠ 0xFD
    decide
  refine ⟨cpu, _, _, hReached, hPlain, rfl, hMoved, ?_⟩
  exact hReturn ⟨table, entered.1, true⟩ {} entered.2
    ⟨rfl, rfl, hAfter, fun _ _ _ => rfl⟩ ⟨rfl, hOpcode⟩

end Famicom
