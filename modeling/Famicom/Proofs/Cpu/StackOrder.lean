import Famicom.Proofs.Cpu.Session
import Famicom.Proofs.Cpu.StackHistory

/-
  The order of the stack.

  Some steps push bytes and some pull bytes.  What they do to
  the stack shows on the bus: a pushing step writes nothing
  but what it pushes, and a pulling one reads nothing but what
  it pulls once it has its opcode.  In between anything may
  happen that leaves the stack as it is.

  Key definitions include:
    * `StackUse`
    * `Session.stackUse?`
    * `Session.stackAccesses`
    * `StackPage.Traces`
    * `StackPage.Worked`

  Main declarations:
    * `StackPage.execute_traces`
    * `StackPage.stackStep_of_stackUse`
    * `StackPage.Worked.moves`
    * `StackPage.stack_is_last_in_first_out`
-/

namespace Famicom

------------------------------------------------------------
-- Pushes and Pulls
------------------------------------------------------------

/- The bytes that a step pushes, or how many it pulls. -/
inductive StackUse where
  | pushes (bytes : List UInt8)
  | pulls (count : Nat)
deriving DecidableEq

/- The bytes of a pushed word, in order. -/
def Bits.pushedBytes (value : UInt16) : List UInt8 :=
  [highByte value, lowByte value]

/- What an interrupt saves, in order. -/
def Registers.savedBytes
    (r : Registers)
    (returnAddress : UInt16)
    (software : Bool) : List UInt8 :=
  Bits.pushedBytes returnAddress ++
    [r.status.toStack software]

namespace Instruction

/- What an instruction does with the stack, if it uses it. -/
def stackUse?
    (i : Instruction)
    (r : Registers) : Option StackUse :=
  match i.operation with
  | .push op => some (.pushes [op.value (i.advance r)])
  | .call => some (.pushes (Bits.pushedBytes (i.next r - 1)))
  | .softwareInterrupt =>
      some (.pushes (r.savedBytes (i.next r + 1) true))
  | .pull _ => some (.pulls 1)
  | .subroutineReturn => some (.pulls 2)
  | .interruptReturn => some (.pulls 3)
  | _ => none

/- The registers that an instruction makes of pulled bytes. -/
def taken?
    (i : Instruction)
    (r : Registers)
    (bytes : List UInt8) : Option Registers :=
  match i.operation, bytes with
  | .pull op, [value] =>
      some (op.apply
        { i.advance r with sp := r.sp + 1 } value)
  | .subroutineReturn, [low, high] =>
      some { r with
        sp := r.sp + 1 + 1
        pc := Bits.word low high + 1 }
  | .interruptReturn, [status, low, high] =>
      some { r with
        sp := r.sp + 1 + 1 + 1
        status := .ofStack status
        pc := Bits.word low high }
  | _, _ => none

end Instruction

namespace StackUse

/- The part of an instruction's traffic that uses the stack. -/
def accesses
    (traffic : List BusAccess) : StackUse → List BusAccess
  | pushes _ => traffic.filter (·.isWrite)
  | pulls _ => traffic

/- What is pushed is written, and what is pulled is read. -/
def ShownBy
    (accesses : List BusAccess) : StackUse → Prop
  | pushes bytes =>
      accesses.map (·.value) = bytes ∧
        Stack.pulls accesses = 0
  | pulls count =>
      Stack.pulls accesses = count ∧
        Stack.pushes accesses = 0

/-
  The traffic of an instruction moves the stack as the use
  says, and leads to the stack pointer of some registers.
-/
structure Done
    (use : StackUse)
    (r : Registers)
    (cells : UInt8 → UInt8)
    (r' : Registers)
    (traffic : List BusAccess)
    (after : UInt8 → UInt8) : Prop where
  moves :
    Stack.Moves ⟨r.sp, cells⟩ (use.accesses traffic)
      ⟨r'.sp, after⟩
  shown : use.ShownBy (use.accesses traffic)

end StackUse

------------------------------------------------------------
-- Computations
------------------------------------------------------------

namespace StackPage

variable {β α γ : Type} [AddressBus β]
variable {page : StackPage β}

/-
  What a computation adds to the log of a recorded bus, and
  the bytes that it leaves on the stack, if it finds known
  bytes there.
-/
def Traces
    (page : StackPage β)
    (cells : UInt8 → UInt8)
    (post : α → List BusAccess → (UInt8 → UInt8) → Prop)
    (computation : StateM (Recorded β) α) : Prop :=
  ∀ start : Recorded β,
    page.Plain start.bus → page.cell start.bus = cells →
      let done := computation start
      ∃ accesses,
        done.2.latestFirst =
            accesses.reverse ++ start.latestFirst ∧
          page.Plain done.2.bus ∧
          post done.1 accesses (page.cell done.2.bus)

namespace Traces

variable {cells : UInt8 → UInt8}
variable {post : α → List BusAccess → (UInt8 → UInt8) → Prop}
variable {post' : γ → List BusAccess → (UInt8 → UInt8) → Prop}
variable {computation : StateM (Recorded β) α}

theorem pure
    {result : α}
    (hPost : post result [] cells) :
    page.Traces cells post (Pure.pure result) := by
  rintro start hPlain rfl
  exact ⟨[], rfl, hPlain, hPost⟩

theorem read
    (address : UInt16) :
    page.Traces cells
      (fun value accesses after =>
        accesses = [.read address value] ∧ after = cells)
      (AddressBus.read address) := by
  rintro start hPlain rfl
  exact ⟨[_], rfl, page.plain_read address hPlain, rfl,
    page.cell_read address hPlain⟩

/- Reading a place of the stack gives the byte in it. -/
theorem readPlace
    (place : UInt8) :
    page.Traces cells
      (fun value accesses after =>
        value = cells place ∧
          accesses = [.read (stackAt place) value] ∧
          after = cells)
      (AddressBus.read (stackAt place)) := by
  rintro start hPlain rfl
  exact ⟨[_], rfl, page.plain_read _ hPlain,
    page.read_place place hPlain, rfl,
    page.cell_read _ hPlain⟩

theorem writePlace
    (place value : UInt8) :
    page.Traces cells
      (fun _ accesses after =>
        accesses = [.write (stackAt place) value] ∧
          after = Function.update cells place value)
      (AddressBus.write (stackAt place) value) := by
  rintro start hPlain rfl
  exact ⟨[_], rfl, page.plain_write place value hPlain, rfl,
    page.cell_write place value hPlain⟩

/- The second computation goes on with what the first leaves. -/
theorem bind
    {next : α → StateM (Recorded β) γ}
    (hFirst : page.Traces cells post computation)
    (hNext : ∀ result seen after, post result seen after →
      page.Traces after
        (fun last more => post' last (seen ++ more))
        (next result)) :
    page.Traces cells post' (computation >>= next) := by
  intro start hPlain hCells
  rcases hFirst start hPlain hCells with
    ⟨seen, hSeen, hAfter, hPost⟩
  rcases hNext _ seen _ hPost (computation start).2 hAfter rfl
    with ⟨more, hMore, hLast, hDone⟩
  refine ⟨seen ++ more, ?_, hLast, hDone⟩
  rw [List.reverse_append, List.append_assoc, ← hSeen]
  exact hMore

theorem map
    {f : α → γ}
    (hTraces : page.Traces cells post computation)
    (hPost : ∀ result accesses after,
      post result accesses after →
        post' (f result) accesses after) :
    page.Traces cells post' (f <$> computation) := by
  intro start hPlain hCells
  rcases hTraces start hPlain hCells with
    ⟨accesses, hLog, hAfter, hHere⟩
  exact ⟨accesses, hLog, hAfter, hPost _ _ _ hHere⟩

theorem mono
    {weaker : α → List BusAccess → (UInt8 → UInt8) → Prop}
    (hTraces : page.Traces cells post computation)
    (hWeaker : ∀ result accesses after,
      post result accesses after →
        weaker result accesses after) :
    page.Traces cells weaker computation :=
  hTraces.map (f := id) hWeaker

end Traces

variable {cells : UInt8 → UInt8}

theorem push_traces
    (r : Registers)
    (value : UInt8) :
    page.Traces cells
      (fun pushed accesses after =>
        pushed = { r with sp := r.sp - 1 } ∧
          accesses = [.write (stackAt r.sp) value] ∧
          after = Function.update cells r.sp value)
      (r.push value) := by
  refine (Traces.writePlace r.sp value).bind ?_
  rintro _ _ _ ⟨rfl, rfl⟩
  exact .pure ⟨rfl, rfl, rfl⟩

theorem pull_traces (r : Registers) :
    page.Traces cells
      (fun pulled accesses after =>
        let value := cells (r.sp + 1)
        pulled = (value, { r with sp := r.sp + 1 }) ∧
          accesses = [.read (stackAt (r.sp + 1)) value] ∧
          after = cells)
      r.pull := by
  refine (Traces.readPlace (r.sp + 1)).bind ?_
  rintro _ _ _ ⟨rfl, rfl, rfl⟩
  exact .pure ⟨rfl, rfl, rfl⟩

theorem pushWord_traces
    (r : Registers)
    (value : UInt16) :
    page.Traces cells
      (fun pushed accesses after =>
        pushed = { r with sp := r.sp - 1 - 1 } ∧
          accesses =
            [.write (stackAt r.sp) (Bits.highByte value),
              .write (stackAt (r.sp - 1))
                (Bits.lowByte value)] ∧
          after = saveWord cells r.sp value)
      (r.pushWord value) := by
  refine (push_traces r _).bind ?_
  rintro _ _ _ ⟨rfl, rfl, rfl⟩
  refine (push_traces { r with sp := r.sp - 1 } _).mono ?_
  rintro _ _ _ ⟨rfl, rfl, rfl⟩
  exact ⟨rfl, rfl, rfl⟩

theorem pullWord_traces (r : Registers) :
    page.Traces cells
      (fun pulled accesses after =>
        let low := cells (r.sp + 1)
        let high := cells (r.sp + 1 + 1)
        pulled =
            (Bits.word low high,
              { r with sp := r.sp + 1 + 1 }) ∧
          accesses =
            [.read (stackAt (r.sp + 1)) low,
              .read (stackAt (r.sp + 1 + 1)) high] ∧
          after = cells)
      r.pullWord := by
  refine (pull_traces r).bind ?_
  rintro _ _ _ ⟨rfl, rfl, rfl⟩
  refine (pull_traces { r with sp := r.sp + 1 }).bind ?_
  rintro _ _ _ ⟨rfl, rfl, rfl⟩
  exact .pure ⟨rfl, rfl, rfl⟩

theorem readWord_traces (address : UInt16) :
    page.Traces cells
      (fun _ accesses after =>
        (∃ low high, accesses =
          [.read address low, .read (address + 1) high]) ∧
          after = cells)
      (AddressBus.readWord address) := by
  refine (Traces.read address).bind ?_
  rintro low _ _ ⟨rfl, rfl⟩
  refine (Traces.read (address + 1)).bind ?_
  rintro high _ _ ⟨rfl, rfl⟩
  exact .pure ⟨⟨low, high, rfl⟩, rfl⟩

/- An interrupt writes what it saves and reads its vector. -/
theorem enterInterrupt_traces
    (r : Registers)
    (vector returnAddress : UInt16)
    (software : Bool) :
    let saved := r.savedBytes returnAddress software
    page.Traces cells
      (fun entered accesses after =>
        StackUse.Done (.pushes saved) r cells entered
          accesses after)
      (r.enterInterrupt vector returnAddress software) := by
  intro saved
  refine (pushWord_traces r returnAddress).bind ?_
  rintro _ _ _ ⟨rfl, rfl, rfl⟩
  refine (push_traces { r with sp := r.sp - 1 - 1 } _).bind ?_
  rintro _ _ _ ⟨rfl, rfl, rfl⟩
  refine (readWord_traces vector).bind ?_
  rintro target _ _ ⟨⟨low, high, rfl⟩, rfl⟩
  refine .pure ⟨.push (.push (.push .stay)), rfl, rfl⟩

------------------------------------------------------------
-- Instructions
------------------------------------------------------------

/- An instruction that uses the stack does what it says. -/
theorem execute_traces
    {i : Instruction}
    {r : Registers}
    {use : StackUse}
    (hUse : i.stackUse? r = some use) :
    page.Traces cells
      (fun result accesses after => ∃ done,
        result = .ok done ∧
          use.Done r cells done.registers accesses after ∧
          ∀ count, use = .pulls count →
            i.taken? r (accesses.map (·.value)) =
              some done.registers)
      (i.execute r) := by
  unfold Instruction.stackUse? at hUse
  unfold Instruction.execute Instruction.taken?
  cases hOperation : i.operation with
  | push op =>
      rw [hOperation] at hUse
      cases hUse
      refine Traces.map ((push_traces (i.advance r) _).bind ?_)
        fun done _ _ hDone => ⟨done, rfl, hDone, nofun⟩
      rintro _ _ _ ⟨rfl, rfl, rfl⟩
      exact .pure ⟨.push .stay, rfl, rfl⟩
  | call =>
      rw [hOperation] at hUse
      cases hUse
      refine Traces.map ((readWord_traces (r.pc + 1)).bind ?_)
        fun done _ _ hDone => ⟨done, rfl, hDone, nofun⟩
      rintro target _ _ ⟨⟨low, high, rfl⟩, rfl⟩
      refine (pushWord_traces r _).bind ?_
      rintro _ _ _ ⟨rfl, rfl, rfl⟩
      exact .pure ⟨.push (.push .stay), rfl, rfl⟩
  | softwareInterrupt =>
      rw [hOperation] at hUse
      cases hUse
      refine Traces.map
        ((enterInterrupt_traces r _ _ true).bind ?_)
        fun done _ _ hDone => ⟨done, rfl, hDone, nofun⟩
      intro entered accesses after hDone
      refine .pure ?_
      rw [List.append_nil]
      exact hDone
  | pull op =>
      rw [hOperation] at hUse
      cases hUse
      refine Traces.map ((pull_traces (i.advance r)).bind ?_)
        fun done _ _ hDone => ⟨done, rfl, hDone⟩
      rintro _ _ _ ⟨rfl, rfl, rfl⟩
      refine .pure ⟨⟨?_, rfl, rfl⟩, fun _ _ => rfl⟩
      cases op <;> exact .pull .stay
  | subroutineReturn =>
      rw [hOperation] at hUse
      cases hUse
      refine Traces.map ((pullWord_traces r).bind ?_)
        fun done _ _ hDone => ⟨done, rfl, hDone⟩
      rintro _ _ _ ⟨rfl, rfl, rfl⟩
      exact .pure ⟨⟨.pull (.pull .stay), rfl, rfl⟩,
        fun _ _ => rfl⟩
  | interruptReturn =>
      rw [hOperation] at hUse
      cases hUse
      refine Traces.map ((pull_traces r).bind ?_)
        fun done _ _ hDone => ⟨done, rfl, hDone⟩
      rintro _ _ _ ⟨rfl, rfl, rfl⟩
      refine (pullWord_traces
        { r with sp := r.sp + 1 }).bind ?_
      rintro _ _ _ ⟨rfl, rfl, rfl⟩
      exact .pure ⟨⟨.pull (.pull (.pull .stay)), rfl, rfl⟩,
        fun _ _ => rfl⟩
  | _ =>
      rw [hOperation] at hUse
      cases hUse

end StackPage

------------------------------------------------------------
-- Steps
------------------------------------------------------------

namespace Session

variable {β : Type} [AddressBus β]

/- The instruction that is fetched if the next step does. -/
def fetched (s : Session β) : Instruction :=
  s.cpu.table.lookup
    (AddressBus.read s.cpu.registers.pc s.bus).1

/- What the next step does with the stack, if it uses it. -/
def stackUse? (s : Session β) : Option StackUse :=
  let r := s.cpu.registers
  match s.cpu.nextAction s.lines with
  | .serveNmi | .serveIrq =>
      some (.pushes (r.savedBytes r.pc false))
  | .execute => s.fetched.stackUse? r

/- The accesses by which the next step uses the stack. -/
def stackAccesses (s : Session β) : List BusAccess :=
  match s.stackUse? with
  | some (.pushes _) => s.traffic.filter (·.isWrite)
  | some (.pulls _) => s.traffic.tail
  | none => []

variable {s : Session β}

/- A step is told from the step on a recorded bus. -/
theorem of_recorded
    {done : Cpu.Step}
    {after : Recorded β}
    (hStep :
      s.cpu.step s.lines ({ bus := s.bus } : Recorded β) =
        (.ok done, after)) :
    s.outcome = .ok done ∧
      s.next = ⟨done.cpu, done.lines, after.bus⟩ ∧
      s.traffic = after.accesses := by
  have hSame :
      s.cpu.step s.lines s.bus = (.ok done, after.bus) := by
    rw [(Cpu.step_within s.cpu s.lines).recorded s.bus, hStep]
  refine ⟨congrArg Prod.fst hSame, ?_, ?_⟩
  · unfold next
    rw [hSame]
  · exact congrArg (·.2.accesses) hStep

end Session

namespace StackPage

variable {β : Type} [AddressBus β]
variable {page : StackPage β}
variable {s t u : Session β}
variable {use : StackUse}
variable {history : List BusAccess}

/- The stack of a session. -/
def stackOf
    (page : StackPage β)
    (s : Session β) : Stack :=
  ⟨s.cpu.registers.sp, page.cell s.bus⟩

/-
  A step that uses the stack succeeds.  Its traffic shows what
  it does there, and a pulling step goes on with the bytes
  that it has read.
-/
structure StackStep
    (page : StackPage β)
    (s : Session β)
    (use : StackUse) : Prop where
  outcome : ∃ done, s.outcome = .ok done
  plain : page.Plain s.next.bus
  moves :
    Stack.Moves (page.stackOf s) s.stackAccesses
      (page.stackOf s.next)
  shown : use.ShownBy s.stackAccesses
  taken : ∀ count, use = .pulls count →
    s.fetched.taken? s.cpu.registers
        (s.stackAccesses.map (·.value)) =
      some s.next.cpu.registers

theorem StackStep.of_recorded
    {done : Cpu.Step}
    {after : Recorded β}
    {accesses : List BusAccess}
    (hStep :
      s.cpu.step s.lines ({ bus := s.bus } : Recorded β) =
        (.ok done, after))
    (hPlain : page.Plain after.bus)
    (hStack : s.stackAccesses = use.accesses accesses)
    (hDone :
      use.Done s.cpu.registers (page.cell s.bus)
        done.cpu.registers accesses (page.cell after.bus))
    (hTaken : ∀ count, use = .pulls count →
      s.fetched.taken? s.cpu.registers
          (accesses.map (·.value)) =
        some done.cpu.registers) :
    page.StackStep s use := by
  rcases Session.of_recorded hStep with ⟨hOutcome, hNext, -⟩
  constructor
  · exact ⟨done, hOutcome⟩
  · rw [hNext]
    exact hPlain
  · rw [hNext, hStack]
    exact hDone.moves
  · rw [hStack]
    exact hDone.shown
  · rintro count rfl
    rw [hNext, hStack]
    exact hTaken count rfl

/- An interrupt sequence pushes an address and the status. -/
theorem interrupt_stack
    {vector : UInt16}
    {lines : InterruptLines}
    (hPlain : page.Plain s.bus)
    (hUse : s.stackUse? =
      some (.pushes (s.cpu.registers.savedBytes
        s.cpu.registers.pc false)))
    (hStep :
      (s.cpu.step s.lines :
        StateM (Recorded β) (Except MachineFault Cpu.Step)) =
        .ok <$> s.cpu.interrupt lines vector) :
    page.StackStep s (.pushes (s.cpu.registers.savedBytes
      s.cpu.registers.pc false)) := by
  rcases enterInterrupt_traces s.cpu.registers vector
    s.cpu.registers.pc false { bus := s.bus } hPlain rfl with
    ⟨accesses, hLog, hAfter, hDone⟩
  have hHere := congrFun hStep { bus := s.bus }
  have hTraffic : s.traffic = accesses := by
    rw [(Session.of_recorded hHere).2.2]
    refine (congrArg List.reverse hLog).trans ?_
    rw [List.append_nil, List.reverse_reverse]
  have hStack :
      s.stackAccesses = accesses.filter (·.isWrite) := by
    unfold Session.stackAccesses
    rw [hUse, hTraffic]
  exact .of_recorded hHere hAfter hStack hDone nofun

/- An execution uses the stack as its instruction does. -/
theorem execute_stack
    (hPlain : page.Plain s.bus)
    (hAction : s.cpu.nextAction s.lines = .execute)
    (hUse : s.stackUse? = some use) :
    page.StackStep s use := by
  let r := s.cpu.registers
  let opcode := (AddressBus.read r.pc s.bus).1
  let start : Recorded β :=
    ⟨(AddressBus.read r.pc s.bus).2, [.read r.pc opcode]⟩
  have hInstruction : s.fetched.stackUse? r = some use := by
    rw [← hUse]
    unfold Session.stackUse?
    rw [hAction]
  rcases execute_traces hInstruction start
    (page.plain_read _ hPlain) (page.cell_read _ hPlain) with
    ⟨accesses, hLog, hAfter, executed, hOk, hDone, hTaken⟩
  have hStep :
      s.cpu.step s.lines ({ bus := s.bus } : Recorded β) =
        (.ok (s.cpu.stepOf s.lines executed),
          (s.fetched.execute r start).2) := by
    have hFetches : s.cpu.Fetches s.lines
        ({ bus := s.bus } : Recorded β) opcode :=
      ⟨hAction, rfl⟩
    refine (Cpu.step_of_fetches hFetches).trans ?_
    exact Prod.ext
      (congrArg (Except.map (s.cpu.stepOf s.lines)) hOk) rfl
  have hTraffic :
      s.traffic = .read r.pc opcode :: accesses := by
    rw [(Session.of_recorded hStep).2.2]
    refine (congrArg List.reverse hLog).trans ?_
    rw [List.reverse_append, List.reverse_reverse]
    rfl
  have hStack : s.stackAccesses = use.accesses accesses := by
    unfold Session.stackAccesses
    rw [hUse, hTraffic]
    cases use <;> rfl
  exact .of_recorded hStep hAfter hStack hDone hTaken

/- Every step that uses the stack does so as it says. -/
theorem stackStep_of_stackUse
    (hPlain : page.Plain s.bus)
    (hUse : s.stackUse? = some use) :
    page.StackStep s use := by
  have hAction :
      s.stackUse? = match s.cpu.nextAction s.lines with
        | .serveNmi | .serveIrq =>
            some (.pushes (s.cpu.registers.savedBytes
              s.cpu.registers.pc false))
        | .execute => s.fetched.stackUse? s.cpu.registers :=
    rfl
  cases hNext : s.cpu.nextAction s.lines with
  | execute => exact execute_stack hPlain hNext hUse
  | serveNmi =>
      rw [hNext] at hAction
      cases hAction.symm.trans hUse
      apply interrupt_stack hPlain hAction
      rw [Cpu.step_eq_perform, hNext]
      rfl
  | serveIrq =>
      rw [hNext] at hAction
      cases hAction.symm.trans hUse
      apply interrupt_stack hPlain hAction
      rw [Cpu.step_eq_perform, hNext]
      rfl

------------------------------------------------------------
-- Runs
------------------------------------------------------------

/- The stack of one session is that of another one. -/
structure SameStack
    (page : StackPage β)
    (s t : Session β) : Prop where
  plain : page.Plain t.bus
  same : page.stackOf t = page.stackOf s

/-
  What has been pushed and pulled on the way from one session
  to another, where steps that use the stack alternate with
  whatever leaves the stack alone.
-/
inductive Worked
    (page : StackPage β)
    (s : Session β) : List BusAccess → Session β → Prop
  | start : Worked page s [] s
  | step {history : List BusAccess} {t : Session β}
      {use : StackUse}
      (hWorked : Worked page s history t)
      (hUse : t.stackUse? = some use) :
      Worked page s (history ++ t.stackAccesses) t.next
  | aside {history : List BusAccess} {t u : Session β}
      (hWorked : Worked page s history t)
      (hSame : page.SameStack t u) :
      Worked page s history u

/- The history of a run tells how it has moved the stack. -/
theorem Worked.moves
    (hWorked : page.Worked s history t)
    (hPlain : page.Plain s.bus) :
    page.Plain t.bus ∧
      Stack.Moves (page.stackOf s) history
        (page.stackOf t) := by
  induction hWorked with
  | start => exact ⟨hPlain, .stay⟩
  | step _ hUse ih =>
      have hStep := stackStep_of_stackUse ih.1 hUse
      exact ⟨hStep.plain, ih.2.append hStep.moves⟩
  | aside _ hSame ih =>
      refine ⟨hSame.plain, ?_⟩
      rw [hSame.same]
      exact ih.2

/-
  The stack is last in, first out.  Along every run that pulls
  no more than it has pushed, and that never has more than 256
  bytes outstanding, the stack pointer is the start less the
  number of outstanding bytes, pushes and pulls only go to the
  places of page one that the pointer tells, and each pull
  takes the byte of the push that matches it.  The next step
  that uses the stack succeeds, pushes or pulls what it says
  and goes on with the bytes that it has pulled.
-/
theorem stack_is_last_in_first_out
    (page : StackPage β)
    {s t : Session β}
    {history : List BusAccess}
    (hPlain : page.Plain s.bus)
    (hWorked : page.Worked s history t)
    (hBalanced : Stack.Balanced history) :
    let pointerAfter (accesses : List BusAccess) :=
      s.cpu.registers.sp - .ofNat (Stack.depth accesses)
    t.cpu.registers.sp = pointerAfter history ∧
    (∀ earlier access later,
      history = earlier ++ access :: later →
        access.address =
            Stack.place (pointerAfter earlier) access ∧
          access.address.toNat / 256 = 1 ∧
          ∀ address value, access = .read address value →
            ∃ before between,
              earlier =
                  before ++ .write address value :: between ∧
                Stack.Nested between) ∧
    ∀ use, t.stackUse? = some use → page.StackStep t use := by
  intro pointerAfter
  rcases hWorked.moves hPlain with ⟨hHere, hMoves⟩
  rcases hMoves.last_in_first_out hBalanced with
    ⟨hPointer, hOrder⟩
  refine ⟨hPointer, ?_, ?_⟩
  · intro earlier access later hSplit
    rcases hOrder earlier access later hSplit with
      ⟨hPlace, hMatching⟩
    refine ⟨hPlace, ?_, hMatching⟩
    rw [hPlace]
    exact Stack.page_of_place _ access
  · intro use hUse
    exact stackStep_of_stackUse hHere hUse

/-
  In memory full of RTIs, the handler of an edge returns at
  once.  The pointer starts at $01 and wraps around twice.
-/
theorem interrupted_stack_wraps_around :
    ∃ (table : OpcodeTable) (history : List BusAccess)
      (t : Session Ram),
      let page := Ram.stackPage
      let r := { Registers.powerOn with pc := 0x4040, sp := 1 }
      let s : Session Ram :=
        ⟨⟨table, r, true⟩, ⟨true, false⟩,
          .filled 0x0300 0x40⟩
      page.Plain s.bus ∧ page.Worked s history t ∧
        Stack.Balanced history ∧ Stack.pulls history = 3 ∧
        s.next.cpu.registers.sp = 0xFE ∧
        t.cpu.registers.sp = 1 := by
  rcases OpcodeTable.atFidelity_isOk .strict with
    ⟨table, hTable⟩
  let page := Ram.stackPage
  let memory := Ram.filled 0x0300 0x40
  let r : Registers :=
    { Registers.powerOn with pc := 0x4040, sp := 1 }
  let s : Session Ram := ⟨⟨table, r, true⟩, ⟨true, false⟩, memory⟩
  let entered :=
    r.enterInterrupt Hardware.nmiVector r.pc false memory
  have hPlain : page.Plain memory := by
    show 0x0200 ≤ (Array.replicate 0x0300 (0x40 : UInt8)).size
    rw [Array.size_replicate]
    decide
  have hOpcode :
      (AddressBus.read entered.1.pc entered.2).1 = 0x40 := by
    decide +kernel
  have hEntry := OpcodeTable.lookup_of_documented hTable
    (i := ⟨0x40, "RTI", .interruptReturn, .implied, 6, true⟩)
    (by decide +kernel)
  have hPushes : s.stackUse? =
      some (.pushes (r.savedBytes r.pc false)) :=
    rfl
  have hPulls : s.next.stackUse? = some (.pulls 3) := by
    have hFetched : s.next.fetched = table.lookup 0x40 :=
      congrArg table.lookup hOpcode
    show s.next.fetched.stackUse? s.next.cpu.registers = _
    rw [hFetched, hEntry]
    rfl
  have hFirst := stackStep_of_stackUse hPlain hPushes
  have hSecond := stackStep_of_stackUse hFirst.plain hPulls
  have hStart : page.Worked s [] s := .start
  have hHalf : page.Worked s s.stackAccesses s.next :=
    hStart.step hPushes
  have hWorked : page.Worked s
      (s.stackAccesses ++ s.next.stackAccesses) s.next.next :=
    hHalf.step hPulls
  rcases hFirst.shown with ⟨hBytes, hUnread⟩
  rcases hSecond.shown with ⟨hTaken, hUnwritten⟩
  have hThree : Stack.pushes s.stackAccesses = 3 := by
    have hLength := congrArg List.length hBytes
    rw [List.length_map, ← Stack.pushes_add_pulls,
      hUnread] at hLength
    exact hLength
  have hBalanced : Stack.Balanced
      (s.stackAccesses ++ s.next.stackAccesses) :=
    Stack.balanced_append hUnread hUnwritten (by omega)
      (by omega)
  have hDown : Stack.depth s.stackAccesses = 3 := by
    unfold Stack.depth
    rw [hThree, hUnread]
  have hUp :
      Stack.depth (s.stackAccesses ++ s.next.stackAccesses) =
        0 := by
    unfold Stack.depth
    rw [Stack.pushes_append, Stack.pulls_append, hThree,
      hUnread, hTaken, hUnwritten]
  have hMiddle := (stack_is_last_in_first_out page hPlain
    hHalf hBalanced.before).1
  have hLast := (stack_is_last_in_first_out page hPlain
    hWorked hBalanced).1
  refine ⟨table, _, _, hPlain, hWorked, hBalanced, ?_, ?_, ?_⟩
  · rw [Stack.pulls_append, hUnread, hTaken]
  · exact hMiddle.trans
      (congrArg (fun depth => 1 - UInt8.ofNat depth) hDown)
  · exact hLast.trans
      (congrArg (fun depth => 1 - UInt8.ofNat depth) hUp)

end StackPage

end Famicom
