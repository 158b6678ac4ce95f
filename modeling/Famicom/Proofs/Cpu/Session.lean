import Famicom.Proofs.Bus.Recording
import Famicom.Proofs.Cpu.StackPage
import Famicom.Proofs.Cpu.StoredStatus

/-
  Sessions with a processor.

  Whoever drives a processor steps it, and raises the edge or
  sets the level in between.  What a step has done is read off
  its traffic: an interrupt sequence is three writes and a
  vector, and everything else starts with the fetch of an
  opcode.

  Key definitions include:
    * `Session`
    * `Session.Event`
    * `Session.run`
    * `Session.traffic`
    * `Cpu.Action.shownBy`
    * `Session.Sequence`

  Main declarations:
    * `OnBus.Within.leaves`
    * `Session.shown_eq`
    * `Session.sequence_of_serves`
    * `Session.lines_next`
-/

namespace Famicom

open Recorded (Leaves)

------------------------------------------------------------
-- Traffic
------------------------------------------------------------

/- Whatever a program does, it only adds to the log. -/
theorem OnBus.Within.leaves
    {α : Type}
    {inside : UInt16 → Prop}
    {writes : Nat}
    {post : α → Prop}
    {computation : OnBus α}
    (hWithin : Within inside writes post computation)
    {β : Type}
    [AddressBus β] :
    Leaves (fun _ _ => True) (computation (Recorded β)) := by
  rcases hWithin with ⟨program, -, hRun⟩
  rw [hRun]
  clear hRun
  induction program with
  | done result => exact .pure trivial
  | read address next ih =>
      exact (Leaves.read address).bind fun value _ _ =>
        (ih value).mono fun _ _ _ => trivial
  | write address value next ih =>
      exact (Leaves.write address value).bind fun _ _ _ =>
        ih.mono fun _ _ _ => trivial

/-
  The action that a step's traffic shows.  Only an interrupt
  sequence starts with a write, and its vector tells which.
-/
def Cpu.Action.shownBy : List BusAccess → Option Cpu.Action
  | [.write _ _, .write _ _, .write _ _,
      .read vector _, .read _ _] =>
      if vector = Hardware.nmiVector then
        some .serveNmi
      else if vector = Hardware.irqVector then
        some .serveIrq
      else
        none
  | .read _ _ :: _ => some .execute
  | _ => none

/- The vector of an interrupt sequence. -/
def Cpu.Action.vector? : Cpu.Action → Option UInt16
  | serveNmi => some Hardware.nmiVector
  | serveIrq => some Hardware.irqVector
  | execute => none

/- The opcode that a step's traffic starts with. -/
def BusAccess.fetched? : List BusAccess → Option UInt8
  | .read _ opcode :: _ => some opcode
  | _ => none

/- The traffic of an interrupt sequence. -/
def Registers.sequenceTraffic
    (r : Registers)
    (vector : UInt16)
    (low high : UInt8) : List BusAccess :=
  [.write (stackAt r.sp) (Bits.highByte r.pc),
    .write (stackAt (r.sp - 1)) (Bits.lowByte r.pc),
    .write (stackAt (r.sp - 1 - 1))
      (r.status.toStack false),
    .read vector low,
    .read (vector + 1) high]

section Traffic

variable {β : Type} [AddressBus β]
variable (cpu : Cpu)
variable (lines : InterruptLines)
variable (bus : β)

/- A sequence saves, reads its vector and goes on there. -/
theorem Cpu.interrupt_traffic (vector : UInt16) :
    ∃ low high,
      (cpu.interrupt lines vector
        ({ bus := bus } : Recorded β)).2.accesses =
          cpu.registers.sequenceTraffic vector low high ∧
      (cpu.interrupt lines vector bus).1 =
        ⟨{ cpu with
          registers :=
            { cpu.registers.putFlag .interruptDisable true with
              sp := cpu.registers.sp - 1 - 1 - 1
              pc := Bits.word low high } },
          lines, 7⟩ :=
  ⟨_, _, rfl, rfl⟩

/- An execution starts with the fetch of its opcode. -/
theorem Cpu.executeNext_traffic :
    ∃ behind,
      (cpu.executeNext lines
        ({ bus := bus } : Recorded β)).2.accesses =
          .read cpu.registers.pc
            (AddressBus.read cpu.registers.pc bus).1 ::
              behind := by
  let fetched := AddressBus.read cpu.registers.pc bus
  have hLeaves := ((cpu.table.lookup fetched.1).execute_within
    cpu.registers).leaves (β := β)
  rcases hLeaves
    ⟨fetched.2, [.read cpu.registers.pc fetched.1]⟩ with
    ⟨behind, hLog, -⟩
  refine ⟨behind, ?_⟩
  show List.reverse (Recorded.latestFirst _) = _
  refine (congrArg List.reverse hLog).trans ?_
  rw [List.reverse_append, List.reverse_reverse]
  rfl

end Traffic

------------------------------------------------------------
-- Sessions
------------------------------------------------------------

/- A processor, the lines and a bus. -/
structure Session (β : Type) where
  cpu : Cpu
  lines : InterruptLines
  bus : β

namespace Session

/- A processor that goes on at $8000 of a memory. -/
def onMemory
    (table : OpcodeTable)
    (memory : Ram) : Session Ram where
  cpu := ⟨table, { Registers.powerOn with pc := 0x8000 }, true⟩
  lines := {}
  bus := memory

/- What the host of a processor can do. -/
inductive Event where
  | raiseNmi
  | setIrq (asserted : Bool)
  | step
deriving DecidableEq

variable {β : Type} [AddressBus β]

/- The outcome of the next step. -/
def outcome (s : Session β) : Except MachineFault Cpu.Step :=
  (s.cpu.step s.lines s.bus).1

/-
  The session after a step.  A failing one has changed the
  bus at most.
-/
def next (s : Session β) : Session β :=
  match s.cpu.step s.lines s.bus with
  | (.ok done, bus) => ⟨done.cpu, done.lines, bus⟩
  | (.error _, bus) => { s with bus := bus }

/- The session after an event. -/
def handle (s : Session β) : Event → Session β
  | .raiseNmi => { s with lines := s.lines.raiseNmi }
  | .setIrq asserted =>
      { s with lines := s.lines.setIrq asserted }
  | .step => s.next

/- The session after events. -/
def run
    (s : Session β)
    (events : List Event) : Session β :=
  events.foldl handle s

/- The traffic of the next step. -/
def traffic (s : Session β) : List BusAccess :=
  (s.cpu.step s.lines
    ({ bus := s.bus } : Recorded β)).2.accesses

/- What the next step shows of itself on the bus. -/
def shown (s : Session β) : Option Cpu.Action :=
  Cpu.Action.shownBy s.traffic

/- The opcode that the next step fetches, if it does. -/
def fetched? (s : Session β) : Option UInt8 :=
  BusAccess.fetched? s.traffic

/-
  The next step is an interrupt sequence.  It saves the
  program counter and the status, takes the edge if there is
  one, and goes on where the vector points to, with interrupt
  requests disabled.
-/
structure Sequence
    (s : Session β)
    (vector : UInt16)
    (low high : UInt8) : Prop where
  traffic :
    s.traffic =
      s.cpu.registers.sequenceTraffic vector low high
  outcome :
    s.outcome = .ok
      ⟨{ s.cpu with
        registers :=
          { s.cpu.registers.putFlag
              .interruptDisable true with
            sp := s.cpu.registers.sp - 1 - 1 - 1
            pc := Bits.word low high } },
        s.lines.takeNmi.2, 7⟩

variable {s : Session β}

@[simp] theorem run_nil : s.run [] = s := rfl

@[simp] theorem run_cons
    (event : Event)
    (events : List Event) :
    s.run (event :: events) = (s.handle event).run events :=
  rfl

------------------------------------------------------------
-- One Step
------------------------------------------------------------

/- The traffic shows the action that is next. -/
theorem shown_eq :
    s.shown = some (s.cpu.nextAction s.lines) := by
  unfold shown traffic
  rw [Cpu.step_eq_perform]
  cases s.cpu.nextAction s.lines with
  | serveNmi =>
      rcases s.cpu.interrupt_traffic s.lines.takeNmi.2 s.bus
        Hardware.nmiVector with ⟨low, high, hTraffic, -⟩
      exact congrArg Cpu.Action.shownBy hTraffic
  | serveIrq =>
      rcases s.cpu.interrupt_traffic s.lines s.bus
        Hardware.irqVector with ⟨low, high, hTraffic, -⟩
      exact congrArg Cpu.Action.shownBy hTraffic
  | execute =>
      rcases s.cpu.executeNext_traffic s.lines s.bus with
        ⟨behind, hTraffic⟩
      exact congrArg Cpu.Action.shownBy hTraffic

/- The opcode on the bus is the one that is executed. -/
theorem fetched?_eq_some_iff {opcode : UInt8} :
    s.fetched? = some opcode ↔
      s.cpu.Fetches s.lines s.bus opcode := by
  unfold fetched? traffic
  rw [Cpu.step_eq_perform]
  constructor
  · intro hFetched
    cases hAction : s.cpu.nextAction s.lines with
    | serveNmi =>
        rw [hAction] at hFetched
        cases hFetched
    | serveIrq =>
        rw [hAction] at hFetched
        cases hFetched
    | execute =>
        rw [hAction] at hFetched
        rcases s.cpu.executeNext_traffic s.lines s.bus with
          ⟨behind, hTraffic⟩
        have hHere :=
          (congrArg BusAccess.fetched? hTraffic).symm.trans
            hFetched
        exact ⟨hAction, Option.some.inj hHere⟩
  · rintro ⟨hAction, hOpcode⟩
    rcases s.cpu.executeNext_traffic s.lines s.bus with
      ⟨behind, hTraffic⟩
    rw [hAction, ← hOpcode]
    exact congrArg BusAccess.fetched? hTraffic

/- A level is only served while no edge is pending. -/
theorem takeNmi_of_quiet
    {lines : InterruptLines}
    (hQuiet : lines.nmiPending = false) :
    lines.takeNmi.2 = lines := by
  unfold InterruptLines.takeNmi
  rw [← hQuiet]

/- To serve an interrupt is to perform its sequence. -/
theorem sequence_of_serves
    {action : Cpu.Action}
    {vector : UInt16}
    (hVector : action.vector? = some vector)
    (hShown : s.shown = some action) :
    ∃ low high, s.Sequence vector low high := by
  have hAction : s.cpu.nextAction s.lines = action := by
    rw [shown_eq] at hShown
    exact Option.some.inj hShown
  have hTraffic :
      s.traffic =
        (s.cpu.perform s.lines action
          ({ bus := s.bus } : Recorded β)).2.accesses := by
    unfold traffic
    rw [Cpu.step_eq_perform, hAction]
  have hOutcome :
      s.outcome = (s.cpu.perform s.lines action s.bus).1 := by
    unfold outcome
    rw [Cpu.step_eq_perform, hAction]
  cases action with
  | execute => cases hVector
  | serveNmi =>
      cases hVector
      rcases s.cpu.interrupt_traffic s.lines.takeNmi.2 s.bus
        Hardware.nmiVector with ⟨low, high, hSeen, hDone⟩
      exact ⟨low, high, hTraffic.trans hSeen,
        hOutcome.trans (congrArg Except.ok hDone)⟩
  | serveIrq =>
      cases hVector
      have hQuiet :=
        ((Cpu.nextAction_eq_serveIrq _ _).mp hAction).1
      rcases s.cpu.interrupt_traffic s.lines s.bus
        Hardware.irqVector with ⟨low, high, hSeen, hDone⟩
      refine ⟨low, high, hTraffic.trans hSeen, ?_⟩
      rw [takeNmi_of_quiet hQuiet]
      exact hOutcome.trans (congrArg Except.ok hDone)

/- A step that fails has not served an interrupt. -/
theorem nextAction_of_error
    {fault : MachineFault}
    (hFails : s.outcome = .error fault) :
    s.cpu.nextAction s.lines = .execute := by
  by_contra hServes
  unfold outcome at hFails
  rw [Cpu.step_eq_perform] at hFails
  exact Cpu.perform_ne_error hServes (Prod.ext hFails rfl)

theorem next_of_ok
    {done : Cpu.Step}
    (hDone : s.outcome = .ok done) :
    s.next.cpu = done.cpu ∧ s.next.lines = done.lines := by
  unfold next outcome at *
  generalize s.cpu.step s.lines s.bus = stepped at hDone
  rcases stepped with ⟨result, bus⟩
  cases hDone
  exact ⟨rfl, rfl⟩

theorem next_of_error
    {fault : MachineFault}
    (hFails : s.outcome = .error fault) :
    s.next.cpu = s.cpu ∧ s.next.lines = s.lines := by
  unfold next outcome at *
  generalize s.cpu.step s.lines s.bus = stepped at hFails
  rcases stepped with ⟨result, bus⟩
  cases hFails
  exact ⟨rfl, rfl⟩

/- A step takes the edge and leaves the level alone. -/
theorem lines_next : s.next.lines = s.lines.takeNmi.2 := by
  cases hOutcome : s.outcome with
  | ok done =>
      rw [(next_of_ok hOutcome).2]
      exact ((Cpu.step_within _ _).result s.bus done
        hOutcome).lines
  | error fault =>
      have hQuiet := Cpu.nextAction_eq_execute_iff.mp
        (nextAction_of_error hOutcome)
      rw [(next_of_error hOutcome).2,
        takeNmi_of_quiet hQuiet.1]

/- The decoding table never changes. -/
theorem table_handle (event : Event) :
    (s.handle event).cpu.table = s.cpu.table := by
  cases event with
  | raiseNmi | setIrq _ => rfl
  | step =>
      show s.next.cpu.table = s.cpu.table
      cases hOutcome : s.outcome with
      | ok done =>
          rcases Cpu.cpu_of_step hOutcome with
            ⟨registers, hCpu⟩
          rw [(next_of_ok hOutcome).1, hCpu]
      | error fault => rw [(next_of_error hOutcome).1]

theorem table_run (events : List Event) :
    (s.run events).cpu.table = s.cpu.table := by
  induction events generalizing s with
  | nil => rfl
  | cons event events ih =>
      rw [run_cons, ih, table_handle]

end Session

end Famicom
