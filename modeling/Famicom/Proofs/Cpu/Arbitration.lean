import Famicom.Proofs.Cpu.Session

/-
  Which interrupts are served, and when.

  The lines are ruled by the schedule of the host alone, and
  they and the interrupt disable flag rule which action a
  step takes.  So every edge is served once, and a level is
  not served twice without an instruction that allows it.

  Key definitions include:
    * `Session.Event.edgeAfter`
    * `Session.Event.levelAfter`
    * `Session.Event.fresh`
    * `Session.nmiSequences`
    * `Session.Enters`
    * `Session.Allows`

  Main declarations:
    * `Session.lines_run`
    * `Session.nmiSequences_balance`
    * `Session.interruptDisable_next_of_enters`
    * `Session.exists_allows`
    * `Session.interrupt_arbitration`
-/

namespace Famicom

namespace Session

------------------------------------------------------------
-- Schedules
------------------------------------------------------------

namespace Event

/- Whether an edge is pending after an event. -/
def edgeAfter
    (pending : Bool) : Event → Bool
  | raiseNmi => true
  | setIrq _ => pending
  | step => false

/- Whether the level is asserted after an event. -/
def levelAfter
    (asserted : Bool) : Event → Bool
  | setIrq asserted' => asserted'
  | raiseNmi | step => asserted

/- The number of raises that find no edge pending. -/
def fresh (pending : Bool) : List Event → Nat
  | [] => 0
  | event :: events =>
      (decide (event = raiseNmi) && !pending).toNat +
        fresh (event.edgeAfter pending) events

end Event

variable {β : Type} [AddressBus β]

/- The number of edges that are served in the course of events. -/
def nmiSequences (s : Session β) : List Event → Nat
  | [] => 0
  | event :: events =>
      (decide (event = .step ∧
        s.shown = some .serveNmi)).toNat +
        (s.handle event).nmiSequences events

variable {s : Session β}

------------------------------------------------------------
-- Lines
------------------------------------------------------------

theorem lines_handle (event : Event) :
    (s.handle event).lines =
      ⟨event.edgeAfter s.lines.nmiPending,
        event.levelAfter s.lines.irqAsserted⟩ := by
  cases event with
  | raiseNmi | setIrq _ => rfl
  | step => exact lines_next

/- The lines are as the schedule has left them. -/
theorem lines_run (events : List Event) :
    (s.run events).lines =
      ⟨events.foldl Event.edgeAfter s.lines.nmiPending,
        events.foldl Event.levelAfter s.lines.irqAsserted⟩ := by
  induction events generalizing s with
  | nil => rfl
  | cons event events ih =>
      rw [run_cons, ih, lines_handle]
      rfl

theorem shown_eq_serveNmi :
    s.shown = some .serveNmi ↔ s.lines.nmiPending = true := by
  rw [shown_eq, Option.some_inj]
  exact Cpu.nextAction_eq_serveNmi _ _

theorem shown_eq_serveIrq :
    s.shown = some .serveIrq ↔
      s.lines.nmiPending = false ∧
        s.lines.irqAsserted = true ∧
        s.cpu.registers.status.interruptDisable = false := by
  rw [shown_eq, Option.some_inj]
  exact Cpu.nextAction_eq_serveIrq _ _

/- Until the next step, an edge stays pending. -/
theorem foldl_edgeAfter_of_quiet
    {calls : List Event}
    (hCalls : Event.step ∉ calls)
    (pending : Bool) :
    calls.foldl Event.edgeAfter pending = true ↔
      pending = true ∨ Event.raiseNmi ∈ calls := by
  induction calls generalizing pending with
  | nil => simp
  | cons call calls ih =>
      rw [List.mem_cons, not_or] at hCalls
      rw [List.foldl_cons, ih hCalls.2, List.mem_cons]
      cases call with
      | raiseNmi => simp [Event.edgeAfter]
      | setIrq _ => simp [Event.edgeAfter]
      | step => exact absurd rfl hCalls.1

/-
  What one event adds to the served edges is what it adds to
  the raised ones, less what is still pending.
-/
theorem nmiSequences_balance (events : List Event) :
    s.nmiSequences events +
        (s.run events).lines.nmiPending.toNat =
      Event.fresh s.lines.nmiPending events +
        s.lines.nmiPending.toNat := by
  induction events generalizing s with
  | nil => rfl
  | cons event events ih =>
      have hRest := ih (s := s.handle event)
      have hServes :
          decide (s.shown = some .serveNmi) =
            s.lines.nmiPending := by
        rw [Bool.eq_iff_iff, decide_eq_true_iff]
        exact shown_eq_serveNmi
      rw [lines_handle] at hRest
      unfold nmiSequences Event.fresh
      rw [run_cons, Nat.add_assoc, hRest, Bool.decide_and,
        hServes]
      -- The pending edge is the only one that can be served.
      cases event with
      | raiseNmi =>
          cases s.lines.nmiPending <;>
            simp [Event.edgeAfter, Nat.add_comm]
      | setIrq _ => simp [Event.edgeAfter]
      | step =>
          cases s.lines.nmiPending <;>
            simp [Event.edgeAfter, Nat.add_comm]

------------------------------------------------------------
-- The Disable Flag
------------------------------------------------------------

/- The next step is an interrupt sequence or executes BRK. -/
def Enters (s : Session β) : Prop :=
  s.shown = some .serveNmi ∨ s.shown = some .serveIrq ∨
    s.fetched? = some 0x00

/-
  The next step executes CLI, PLP or RTI, and this clears the
  interrupt disable flag.
-/
structure Allows (s : Session β) : Prop where
  opcode :
    s.fetched? = some 0x58 ∨ s.fetched? = some 0x28 ∨
      s.fetched? = some 0x40
  disabled :
    s.cpu.registers.status.interruptDisable = true
  enabled :
    s.next.cpu.registers.status.interruptDisable = false

variable {fidelity : Fidelity}

/- Whatever enters an interrupt disables the level. -/
theorem interruptDisable_next_of_enters
    (hTable :
      OpcodeTable.atFidelity fidelity = .ok s.cpu.table)
    (hEnters : s.Enters) :
    s.next.cpu.registers.status.interruptDisable = true := by
  have hServes
      {action : Cpu.Action}
      {vector : UInt16}
      (hVector : action.vector? = some vector)
      (hShown : s.shown = some action) :
      s.next.cpu.registers.status.interruptDisable =
        true := by
    rcases sequence_of_serves hVector hShown with
      ⟨low, high, hSequence⟩
    rw [(next_of_ok hSequence.outcome).1]
    rfl
  rcases hEnters with hNmi | hIrq | hBrk
  · exact hServes rfl hNmi
  · exact hServes rfl hIrq
  · have hEntry := OpcodeTable.lookup_of_documented hTable
      (i := ⟨0x00, "BRK", .softwareInterrupt, .implied, 7,
        true⟩) (by decide +kernel)
    have hStep :=
      Cpu.step_of_fetches (fetched?_eq_some_iff.mp hBrk)
    rw [hEntry] at hStep
    have hOutcome := congrArg Prod.fst hStep
    rw [(next_of_ok hOutcome).1]
    rfl

/- A step that clears the flag executes one of three opcodes. -/
theorem allows_of_next
    (hTable :
      OpcodeTable.atFidelity fidelity = .ok s.cpu.table)
    (hDisabled :
      s.cpu.registers.status.interruptDisable = true)
    (hEnabled :
      s.next.cpu.registers.status.interruptDisable = false) :
    s.Allows := by
  refine ⟨?_, hDisabled, hEnabled⟩
  cases hOutcome : s.outcome with
  | error fault =>
      rw [(next_of_error hOutcome).1, hDisabled] at hEnabled
      cases hEnabled
  | ok done =>
      rw [(next_of_ok hOutcome).1] at hEnabled
      have hSuccessor := Cpu.step_successor hOutcome
      have hMay :
          ∃ opcode, s.fetched? = some opcode ∧
            (s.cpu.table.lookup opcode).operation.mayAllow =
              true := by
        by_contra hNone
        have hNot : (decide (s.cpu.nextAction s.lines =
              .execute) &&
            (s.cpu.table.lookup
              (AddressBus.read s.cpu.registers.pc s.bus).1
              ).operation.mayAllow) = false := by
          by_contra hSome
          rw [Bool.not_eq_false, Bool.and_eq_true,
            decide_eq_true_iff] at hSome
          exact hNone ⟨_,
            fetched?_eq_some_iff.mpr ⟨hSome.1, rfl⟩, hSome.2⟩
        have hStill :=
          hSuccessor.interruptDisable hDisabled hNot
        rw [hStill] at hEnabled
        cases hEnabled
      rcases hMay with ⟨opcode, hFetched, hMay⟩
      rw [OpcodeTable.mayAllow_lookup_iff hTable] at hMay
      rw [hFetched]
      simpa using hMay

/-
  Between two moments, the flag is only cleared by a step
  that allows the level.
-/
theorem exists_allows
    {events : List Event}
    (hTable :
      OpcodeTable.atFidelity fidelity = .ok s.cpu.table)
    (hDisabled :
      s.cpu.registers.status.interruptDisable = true)
    (hEnabled :
      (s.run events).cpu.registers.status.interruptDisable =
        false) :
    ∃ before after,
      events = before ++ .step :: after ∧
        (s.run before).Allows := by
  induction events generalizing s with
  | nil =>
      rw [run_nil, hDisabled] at hEnabled
      cases hEnabled
  | cons event events ih =>
      have hHere :
          OpcodeTable.atFidelity fidelity =
            .ok (s.handle event).cpu.table := by
        rw [table_handle]
        exact hTable
      cases hFlag : (s.handle event).cpu.registers.status
          |>.interruptDisable with
      | true =>
          rcases ih hHere hFlag hEnabled with
            ⟨before, after, hEvents, hAllows⟩
          refine ⟨event :: before, after, ?_, hAllows⟩
          rw [hEvents]
          rfl
      | false =>
          cases event with
          | raiseNmi | setIrq _ =>
              have hSame := hDisabled.symm.trans hFlag
              cases hSame
          | step =>
              exact ⟨[], events, rfl,
                allows_of_next hTable hDisabled hFlag⟩

------------------------------------------------------------
-- Arbitration
------------------------------------------------------------

/-
  At every moment of every session: the next step serves the
  edge exactly if one is pending, and the level exactly if no
  edge is, the level is asserted and interrupts are allowed.
  What it shows on the bus is the whole interrupt sequence.
  However often the edge is raised before the next step, that
  step serves it once, and each served edge is one that has
  been raised while none was pending.  The level stays as the
  host has set it last.  After an interrupt sequence or BRK
  the level is not served until CLI, PLP or RTI is executed
  and clears the interrupt disable flag.
-/
theorem interrupt_arbitration
    {fidelity : Fidelity}
    (start : Session β)
    (hTable :
      OpcodeTable.atFidelity fidelity = .ok start.cpu.table)
    (events : List Event) :
    let s := start.run events
    (s.shown = some .serveNmi ↔ s.lines.nmiPending = true) ∧
    (s.shown = some .serveIrq ↔
      s.lines.nmiPending = false ∧
        s.lines.irqAsserted = true ∧
        s.cpu.registers.status.interruptDisable = false) ∧
    (∀ action vector, action.vector? = some vector →
      s.shown = some action →
        ∃ low high, s.Sequence vector low high) ∧
    s.next.lines.nmiPending = false ∧
    s.next.lines.irqAsserted = s.lines.irqAsserted ∧
    (∀ calls, Event.step ∉ calls →
      ((s.run calls).shown = some .serveNmi ↔
        s.lines.nmiPending = true ∨
          Event.raiseNmi ∈ calls)) ∧
    start.nmiSequences events + s.lines.nmiPending.toNat =
      Event.fresh start.lines.nmiPending events +
        start.lines.nmiPending.toNat ∧
    s.lines.irqAsserted =
      events.foldl Event.levelAfter
        start.lines.irqAsserted ∧
    (s.Enters → ∀ later,
      (s.next.run later).shown = some .serveIrq →
        ∃ before after,
          later = before ++ .step :: after ∧
            (s.next.run before).Allows) := by
  intro s
  have hHere :
      OpcodeTable.atFidelity fidelity = .ok s.cpu.table := by
    rw [table_run]
    exact hTable
  have hNext :
      OpcodeTable.atFidelity fidelity =
        .ok s.next.cpu.table := by
    rw [show s.next.cpu.table = s.cpu.table from
      table_handle .step]
    exact hHere
  have hLines := lines_next (s := s)
  refine ⟨shown_eq_serveNmi, shown_eq_serveIrq,
    fun _ _ => sequence_of_serves, ?_, ?_, ?_,
    nmiSequences_balance events, ?_, ?_⟩
  · rw [hLines]
    rfl
  · rw [hLines]
    rfl
  · intro calls hCalls
    rw [shown_eq_serveNmi, lines_run]
    exact foldl_edgeAfter_of_quiet hCalls _
  · exact congrArg InterruptLines.irqAsserted
      (lines_run events)
  · intro hEnters later hIrq
    have hEnabled := (shown_eq_serveIrq.mp hIrq).2.2
    exact exists_allows hNext
      (interruptDisable_next_of_enters hHere hEnters) hEnabled

/-
  Two raises before a step are one sequence, and the level
  asserted meanwhile is not served behind it.
-/
theorem two_raises_are_one_sequence :
    ∃ start : Session Ram,
      let schedule : List Event :=
        [.raiseNmi, .setIrq true, .raiseNmi]
      OpcodeTable.atFidelity .strict = .ok start.cpu.table ∧
        start.nmiSequences (schedule ++ [.step, .step]) = 1 ∧
        (start.run schedule).next.shown ≠ some .serveIrq := by
  rcases OpcodeTable.atFidelity_isOk .strict with
    ⟨table, hTable⟩
  let start : Session Ram :=
    ⟨⟨table, .blank, true⟩, {}, .filled 0x0300 0x58⟩
  let schedule : List Event :=
    [.raiseNmi, .setIrq true, .raiseNmi]
  refine ⟨start, hTable, ?_, ?_⟩
  · have hBalance :=
      (interrupt_arbitration start hTable
        (schedule ++ [.step, .step])).2.2.2.2.2.2.1
    rw [lines_run] at hBalance
    exact hBalance
  · have hMoment :=
      interrupt_arbitration start hTable schedule
    have hNmi : (start.run schedule).shown = some .serveNmi :=
      hMoment.1.mpr rfl
    intro hIrq
    rcases hMoment.2.2.2.2.2.2.2.2 (.inl hNmi) [] hIrq with
      ⟨before, after, hEvents, -⟩
    simp at hEvents

end Session

end Famicom
