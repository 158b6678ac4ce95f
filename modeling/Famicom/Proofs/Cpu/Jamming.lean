import Famicom.Proofs.Cpu.Session

/-
  How long a jam lasts.

  A jam leaves no mark on the processor.  It lasts because
  the same opcode is fetched again, and it ends when an
  interrupt is served in place of that fetch.

  Key definitions include:
    * `Session.Jams`

  Main declarations:
    * `Session.outcome_eq_error_iff`
    * `Session.Jams.run`
    * `Session.jam_lasts_until_interrupt`
-/

namespace Famicom

namespace Session

variable {β : Type} [AddressBus β]
variable {s : Session β}
variable {fidelity : Fidelity}
variable {opcode : UInt8}

------------------------------------------------------------
-- Failing Steps
------------------------------------------------------------

/- The next step fails exactly if the processor refuses. -/
theorem outcome_eq_error_iff
    (hTable :
      OpcodeTable.atFidelity fidelity = .ok s.cpu.table)
    {fault : MachineFault} :
    s.outcome = .error fault ↔
      s.cpu.Refuses s.lines s.bus fault := by
  constructor
  · intro hFails
    have hStep :
        s.cpu.step s.lines s.bus =
          (.error fault, (s.cpu.step s.lines s.bus).2) :=
      Prod.ext hFails rfl
    exact ((Cpu.step_eq_error_iff hTable).mp hStep).1
  · intro hRefuses
    exact congrArg Prod.fst
      ((Cpu.step_eq_error_iff hTable).mpr ⟨hRefuses, rfl⟩)

/- All that it does is to fetch. -/
theorem next_eq_of_error
    (hTable :
      OpcodeTable.atFidelity fidelity = .ok s.cpu.table)
    {fault : MachineFault}
    (hFails : s.outcome = .error fault) :
    s.next =
      { s with
        bus :=
          (AddressBus.read s.cpu.registers.pc s.bus).2 } := by
  have hRefuses := (outcome_eq_error_iff hTable).mp hFails
  have hStep :=
    (Cpu.step_eq_error_iff hTable).mpr ⟨hRefuses, rfl⟩
  unfold next
  rw [hStep]

------------------------------------------------------------
-- Jams
------------------------------------------------------------

/-
  The next step jams, at a place where fetching has no effect
  on the bus.
-/
structure Jams
    (s : Session β)
    (opcode : UInt8) : Prop where
  outcome :
    s.outcome = .error (.jammed opcode s.cpu.registers.pc)
  fetch :
    (AddressBus.read s.cpu.registers.pc s.bus).2 = s.bus

namespace Jams

/- A jam does not depend on lines that ask for nothing. -/
theorem setIrq
    (hTable :
      OpcodeTable.atFidelity fidelity = .ok s.cpu.table)
    (hJams : s.Jams opcode)
    {asserted : Bool}
    (hDenied :
      s.cpu.registers.status.interruptDisable = true ∨
        asserted = false) :
    (s.handle (.setIrq asserted)).Jams opcode := by
  have hRefuses :=
    (outcome_eq_error_iff hTable).mp hJams.outcome
  refine ⟨?_, hJams.fetch⟩
  apply (outcome_eq_error_iff
    (s := s.handle (.setIrq asserted)) hTable).mpr
  refine ⟨hRefuses.edge, ?_, hRefuses.entry⟩
  rintro ⟨hAsserted, hAllowed⟩
  rcases hDenied with hDisabled | hSilent
  · rw [show s.cpu.registers.status.interruptDisable =
      false from hAllowed] at hDisabled
    cases hDisabled
  · cases hSilent
    cases hAsserted

/- A step that jams changes nothing. -/
theorem next_eq
    (hTable :
      OpcodeTable.atFidelity fidelity = .ok s.cpu.table)
    (hJams : s.Jams opcode) :
    s.next = s := by
  rw [next_eq_of_error hTable hJams.outcome, hJams.fetch]

/- Nor does a run in which no interrupt can be served. -/
theorem run
    (hTable :
      OpcodeTable.atFidelity fidelity = .ok s.cpu.table)
    (hJams : s.Jams opcode)
    {events : List Event}
    (hEdge : Event.raiseNmi ∉ events)
    (hLevel :
      s.cpu.registers.status.interruptDisable = true ∨
        Event.setIrq true ∉ events) :
    (s.run events).Jams opcode ∧
      (s.run events).cpu = s.cpu ∧
      (s.run events).bus = s.bus := by
  induction events generalizing s with
  | nil => exact ⟨hJams, rfl, rfl⟩
  | cons event events ih =>
      rw [List.mem_cons, not_or] at hEdge
      have hRest := hLevel.imp_right fun hNone =>
        (not_or.mp (List.mem_cons.not.mp hNone)).2
      cases event with
      | raiseNmi => exact absurd rfl hEdge.1
      | setIrq asserted =>
          have hDenied :
              s.cpu.registers.status.interruptDisable =
                  true ∨ asserted = false := by
            refine hLevel.imp_right fun hNone => ?_
            cases asserted with
            | false => rfl
            | true => exact absurd List.mem_cons_self hNone
          exact ih hTable (hJams.setIrq hTable hDenied)
            hEdge.2 hRest
      | step =>
          rw [run_cons, show s.handle .step = s from
            hJams.next_eq hTable]
          exact ih hTable hJams hEdge.2 hRest

/- The edge is served in place of the fetch. -/
theorem sequence_of_raiseNmi (s : Session β) :
    ∃ low high,
      (s.handle .raiseNmi).Sequence
        Hardware.nmiVector low high := by
  have hAction :
      (s.handle .raiseNmi).shown = some .serveNmi := by
    rw [shown_eq]
    exact congrArg some
      ((Cpu.nextAction_eq_serveNmi _ _).mpr rfl)
  exact sequence_of_serves rfl hAction

/- So is the level, if it is allowed. -/
theorem sequence_of_setIrq
    (hTable :
      OpcodeTable.atFidelity fidelity = .ok s.cpu.table)
    (hJams : s.Jams opcode)
    (hAllowed :
      s.cpu.registers.status.interruptDisable = false) :
    ∃ low high,
      (s.handle (.setIrq true)).Sequence
        Hardware.irqVector low high := by
  have hRefuses :=
    (outcome_eq_error_iff hTable).mp hJams.outcome
  have hAction :
      (s.handle (.setIrq true)).shown = some .serveIrq := by
    rw [shown_eq]
    exact congrArg some
      ((Cpu.nextAction_eq_serveIrq _ _).mpr
        ⟨hRefuses.edge, rfl, hAllowed⟩)
  exact sequence_of_serves rfl hAction

end Jams

------------------------------------------------------------
-- Jams and Interrupts
------------------------------------------------------------

/-
  However often a jammed processor is stepped, and however
  the level is set meanwhile, it fails in the same way and
  keeps its registers, as long as no edge is raised and the
  level is either disabled or not asserted.  At any time an
  edge gets it out of the jam, and so does the level if it is
  allowed: the next step is the interrupt sequence.
-/
theorem jam_lasts_until_interrupt
    {fidelity : Fidelity}
    {opcode : UInt8}
    (s : Session β)
    (hTable :
      OpcodeTable.atFidelity fidelity = .ok s.cpu.table)
    (hJams : s.Jams opcode)
    (events : List Event)
    (hEdge : Event.raiseNmi ∉ events)
    (hLevel :
      s.cpu.registers.status.interruptDisable = true ∨
        Event.setIrq true ∉ events) :
    let t := s.run events
    t.outcome =
        .error (.jammed opcode s.cpu.registers.pc) ∧
      t.cpu = s.cpu ∧
      t.bus = s.bus ∧
      (∃ low high,
        (t.handle .raiseNmi).Sequence
          Hardware.nmiVector low high) ∧
      (s.cpu.registers.status.interruptDisable = false →
        ∃ low high,
          (t.handle (.setIrq true)).Sequence
            Hardware.irqVector low high) := by
  intro t
  rcases hJams.run hTable hEdge hLevel with
    ⟨hStill, hCpu, hBus⟩
  have hHere :
      OpcodeTable.atFidelity fidelity = .ok t.cpu.table := by
    rw [hCpu]
    exact hTable
  refine ⟨?_, hCpu, hBus, Jams.sequence_of_raiseNmi t, ?_⟩
  · rw [← hCpu]
    exact hStill.outcome
  · intro hAllowed
    rw [← hCpu] at hAllowed
    exact hStill.sequence_of_setIrq hHere hAllowed

theorem onMemory_jams
    {fidelity : Fidelity}
    {table : OpcodeTable}
    (hTable : OpcodeTable.atFidelity fidelity = .ok table)
    {memory : Ram}
    (hFetch : memory.read 0x8000 = 0x02) :
    (onMemory table memory).Jams 0x02 := by
  have hListed :
      (⟨0x02, "JAM", .jam, .implied, 2, false⟩ :
        Instruction) ∈ Opcodes.atFidelity fidelity := by
    cases fidelity <;> decide +kernel
  have hEntry : table.lookup 0x02 = _ :=
    OpcodeTable.lookup_eq_of_mem hTable hListed
  let s := onMemory table memory
  have hFetches : s.cpu.Fetches s.lines s.bus 0x02 :=
    ⟨rfl, hFetch⟩
  have hStep := Cpu.step_of_fetches hFetches
  rw [show s.cpu.table = table from rfl, hEntry] at hStep
  exact ⟨congrArg Prod.fst hStep, rfl⟩

/- A processor in memory that is full of an opcode that jams. -/
def amongJams (table : OpcodeTable) : Session Ram :=
  onMemory table (.filled 0x10000 0x02)

theorem amongJams_jams
    {fidelity : Fidelity}
    {table : OpcodeTable}
    (hTable : OpcodeTable.atFidelity fidelity = .ok table) :
    (amongJams table).Jams 0x02 :=
  onMemory_jams hTable (Ram.read_filled (by decide) _ _)

/- It fails at every step, until an edge is raised. -/
theorem amongJams_fails_until_edge :
    ∃ table,
      let s := amongJams table
      let fault := MachineFault.jammed 0x02 0x8000
      OpcodeTable.atFidelity .strict = .ok table ∧
        s.Jams 0x02 ∧
        (s.run [.step, .setIrq true, .step]).outcome =
          .error fault ∧
        ∃ low high,
          (s.run [.step, .raiseNmi]).Sequence
            Hardware.nmiVector low high := by
  rcases OpcodeTable.atFidelity_isOk .strict with
    ⟨table, hTable⟩
  have hJams := amongJams_jams hTable
  have hLater := jam_lasts_until_interrupt (amongJams table)
    hTable hJams [.step, .setIrq true, .step] (by decide)
    (.inl rfl)
  have hEdge := jam_lasts_until_interrupt (amongJams table)
    hTable hJams [.step] (by decide) (.inl rfl)
  exact ⟨table, hTable, hJams, hLater.1, hEdge.2.2.2.1⟩

/-
  So a jam does not last until the next reset: one edge
  between two steps is enough to end it.
-/
theorem jam_ends_without_reset :
    ¬ ∀ (fidelity : Fidelity) (s : Session Ram)
        (opcode : UInt8) (events : List Event),
      OpcodeTable.atFidelity fidelity = .ok s.cpu.table →
      s.outcome =
          .error (.jammed opcode s.cpu.registers.pc) →
        (s.run events).outcome =
            .error (.jammed opcode s.cpu.registers.pc) ∧
          (s.run events).cpu.registers = s.cpu.registers := by
  intro hLasts
  rcases OpcodeTable.atFidelity_isOk .strict with
    ⟨table, hTable⟩
  have hJams := amongJams_jams hTable
  have hStays := (hLasts .strict (amongJams table) 0x02
    [.step, .raiseNmi] hTable hJams.outcome).1
  rcases Jams.sequence_of_raiseNmi
    ((amongJams table).run [.step]) with
    ⟨low, high, hSequence⟩
  have hServed := hSequence.outcome
  cases hStays.symm.trans hServed

end Session

end Famicom
