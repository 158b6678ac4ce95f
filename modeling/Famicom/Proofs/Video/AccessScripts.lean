import Famicom.Proofs.Video.Dot
import Famicom.Proofs.Video.RegisterAccess

/-
  Scripts of register accesses, and the runs that perform
  them.

  A run performs a script if its accesses are those of the
  script in order.  They may go to any addresses of their
  registers, and dots may pass and signals may be accepted
  between them.

  Key definitions include:
    * `RegisterAccess`
    * `Ppu.Event.access?`
    * `Ppu.Performs`

  Main declarations:
    * `Ppu.Performs.exists_of_cons`
    * `Ppu.Performs.exists_of_append`
    * `Ppu.Performs.allQuiet`
-/

namespace Famicom

------------------------------------------------------------
-- Accesses
------------------------------------------------------------

/- An access to the picture unit by its register. -/
inductive RegisterAccess where
  | read (register : PpuRegister)
  | write (register : PpuRegister) (value : UInt8)
deriving DecidableEq

namespace Ppu

namespace Event

/- The access that an event is, if it is one. -/
def access? : Event → Option RegisterAccess
  | .read address => some (.read (.ofAddress address))
  | .write address value =>
      some (.write (.ofAddress address) value)
  | _ => none

theorem eq_read_of_access?
    {event : Event}
    {register : PpuRegister}
    (hAccess : event.access? = some (.read register)) :
    ∃ address,
      event = .read address ∧
        PpuRegister.ofAddress address = register := by
  cases event with
  | read address =>
      cases hAccess
      exact ⟨address, rfl, rfl⟩
  | _ => cases hAccess

theorem eq_write_of_access?
    {event : Event}
    {register : PpuRegister}
    {value : UInt8}
    (hAccess : event.access? = some (.write register value)) :
    ∃ address,
      event = .write address value ∧
        PpuRegister.ofAddress address = register := by
  cases event with
  | write address written =>
      cases hAccess
      exact ⟨address, rfl, rfl⟩
  | _ => cases hAccess

end Event

------------------------------------------------------------
-- Scripts
------------------------------------------------------------

/-
  The accesses of a run are those of a script, and all else
  that happens is quiet.
-/
structure Performs
    (script : List RegisterAccess)
    (events : List Event) : Prop where
  accesses : events.filterMap Event.access? = script
  others : ∀ event ∈ events,
    event.access? = none → event.isQuiet = true

namespace Performs

variable {script : List RegisterAccess}
variable {events : List Event}

/- An empty script leaves quiet. -/
theorem allQuiet
    (hPerforms : Performs [] events) : AllQuiet events := by
  intro event hMember
  exact hPerforms.others event hMember
    (List.filterMap_eq_nil_iff.mp hPerforms.accesses event
      hMember)

/- Nothing but quiet precedes the first access. -/
theorem exists_of_cons
    {access : RegisterAccess}
    (hPerforms : Performs (access :: script) events) :
    ∃ gap event later,
      events = gap ++ event :: later ∧
        AllQuiet gap ∧
        event.access? = some access ∧
        Performs script later := by
  rcases List.filterMap_eq_cons_iff.mp hPerforms.accesses with
    ⟨gap, event, later, rfl, hGap, hAccess, hLater⟩
  refine ⟨gap, event, later, rfl, ?_, hAccess, hLater, ?_⟩
  · intro quiet hMember
    exact hPerforms.others quiet
      (List.mem_append_left _ hMember) (hGap quiet hMember)
  · intro other hMember
    exact hPerforms.others other
      (List.mem_append_right _
        (List.mem_cons_of_mem _ hMember))

/- The parts of a script are performed one after another. -/
theorem exists_of_append
    {first second : List RegisterAccess}
    (hPerforms : Performs (first ++ second) events) :
    ∃ before later,
      events = before ++ later ∧
        Performs first before ∧ Performs second later := by
  rcases List.filterMap_eq_append_iff.mp
      hPerforms.accesses with
    ⟨before, later, rfl, hFirst, hSecond⟩
  refine ⟨before, later, rfl, ⟨hFirst, ?_⟩, ⟨hSecond, ?_⟩⟩
  · intro event hMember
    exact hPerforms.others event
      (List.mem_append_left _ hMember)
  · intro event hMember
    exact hPerforms.others event
      (List.mem_append_right _ hMember)

end Performs

end Ppu

end Famicom
