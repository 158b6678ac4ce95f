import Famicom.Video.Access
import Famicom.Video.Tick
import Mathlib

/-
  What can happen to the picture unit from outside, and runs
  of such events in any order.

  Key definitions include:
    * `Ppu.Event`
    * `Ppu.handle`
    * `Ppu.after`
    * `Ppu.Event.isQuiet`
    * `Ppu.PastDot`
    * `Ppu.TracedBack`

  Main declarations:
    * `Ppu.after_invariant`
    * `Ppu.after_induction`
    * `Ppu.TracedBack.exists_pastDot`
-/

namespace Famicom

namespace Ppu

------------------------------------------------------------
-- Events
------------------------------------------------------------

/-
  One thing that happens to the unit: a dot passes, the
  processor or a transfer accesses it, one of its two signals
  is accepted, or it is reset.
-/
inductive Event where
  | dot
  | read (address : UInt16)
  | write (address : UInt16) (value : UInt8)
  | writeOam (value : UInt8)
  | acceptNmi
  | acceptFrame
  | reset
deriving DecidableEq

/- The unit after one event. -/
def handle (ppu : Ppu) : Event → Ppu
  | .dot => ppu.tick.2
  | .read address => (ppu.read address).2
  | .write address value => ppu.write address value
  | .writeOam value => ppu.writeOam value
  | .acceptNmi => ppu.acceptNmi
  | .acceptFrame => ppu.acceptFrame
  | .reset => ppu.reset

/- The unit after a number of events. -/
def after
    (ppu : Ppu)
    (events : List Event) : Ppu :=
  events.foldl handle ppu

theorem after_cons
    (ppu : Ppu)
    (event : Event)
    (events : List Event) :
    ppu.after (event :: events) =
      (ppu.handle event).after events :=
  List.foldl_cons

theorem after_append
    (ppu : Ppu)
    (first second : List Event) :
    ppu.after (first ++ second) =
      (ppu.after first).after second :=
  List.foldl_append

/- What all events keep holds after every run. -/
theorem after_invariant
    {motive : Ppu → Prop}
    {start : Ppu}
    (hHandle : ∀ ppu event,
      motive ppu → motive (ppu.handle event))
    (hStart : motive start)
    (events : List Event) :
    motive (start.after events) :=
  List.foldlRecOn events handle hStart
    fun ppu hHere event _ => hHandle ppu event hHere

/- The unit after a number of dots and nothing else. -/
def afterDots
    (ppu : Ppu)
    (dots : Nat) : Ppu :=
  ppu.after (List.replicate dots .dot)

theorem afterDots_add
    (ppu : Ppu)
    (first second : Nat) :
    ppu.afterDots (first + second) =
      (ppu.afterDots first).afterDots second := by
  unfold afterDots
  rw [List.replicate_add, after_append]

------------------------------------------------------------
-- Quiet Runs
------------------------------------------------------------

/-
  Whether an event leaves the registers to the unit itself:
  no access, no transfer and no reset.
-/
def Event.isQuiet : Event → Bool
  | dot | acceptNmi | acceptFrame => true
  | _ => false

/- Runs that consist of quiet events. -/
def AllQuiet (events : List Event) : Prop :=
  ∀ event ∈ events, event.isQuiet = true

theorem allQuiet_dots (dots : Nat) :
    AllQuiet (List.replicate dots .dot) := by
  intro event hEvent
  rw [List.eq_of_mem_replicate hEvent]
  rfl

/-
  What holds at the start, and what dots and accepted signals
  keep, holds after every quiet run.
-/
theorem after_induction
    {motive : Ppu → Prop}
    {start : Ppu}
    {events : List Event}
    (hQuiet : AllQuiet events)
    (hStart : motive start)
    (hDot : ∀ ppu, motive ppu → motive ppu.tick.2)
    (hNmi : ∀ ppu, motive ppu → motive ppu.acceptNmi)
    (hFrame : ∀ ppu, motive ppu → motive ppu.acceptFrame) :
    motive (start.after events) := by
  induction events generalizing start with
  | nil => exact hStart
  | cons event events ih =>
      have hHead : event.isQuiet = true :=
        hQuiet event List.mem_cons_self
      have hTail : AllQuiet events := fun e hMember =>
        hQuiet e (List.mem_cons_of_mem event hMember)
      apply ih hTail
      cases event with
      | dot => exact hDot start hStart
      | acceptNmi => exact hNmi start hStart
      | acceptFrame => exact hFrame start hStart
      | read _ => simp [Event.isQuiet] at hHead
      | write _ _ => simp [Event.isQuiet] at hHead
      | writeOam _ => simp [Event.isQuiet] at hHead
      | reset => simp [Event.isQuiet] at hHead

------------------------------------------------------------
-- Dots in the Past
------------------------------------------------------------

/-
  A state of a run in which a dot has passed, without a reset
  since.
-/
def PastDot
    (start : Ppu)
    (events : List Event)
    (past : Ppu) : Prop :=
  ∃ before later,
    events = before ++ .dot :: later ∧
      .reset ∉ later ∧
      past = start.after before

namespace PastDot

variable {start past : Ppu}
variable {events : List Event}

theorem here :
    PastDot start (events ++ [.dot]) (start.after events) :=
  ⟨events, [], rfl, List.not_mem_nil, rfl⟩

theorem later
    {event : Event}
    (hPast : PastDot start events past)
    (hEvent : event ≠ .reset) :
    PastDot start (events ++ [event]) past := by
  rcases hPast with ⟨before, later, hEvents, hLater, hState⟩
  refine ⟨before, later ++ [event], ?_, ?_, hState⟩
  · simp [hEvents]
  · simp [hLater, hEvent.symm]

end PastDot

/-
  Whenever a state has a property, a dot is the cause or the
  state before had it, of which every cause remains one.
-/
structure TracedBack
    (invariant property : Ppu → Prop)
    (cause : Ppu → Ppu → Prop) : Prop where
  reset : ∀ ppu : Ppu, ¬property ppu.reset
  dot : ∀ ppu : Ppu, invariant ppu → property ppu.tick.2 →
    cause ppu ppu.tick.2 ∨
      (property ppu ∧
        ∀ past, cause past ppu → cause past ppu.tick.2)
  access : ∀ (ppu : Ppu) event, event ≠ .dot → event ≠ .reset →
    property (ppu.handle event) →
    property ppu ∧
      ∀ past, cause past ppu → cause past (ppu.handle event)

/- Such a property is the effect of a dot of the run. -/
theorem TracedBack.exists_pastDot
    {invariant property : Ppu → Prop}
    {cause : Ppu → Ppu → Prop}
    (hTraced : TracedBack invariant property cause)
    {start : Ppu}
    (hInvariant : ∀ events, invariant (start.after events))
    (hStart : ¬property start)
    {events : List Event}
    (hProperty : property (start.after events)) :
    ∃ past,
      PastDot start events past ∧
        cause past (start.after events) := by
  -- the cause is looked for from the end of the run
  induction events using List.reverseRecOn with
  | nil => exact absurd hProperty hStart
  | append_singleton events event ih =>
      have hLast :
          start.after (events ++ [event]) =
            (start.after events).handle event :=
        after_append _ _ _
      rw [hLast] at hProperty ⊢
      by_cases hReset : event = .reset
      · rw [hReset] at hProperty
        exact absurd hProperty (hTraced.reset _)
      by_cases hDot : event = .dot
      · rw [hDot] at hProperty ⊢
        rcases hTraced.dot _ (hInvariant events) hProperty with
          hCause | ⟨hBefore, hKept⟩
        · exact ⟨_, .here, hCause⟩
        · rcases ih hBefore with ⟨past, hPast, hCause⟩
          exact ⟨past, hPast.later nofun,
            hKept past hCause⟩
      · rcases hTraced.access _ event hDot hReset hProperty with
          ⟨hBefore, hKept⟩
        rcases ih hBefore with ⟨past, hPast, hCause⟩
        exact ⟨past, hPast.later hReset, hKept past hCause⟩

end Ppu

end Famicom
