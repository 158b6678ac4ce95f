import Famicom.Proofs.Controller.Channels
import Famicom.Proofs.Controller.Events
import Famicom.Proofs.Histories

/-
  What becomes of the states that a host sends.

  A pad polls at the falling edge of the strobe line and at
  every read while the line is high.  A poll takes over the
  newest of all messages that wait, and gives the channel up
  if nobody can send on it any more.  Nothing else takes a
  message out of a connected channel.

  Key definitions include:
    * `Controller.polls`
    * `Controller.link?`
    * `Controller.Event.relinked`
    * `Controller.consumed`
    * `Controller.accepted`
    * `Controller.Calm`

  Main declarations:
    * `Controller.handle_of_polls`
    * `Controller.handle_of_calm`
    * `Controller.conserved`
    * `Controller.run_hungUp`
    * `Controller.feed_delivers_newest`
-/

namespace Famicom

namespace Controller

variable {χ : Type} [Channel χ]

------------------------------------------------------------
-- Events
------------------------------------------------------------

/- Whether a pad polls at an event. -/
def polls
    (pad : Controller χ) : Event χ → Bool
  | .strobe high => pad.strobeHigh && !high
  | .read => pad.strobeHigh
  | .host _ => false

/- The buttons that an event sets directly. -/
def Event.set? : Event χ → Option Buttons
  | .host (.setButtons buttons) => some buttons
  | _ => none

/- Whether an event puts another channel in place. -/
def Event.attaches : Event χ → Bool
  | .host (.attach _) => true
  | _ => false

/- What is known of a pad's channel, if it has one. -/
def link?
    (fifo : Channel.Fifo χ)
    (pad : Controller χ) : Option Link :=
  pad.feed.map fifo.link

/- The messages that wait for a pad. -/
def waiting
    (fifo : Channel.Fifo χ)
    (pad : Controller χ) : List Buttons :=
  match pad.link? fifo with
  | some link => link.waiting
  | none => []

/- What an event without a poll makes of a pad's channel. -/
def Event.relinked
    (fifo : Channel.Fifo χ)
    (link? : Option Link) : Event χ → Option Link
  | .host (.attach channel) => some (fifo.link channel)
  | .host (.send buttons) => link?.map (·.send buttons)
  | .host .hangUp => link?.map Link.hangUp
  | _ => link?

/- The message that an event puts into a pad's channel. -/
def Event.accepted
    (link? : Option Link) : Event χ → List Buttons
  | .host (.send buttons) =>
      if link?.any (·.connected) then [buttons] else []
  | _ => []

------------------------------------------------------------
-- Single Events
------------------------------------------------------------

variable (fifo : Channel.Fifo χ)
variable {pad : Controller χ} {event : Event χ}

theorem poll_eq :
    pad.poll.buttons =
        (pad.waiting fifo).getLast?.getD pad.buttons ∧
      pad.poll.link? fifo =
        (pad.link? fifo).bind Link.drained := by
  rcases pad with ⟨buttons, feed, line, register⟩
  cases feed with
  | none => exact ⟨rfl, rfl⟩
  | some channel => exact fifo.drain_eq channel buttons

/- A poll takes over the newest message and leaves none. -/
theorem handle_of_polls
    (hPolls : pad.polls event = true) :
    (pad.handle event).buttons =
        (pad.waiting fifo).getLast?.getD pad.buttons ∧
      (pad.handle event).link? fifo =
        (pad.link? fifo).bind Link.drained := by
  rw [← (poll_eq fifo).1, ← (poll_eq fifo).2]
  cases event with
  | strobe high =>
      have hFalls : (pad.strobeHigh && !high) = true := hPolls
      change (pad.strobe high).buttons = _ ∧
        (pad.strobe high).link? fifo = _
      unfold strobe latch
      rw [if_pos hFalls]
      exact ⟨rfl, rfl⟩
  | read =>
      have hHigh : pad.strobeHigh = true := hPolls
      change pad.readBit.2.buttons = _ ∧
        pad.readBit.2.link? fifo = _
      unfold readBit
      rw [if_pos hHigh]
      exact ⟨rfl, rfl⟩
  | host event => cases hPolls

/- Without a poll only the host changes anything. -/
theorem handle_of_calm
    (hCalm : pad.polls event = false) :
    (pad.handle event).buttons =
        event.set?.getD pad.buttons ∧
      (pad.handle event).link? fifo =
        event.relinked fifo (pad.link? fifo) := by
  cases event with
  | strobe high =>
      have hStays : ¬(pad.strobeHigh && !high) = true :=
        Bool.not_eq_true _ ▸ hCalm
      change (pad.strobe high).buttons = _ ∧
        (pad.strobe high).link? fifo = _
      unfold strobe
      rw [if_neg hStays]
      exact ⟨rfl, rfl⟩
  | read =>
      have hLow : ¬pad.strobeHigh = true :=
        Bool.not_eq_true _ ▸ hCalm
      change pad.readBit.2.buttons = _ ∧
        pad.readBit.2.link? fifo = _
      unfold readBit
      rw [if_neg hLow]
      exact ⟨rfl, rfl⟩
  | host event =>
      rcases pad with ⟨buttons, feed, line, register⟩
      cases event with
      | setButtons _ | attach _ => exact ⟨rfl, rfl⟩
      | hangUp =>
          refine ⟨rfl, ?_⟩
          cases feed with
          | none => rfl
          | some channel =>
              exact congrArg some (fifo.link_hangUp channel)
      | send message =>
          cases feed with
          | none => exact ⟨rfl, rfl⟩
          | some channel =>
              have hSent := fifo.link_perform channel
                (.send message)
              unfold Channel.perform at hSent
              dsimp only at hSent
              simp only [handle, handleHost, send?]
              split
              next hConnected =>
                  rw [if_pos hConnected] at hSent
                  exact ⟨rfl, congrArg some hSent⟩
              next hAlone =>
                  rw [if_neg hAlone] at hSent
                  exact ⟨rfl, congrArg some hSent⟩

------------------------------------------------------------
-- Runs
------------------------------------------------------------

/- The messages that a run's polls take, in order. -/
def consumed
    (fifo : Channel.Fifo χ)
    (pad : Controller χ) : List (Event χ) → List Buttons
  | [] => []
  | event :: later =>
      (if pad.polls event then pad.waiting fifo else []) ++
        consumed fifo (pad.handle event) later

/- The messages that a run puts into the channel, in order. -/
def accepted
    (fifo : Channel.Fifo χ)
    (pad : Controller χ) : List (Event χ) → List Buttons
  | [] => []
  | event :: later =>
      event.accepted (pad.link? fifo) ++
        accepted fifo (pad.handle event) later

/- No event of a run polls or puts another channel in place. -/
def Calm
    (pad : Controller χ) : List (Event χ) → Prop
  | [] => True
  | event :: later =>
      pad.polls event = false ∧ event.attaches = false ∧
        Calm (pad.handle event) later

variable {events : List (Event χ)}

theorem conserved_handle
    (hKept : event.attaches = false) :
    pad.waiting fifo ++ event.accepted (pad.link? fifo) =
      (if pad.polls event then pad.waiting fifo else []) ++
        (pad.handle event).waiting fifo := by
  cases hPolls : pad.polls event with
  | true =>
      have hLink := (handle_of_polls fifo hPolls).2
      have hNone : (pad.handle event).waiting fifo = [] := by
        unfold waiting
        rw [hLink]
        rcases pad.link? fifo with _ | ⟨_, _ | _⟩ <;> rfl
      have hSent : event.accepted (pad.link? fifo) = [] := by
        cases event with
        | strobe _ | read => rfl
        | host _ => cases hPolls
      rw [hNone, hSent, if_pos rfl]
  | false =>
      have hLink := (handle_of_calm fifo hPolls).2
      rw [if_neg Bool.false_ne_true, List.nil_append]
      unfold waiting
      rw [hLink]
      cases event with
      | strobe _ | read => exact List.append_nil _
      | host event =>
          cases event with
          | attach _ => cases hKept
          | setButtons _ => exact List.append_nil _
          | hangUp =>
              rcases pad.link? fifo with _ | ⟨_, _ | _⟩ <;>
                exact List.append_nil _
          | send message =>
              rcases pad.link? fifo with _ | ⟨_, _ | _⟩
              · rfl
              · exact List.append_nil _
              · rfl

/-
  As long as the channel stays in place, what is taken from it
  and what still waits is what has waited and what was sent,
  in the same order.
-/
theorem conserved
    (hKept : ∀ event ∈ events, event.attaches = false) :
    pad.waiting fifo ++ pad.accepted fifo events =
      pad.consumed fifo events ++
        (pad.run events).waiting fifo := by
  induction events generalizing pad with
  | nil => exact List.append_nil _
  | cons event events ih =>
      rw [List.forall_mem_cons] at hKept
      unfold accepted consumed
      rw [← List.append_assoc,
        conserved_handle fifo hKept.1, List.append_assoc,
        ih hKept.2, List.append_assoc]
      rfl

/- Without a sender or a poll nothing comes and nothing goes. -/
theorem run_hungUp
    {messages : List Buttons}
    (hLink : pad.link? fifo = some ⟨messages, false⟩)
    (hCalm : pad.Calm events) :
    (pad.run events).link? fifo =
      some ⟨messages, false⟩ := by
  induction events generalizing pad with
  | nil => exact hLink
  | cons event events ih =>
      rcases hCalm with ⟨hPolls, hKept, hLater⟩
      refine ih ?_ hLater
      rw [(handle_of_calm fifo hPolls).2, hLink]
      cases event with
      | strobe _ | read => rfl
      | host event =>
          cases event with
          | attach _ => cases hKept
          | setButtons _ | send _ | hangUp => rfl

/- Only a poll that takes messages changes unset buttons. -/
theorem handle_without_channel
    (hNone : pad.link? fifo = none)
    (hKept : event.attaches = false) :
    (pad.handle event).link? fifo = none ∧
      (pad.handle event).buttons =
        event.set?.getD pad.buttons := by
  cases hPolls : pad.polls event with
  | true =>
      rcases handle_of_polls fifo hPolls with
        ⟨hButtons, hLink⟩
      have hUnset : event.set? = none := by
        cases event with
        | strobe _ | read => rfl
        | host _ => cases hPolls
      unfold waiting at hButtons
      rw [hNone] at hButtons hLink
      rw [hUnset]
      exact ⟨hLink, hButtons⟩
  | false =>
      rcases handle_of_calm fifo hPolls with
        ⟨hButtons, hLink⟩
      refine ⟨?_, hButtons⟩
      rw [hLink, hNone]
      cases event with
      | strobe _ | read => rfl
      | host event =>
          cases event with
          | attach _ => cases hKept
          | setButtons _ | send _ | hangUp => rfl

/- A pad without a channel has the buttons that were set last. -/
theorem run_without_channel
    (hNone : pad.link? fifo = none)
    (hKept : ∀ event ∈ events, event.attaches = false) :
    (pad.run events).link? fifo = none ∧
      (pad.run events).buttons =
        (lastLeft? Event.set? events).getD pad.buttons := by
  induction events using List.reverseRecOn with
  | nil => exact ⟨hNone, rfl⟩
  | append_singleton events event ih =>
      rw [List.forall_mem_append,
        List.forall_mem_singleton] at hKept
      rcases ih hKept.1 with ⟨hHere, hButtons⟩
      rcases handle_without_channel fifo hHere hKept.2 with
        ⟨hLater, hSet⟩
      unfold run at *
      rw [List.foldl_concat, lastLeft?_concat]
      refine ⟨hLater, ?_⟩
      rw [hSet, hButtons]
      cases event.set? <;> rfl

------------------------------------------------------------
-- Delivery
------------------------------------------------------------

/-
  On channels that are first in, first out, no message is lost
  and the newest one wins.  A poll takes all messages that
  wait, in the state in which the host leaves the channel
  while the poll goes on, and the buttons become the last of
  them.  Without a poll the buttons only change by being set,
  and the channel only by what the host does to it.  Whatever
  was sent before the sender is dropped comes with the next
  poll, and from then on the pad has no channel and keeps its
  buttons until others are set or another channel is attached.
-/
theorem feed_delivers_newest
    (fifo : Channel.Fifo χ)
    (pad : Controller χ) :
    (∀ event, pad.polls event = true →
      (pad.handle event).buttons =
          (pad.waiting fifo).getLast?.getD pad.buttons ∧
        (pad.handle event).link? fifo =
          (pad.link? fifo).bind Link.drained) ∧
    (∀ event, pad.polls event = false →
      (pad.handle event).buttons =
          event.set?.getD pad.buttons ∧
        (pad.handle event).link? fifo =
          event.relinked fifo (pad.link? fifo)) ∧
    (∀ events : List (Event χ),
      (∀ event ∈ events, event.attaches = false) →
        pad.waiting fifo ++ pad.accepted fifo events =
          pad.consumed fifo events ++
            (pad.run events).waiting fifo) ∧
    (∀ calm poll later,
      let alone := pad.handle (.host .hangUp)
      let before := alone.run calm
      let delivered := before.handle poll
      pad.feed.isSome = true →
      alone.Calm calm →
      before.polls poll = true →
      (∀ event ∈ later, event.attaches = false) →
        delivered.buttons =
            (pad.waiting fifo).getLast?.getD before.buttons ∧
          delivered.feed = none ∧
          (delivered.run later).feed = none ∧
          (delivered.run later).buttons =
            (lastLeft? Event.set? later).getD
              delivered.buttons) ∧
    (∀ channel buttons acts newest left,
      Channel.Drains channel buttons acts newest left →
        let after := acts.foldl Channel.perform channel
        newest = (Channel.drain after buttons).1 ∧
          left.map fifo.link =
            (Channel.drain after buttons).2.map
              fifo.link) := by
  refine ⟨fun _ hPolls => handle_of_polls fifo hPolls,
    fun _ hCalm => handle_of_calm fifo hCalm,
    fun _ hKept => conserved fifo hKept, ?_, ?_⟩
  · intro calm poll later alone before delivered hSome hCalm
      hPolls hKept
    have hAlone :
        alone.link? fifo = some ⟨pad.waiting fifo, false⟩ := by
      have hLink : alone.link? fifo =
          (pad.link? fifo).map Link.hangUp :=
        (handle_of_calm fifo rfl).2
      rcases Option.isSome_iff_exists.mp hSome with
        ⟨channel, hChannel⟩
      have hHere :
          pad.link? fifo = some (fifo.link channel) :=
        congrArg (Option.map fifo.link) hChannel
      unfold waiting
      rw [hLink, hHere]
      rfl
    have hBefore := run_hungUp fifo hAlone hCalm
    rcases handle_of_polls fifo hPolls with
      ⟨hButtons, hLink⟩
    have hWaiting : before.waiting fifo = pad.waiting fifo := by
      unfold waiting
      rw [hBefore]
      rfl
    rw [hWaiting] at hButtons
    rw [hBefore] at hLink
    rcases run_without_channel fifo hLink hKept with
      ⟨hNone, hLast⟩
    exact ⟨hButtons, Option.map_eq_none_iff.mp hLink,
      Option.map_eq_none_iff.mp hNone, hLast⟩
  · intro channel buttons acts newest left hDrains after
    rcases fifo.of_drains hDrains with ⟨hNewest, hLeft⟩
    rw [← fifo.link_foldl_perform] at hNewest hLeft
    rcases fifo.drain_eq after buttons with ⟨hFirst, hSecond⟩
    exact ⟨hNewest.trans hFirst.symm,
      hLeft.trans hSecond.symm⟩

/-
  Two states are sent and the sender is dropped.  The falling
  edge delivers the second one, and nothing undoes it.
-/
theorem burst_outlives_its_sender :
    let fresh : Controller :=
      { feed := some {}, strobeHigh := true }
    let newest := Buttons.down ||| Buttons.select
    let pad := fresh.run
      [.host (.send Buttons.up), .host (.send newest)]
    let alone := pad.handle (.host .hangUp)
    let calm : List (Event Feed) := [.host (.send Buttons.a)]
    let delivered := (alone.run calm).handle (.strobe false)
    let later : List (Event Feed) :=
      [.host (.send Buttons.b), .strobe true, .read]
    pad.feed.isSome = true ∧ alone.Calm calm ∧
      (alone.run calm).polls (.strobe false) = true ∧
      (∀ event ∈ later, event.attaches = false) ∧
      delivered.buttons = newest ∧
      (delivered.run later).feed = none ∧
      (delivered.run later).buttons = newest := by
  intro fresh newest pad alone calm delivered later
  have hKept :
      ∀ event ∈ later, event.attaches = false := by
    simp [later, Event.attaches]
  have hCalm : alone.Calm calm := ⟨rfl, rfl, trivial⟩
  rcases (pad.feed_delivers_newest Feed.fifo).2.2.2.1 calm
    (.strobe false) later rfl hCalm rfl hKept with
    ⟨hButtons, -, hNone, hLast⟩
  have hNewest : delivered.buttons = newest := hButtons
  exact ⟨rfl, hCalm, rfl, hKept, hNewest, hNone,
    hLast.trans hNewest⟩

end Controller

end Famicom
