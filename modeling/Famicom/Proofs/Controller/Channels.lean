import Famicom.Controller.Feed
import Mathlib

/-
  Channels that are first in, first out.

  From outside, a channel is the list of the messages that
  wait, and whether a sender is left.  What is sent goes to
  the end of the list and what is received comes from its
  front.  Only an empty channel without a sender says that it
  is disconnected.

  Key definitions include:
    * `Link`
    * `Channel.Fifo`
    * `Channel.Drains`

  Main declarations:
    * `Feed.fifo`
    * `Channel.Fifo.of_drains`
    * `Channel.Fifo.drain_eq`
-/

namespace Famicom

------------------------------------------------------------
-- Links
------------------------------------------------------------

/-
  The messages that wait, oldest first, and whether somebody
  can still send.
-/
structure Link where
  waiting : List Buttons
  connected : Bool
deriving DecidableEq

namespace Link

/- Nothing is sent if there is no sender. -/
def send
    (link : Link)
    (buttons : Buttons) : Link :=
  if link.connected then
    { link with waiting := link.waiting ++ [buttons] }
  else
    link

def hangUp (link : Link) : Link :=
  { link with connected := false }

/- What is left when all messages have been received. -/
def drained (link : Link) : Option Link :=
  if link.connected then some ⟨[], true⟩ else none

/- The newest state on top of an older one. -/
def newest
    (link : Link)
    (buttons : Buttons) : Buttons :=
  link.waiting.getLast?.getD buttons

/- The first of several messages is the first to be replaced. -/
theorem newest_cons
    (older message : Buttons)
    (rest : List Buttons)
    (connected : Bool) :
    newest ⟨message :: rest, connected⟩ older =
      newest ⟨rest, connected⟩ message := by
  unfold newest
  dsimp only
  rw [List.getLast?_cons]
  rfl

end Link

------------------------------------------------------------
-- Laws
------------------------------------------------------------

namespace Channel

variable {χ : Type} [Channel χ]

/- What it means for a channel to be first in, first out. -/
structure Fifo (χ : Type) [Channel χ] where
  link : χ → Link
  connected_eq : ∀ channel,
    connected channel = (link channel).connected
  link_send : ∀ buttons channel, connected channel = true →
    link (send buttons channel) = (link channel).send buttons
  link_hangUp : ∀ channel,
    link (hangUp channel) = (link channel).hangUp
  receive_message : ∀ channel oldest rest,
    (link channel).waiting = oldest :: rest →
      ∃ after, receive channel = (.message oldest, after) ∧
        link after = { link channel with waiting := rest }
  receive_empty : ∀ channel, link channel = ⟨[], true⟩ →
    ∃ after, receive channel = (.empty, after) ∧
      link after = ⟨[], true⟩
  receive_disconnected : ∀ channel,
    link channel = ⟨[], false⟩ →
      (receive channel).1 = .disconnected

end Channel

/- Queues are first in, first out. -/
def Feed.fifo : Channel.Fifo Feed where
  link feed := ⟨feed.pending, feed.connected⟩
  connected_eq _ := rfl
  link_send buttons feed hConnected := by
    unfold Link.send
    exact (if_pos hConnected).symm
  link_hangUp _ := rfl
  receive_message := by
    rintro ⟨pending, connected⟩ oldest rest rfl
    exact ⟨⟨rest, connected⟩, rfl, rfl⟩
  receive_empty := by
    rintro ⟨pending, connected⟩ hLink
    cases hLink
    exact ⟨⟨[], true⟩, rfl, rfl⟩
  receive_disconnected := by
    rintro ⟨pending, connected⟩ hLink
    cases hLink
    rfl

------------------------------------------------------------
-- Draining
------------------------------------------------------------

namespace Channel

variable {χ : Type} [Channel χ]

/- What the sending end can do at any moment. -/
inductive Act where
  | send (buttons : Buttons)
  | hangUp
deriving DecidableEq

def perform
    (channel : χ) : Act → χ
  | .send buttons =>
      if connected channel then
        send buttons channel
      else
        channel
  | .hangUp => hangUp channel

/-
  The receiving end takes message after message, and the
  sending end acts in between.  The result is the newest state
  and what is left of the channel.
-/
inductive Drains :
    χ → Buttons → List Act → Buttons → Option χ → Prop
  | act {channel : χ} {buttons newest : Buttons} {act : Act}
      {acts : List Act} {left : Option χ}
      (hRest :
        Drains (perform channel act) buttons acts newest
          left) :
      Drains channel buttons (act :: acts) newest left
  | message {channel after : χ}
      {buttons message newest : Buttons}
      {acts : List Act} {left : Option χ}
      (hReceived :
        receive channel = (.message message, after))
      (hRest : Drains after message acts newest left) :
      Drains channel buttons acts newest left
  | empty {channel after : χ} {buttons : Buttons}
      (hReceived : receive channel = (.empty, after)) :
      Drains channel buttons [] buttons (some after)
  | disconnected {channel : χ} {buttons : Buttons}
      (hReceived : (receive channel).1 = .disconnected) :
      Drains channel buttons [] buttons none

/- A poll that nobody interferes with is one way to drain. -/
theorem drains_drain
    (channel : χ)
    (buttons : Buttons) :
    Drains channel buttons [] (drain channel buttons).1
      (drain channel buttons).2 := by
  fun_induction drain channel buttons with
  | case1 channel buttons message hReceived ih =>
      exact .message (Prod.ext hReceived rfl) ih
  | case2 channel buttons hReceived =>
      exact .empty (Prod.ext hReceived rfl)
  | case3 channel buttons hReceived =>
      exact .disconnected hReceived

end Channel

/- What the sending end does to a link. -/
def Link.perform
    (link : Link) : Channel.Act → Link
  | .send buttons => link.send buttons
  | .hangUp => link.hangUp

/- A message that waits in front stays there. -/
theorem Link.foldl_perform_cons
    (message : Buttons)
    (rest : List Buttons)
    (connected : Bool)
    (acts : List Channel.Act) :
    acts.foldl perform ⟨message :: rest, connected⟩ =
      let link := acts.foldl perform ⟨rest, connected⟩
      { link with waiting := message :: link.waiting } := by
  induction acts generalizing rest connected with
  | nil => rfl
  | cons act acts ih =>
      cases act with
      | hangUp => exact ih rest false
      | send buttons =>
          cases connected with
          | false => exact ih rest false
          | true => exact ih (rest ++ [buttons]) true

namespace Channel.Fifo

variable {χ : Type} [Channel χ]
variable (fifo : Channel.Fifo χ)

theorem link_perform
    (channel : χ)
    (act : Act) :
    fifo.link (perform channel act) =
      (fifo.link channel).perform act := by
  cases act with
  | hangUp => exact fifo.link_hangUp channel
  | send buttons =>
      unfold perform Link.perform
      dsimp only
      split
      next hConnected =>
          exact fifo.link_send buttons channel hConnected
      next hAlone =>
          unfold Link.send
          rw [← fifo.connected_eq, if_neg hAlone]

theorem link_foldl_perform
    (channel : χ)
    (acts : List Act) :
    fifo.link (acts.foldl perform channel) =
      acts.foldl Link.perform (fifo.link channel) := by
  induction acts generalizing channel with
  | nil => rfl
  | cons act acts ih =>
      rw [List.foldl_cons, ih, link_perform]
      rfl

/- The three answers, by what is known from outside. -/
theorem receive_cases
    (channel : χ) :
    (∃ oldest rest after,
      receive channel = (.message oldest, after) ∧
        fifo.link channel =
          { fifo.link after with
            waiting := oldest :: rest } ∧
        (fifo.link after).waiting = rest) ∨
    (∃ after, receive channel = (.empty, after) ∧
      fifo.link channel = ⟨[], true⟩ ∧
      fifo.link after = ⟨[], true⟩) ∨
    ((receive channel).1 = .disconnected ∧
      fifo.link channel = ⟨[], false⟩) := by
  cases hLink : fifo.link channel with
  | mk waiting connected =>
      cases waiting with
      | cons oldest rest =>
          rcases fifo.receive_message channel oldest rest
            (congrArg Link.waiting hLink) with
            ⟨after, hReceived, hAfter⟩
          rw [hLink] at hAfter
          refine .inl ⟨oldest, rest, after, hReceived, ?_, ?_⟩
          · rw [hAfter]
          · rw [hAfter]
      | nil =>
          cases connected with
          | true =>
              rcases fifo.receive_empty channel hLink with
                ⟨after, hReceived, hAfter⟩
              exact .inr (.inl ⟨after, hReceived, rfl, hAfter⟩)
          | false =>
              exact .inr (.inr
                ⟨fifo.receive_disconnected channel hLink, rfl⟩)

/-
  However the two ends take turns, what comes out is the last
  of all messages, and the channel is kept if a sender is left
  at the end.
-/
theorem of_drains
    {channel : χ}
    {buttons newest : Buttons}
    {acts : List Act}
    {left : Option χ}
    (hDrains : Drains channel buttons acts newest left) :
    let link := acts.foldl Link.perform (fifo.link channel)
    newest = link.newest buttons ∧
      left.map fifo.link = link.drained := by
  induction hDrains with
  | @act channel buttons newest act acts left _ ih =>
      rw [List.foldl_cons, ← link_perform]
      exact ih
  | @message channel after buttons message newest acts left
      hReceived _ ih =>
      rcases fifo.receive_cases channel with
        ⟨oldest, rest, other, hOther, hLink, hRest⟩ |
        ⟨other, hOther, -⟩ | ⟨hOther, -⟩
      · cases hReceived.symm.trans hOther
        subst hRest
        rw [hLink, Link.foldl_perform_cons]
        exact ⟨ih.1.trans (Link.newest_cons _ _ _ _).symm,
          ih.2⟩
      · cases hReceived.symm.trans hOther
      · rw [hReceived] at hOther
        cases hOther
  | @empty channel after buttons hReceived =>
      rcases fifo.receive_cases channel with
        ⟨oldest, rest, other, hOther, -⟩ |
        ⟨other, hOther, hLink, hAfter⟩ | ⟨hOther, -⟩
      · cases hReceived.symm.trans hOther
      · cases hReceived.symm.trans hOther
        rw [List.foldl_nil, hLink]
        exact ⟨rfl, congrArg some hAfter⟩
      · rw [hReceived] at hOther
        cases hOther
  | @disconnected channel buttons hReceived =>
      rcases fifo.receive_cases channel with
        ⟨oldest, rest, other, hOther, -⟩ |
        ⟨other, hOther, -⟩ | ⟨-, hLink⟩
      · rw [hOther] at hReceived
        cases hReceived
      · rw [hOther] at hReceived
        cases hReceived
      · rw [List.foldl_nil, hLink]
        exact ⟨rfl, rfl⟩

/- A poll takes the last message and leaves none. -/
theorem drain_eq
    (channel : χ)
    (buttons : Buttons) :
    (drain channel buttons).1 =
        (fifo.link channel).newest buttons ∧
      (drain channel buttons).2.map fifo.link =
        (fifo.link channel).drained :=
  fifo.of_drains (drains_drain channel buttons)

end Channel.Fifo

end Famicom
