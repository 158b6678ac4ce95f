import Famicom.Controller.Channel

/-
  Channels as queues.

  A feed is a first-in first-out queue with one sender.  When
  the sender is gone, what it has sent can still be received.

  Key definitions include:
    * `Feed`
    * `Feed.send`
    * `Feed.hangUp`
    * `Feed.receive`
-/

namespace Famicom

/-
  The messages not received yet, oldest first, and whether the
  sender still exists.
-/
structure Feed where
  pending : List Buttons := []
  connected : Bool := true
deriving DecidableEq

namespace Feed

/- Put a message at the end of the queue. -/
def send
    (feed : Feed)
    (buttons : Buttons) : Feed :=
  { feed with pending := feed.pending ++ [buttons] }

/- Drop the sender. -/
def hangUp (feed : Feed) : Feed :=
  { feed with connected := false }

/- Take the oldest message out of the queue. -/
def receive (feed : Feed) : Received × Feed :=
  match feed.pending with
  | oldest :: rest =>
      (.message oldest, { feed with pending := rest })
  | [] =>
      (if feed.connected then .empty else .disconnected, feed)

theorem length_receive
    (feed : Feed)
    (buttons : Buttons)
    (hReceived : feed.receive.1 = .message buttons) :
    feed.receive.2.pending.length < feed.pending.length := by
  rcases feed with ⟨pending, connected⟩
  cases pending with
  | cons oldest rest => exact Nat.lt_succ_self _
  | nil => cases connected <;> cases hReceived

instance : Channel Feed where
  send buttons feed := feed.send buttons
  hangUp := hangUp
  connected := connected
  receive := receive
  length feed := feed.pending.length
  length_receive := length_receive

end Feed

end Famicom
