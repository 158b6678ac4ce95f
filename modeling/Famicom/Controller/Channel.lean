import Famicom.Bits

/-
  Button states and the channels on which a host sends them.

  A channel has a sending end with the host and a receiving
  end with a pad.  The receiving end asks for one message at a
  time, and is told if there is none or never will be one
  again.  What else a channel does is left to whoever provides
  it.

  Key definitions include:
    * `Buttons`
    * `Received`
    * `Channel`
    * `Channel.drain`
-/

namespace Famicom

------------------------------------------------------------
-- Buttons
------------------------------------------------------------

/- The buttons held down, one bit each. -/
abbrev Buttons := UInt8

namespace Buttons

abbrev a : Buttons := 0x80
abbrev b : Buttons := 0x40
abbrev select : Buttons := 0x20
abbrev start : Buttons := 0x10
abbrev up : Buttons := 0x08
abbrev down : Buttons := 0x04
abbrev left : Buttons := 0x02
abbrev right : Buttons := 0x01

end Buttons

------------------------------------------------------------
-- Channels
------------------------------------------------------------

/- The answer to asking for a message. -/
inductive Received where
  | message (buttons : Buttons)
  | empty
  | disconnected
deriving DecidableEq

/-
  The states of a channel with what both ends can do to it.
  The length is the number of messages that wait, so nobody
  can receive message after message forever.
-/
class Channel (χ : Type) where
  send : Buttons → χ → χ
  hangUp : χ → χ
  connected : χ → Bool
  receive : χ → Received × χ
  length : χ → Nat
  length_receive : ∀ channel buttons,
    (receive channel).1 = .message buttons →
      length (receive channel).2 < length channel

namespace Channel

variable {χ : Type} [Channel χ]

/-
  Receive message by message, each in place of the state
  before it.  A channel that will never hold another message
  is given up.
-/
def drain
    (channel : χ)
    (buttons : Buttons) : Buttons × Option χ :=
  match _ : (receive channel).1 with
  | .message newer => drain (receive channel).2 newer
  | .empty => (buttons, some (receive channel).2)
  | .disconnected => (buttons, none)
termination_by length channel
decreasing_by exact length_receive _ _ ‹_›

end Channel

end Famicom
