import Famicom.Controller
import Famicom.Proofs.Words

/-
  What can happen to the pads.

  A program reads the two addresses and writes to them.  The
  host sets buttons, connects channels, sends on them and
  hangs up.  Of all this a pad only sees what is meant for it,
  and a write to the first address is meant for both pads.

  Key definitions include:
    * `Controller.HostEvent`
    * `Controller.Event`
    * `Controller.run`
    * `Pads.Event`
    * `Pads.Event.seenBy`
    * `Pads.run`

  Main declarations:
    * `Pads.pad_run`
    * `Pads.read_eq`
-/

namespace Famicom

variable {χ : Type} [Channel χ]

------------------------------------------------------------
-- One Pad
------------------------------------------------------------

namespace Controller

/- What a host can do to a pad and to its channel. -/
inductive HostEvent (χ : Type) where
  | setButtons (buttons : Buttons)
  | attach (channel : χ)
  | send (buttons : Buttons)
  | hangUp

/- What can happen to a pad. -/
inductive Event (χ : Type) where
  | strobe (high : Bool)
  | read
  | host (event : HostEvent χ)

/- A message for which there is no sender is never sent. -/
def handleHost
    (pad : Controller χ) : HostEvent χ → Controller χ
  | .setButtons buttons => pad.setButtons buttons
  | .attach channel => pad.attach channel
  | .send buttons => (pad.send? buttons).getD pad
  | .hangUp => pad.disconnect

/- The pad after an event. -/
def handle
    (pad : Controller χ) : Event χ → Controller χ
  | .strobe high => pad.strobe high
  | .read => pad.readBit.2
  | .host event => pad.handleHost event

/- The pad after events. -/
def run
    (pad : Controller χ)
    (events : List (Event χ)) : Controller χ :=
  events.foldl handle pad

variable {pad : Controller χ}

@[simp] theorem run_nil : pad.run [] = pad := rfl

@[simp] theorem run_cons
    (event : Event χ)
    (events : List (Event χ)) :
    pad.run (event :: events) = (pad.handle event).run events :=
  rfl

/- Polling only concerns the buttons and the channel. -/
@[simp] theorem strobeHigh_poll :
    pad.poll.strobeHigh = pad.strobeHigh := by
  unfold poll
  split <;> rfl

@[simp] theorem shifter_poll :
    pad.poll.shifter = pad.shifter := by
  unfold poll
  split <;> rfl

/- So does everything that a host can do. -/
theorem handleHost_serial (event : HostEvent χ) :
    (pad.handleHost event).strobeHigh = pad.strobeHigh ∧
      (pad.handleHost event).shifter = pad.shifter := by
  cases event with
  | setButtons _ | attach _ | hangUp => exact ⟨rfl, rfl⟩
  | send buttons =>
      unfold handleHost send?
      cases pad.feed with
      | none => exact ⟨rfl, rfl⟩
      | some channel =>
          dsimp only
          split <;> exact ⟨rfl, rfl⟩

end Controller

------------------------------------------------------------
-- Both Pads
------------------------------------------------------------

namespace Pads

/- The first pad or the second one. -/
def pad
    (pads : Pads χ)
    (first : Bool) : Controller χ :=
  if first then pads.one else pads.two

/- What can happen to a pair of pads. -/
inductive Event (χ : Type) where
  | read (address : UInt16)
  | write (address : UInt16) (value : UInt8)
  | host (first : Bool) (event : Controller.HostEvent χ)

/- The pads after an event. -/
def handle
    (pads : Pads χ) : Event χ → Pads χ
  | .read address => (pads.read address).2
  | .write address value => pads.write address value
  | .host true event =>
      { pads with one := pads.one.handleHost event }
  | .host false event =>
      { pads with two := pads.two.handleHost event }

/- The pads after events. -/
def run
    (pads : Pads χ)
    (events : List (Event χ)) : Pads χ :=
  events.foldl handle pads

/- What a pad sees of an event. -/
def Event.seenBy
    (first : Bool) : Event χ → Option (Controller.Event χ)
  | .read address =>
      if isFirst address = first then some .read else none
  | .write address value =>
      if isFirst address then
        some (.strobe (Bits.isSet value 0))
      else
        none
  | .host other event =>
      if other = first then some (.host event) else none

variable {pads : Pads χ}

theorem pad_handle
    (first : Bool)
    (event : Event χ) :
    (pads.handle event).pad first =
      (pads.pad first).run (event.seenBy first).toList := by
  cases event with
  | read address =>
      simp only [handle, Pads.read, Event.seenBy, pad]
      cases first <;> cases isFirst address <;> rfl
  | write address value =>
      simp only [handle, Pads.write, Event.seenBy, pad]
      cases first <;> cases isFirst address <;> rfl
  | host other event =>
      cases first <;> cases other <;> rfl

/- A pad goes through what it sees of the events. -/
theorem pad_run
    (first : Bool)
    (events : List (Event χ)) :
    (pads.run events).pad first =
      (pads.pad first).run
        (events.filterMap (·.seenBy first)) := by
  induction events generalizing pads with
  | nil => rfl
  | cons event events ih =>
      show ((pads.handle event).run events).pad first = _
      rw [ih, pad_handle, List.filterMap_cons]
      cases event.seenBy first <;> rfl

/- The single bit of a read is added to what the bus held. -/
theorem read_eq (address : UInt16) :
    (pads.read address).1 =
      0x40 + (pads.pad (isFirst address)).readBit.1 := by
  have hAdd (value : UInt8) :
      openBusBits ||| Bits.bit value 7 =
        0x40 + Bits.bit value 7 := by
    have hPlace := Bits.toNat_bit value 7 (by decide)
    have hBit : Bits.bit value 7 = 0 ∨
        Bits.bit value 7 = 1 := by
      rw [← UInt8.toNat_inj, ← UInt8.toNat_inj, hPlace]
      exact Nat.mod_two_eq_zero_or_one _
    rcases hBit with hZero | hOne
    · rw [hZero]
      rfl
    · rw [hOne]
      rfl
  have hRead (pad : Controller χ) :
      openBusBits ||| pad.readBit.1 = 0x40 + pad.readBit.1 := by
    unfold Controller.readBit
    split <;> exact hAdd _
  unfold Pads.read pad
  split <;> exact hRead _

end Pads

end Famicom
