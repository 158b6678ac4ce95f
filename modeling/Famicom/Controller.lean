import Famicom.Controller.Feed

/-
  The two pads.

  Each pad is a shift register.  Writing 1 and then 0 to the
  first address latches the buttons of both pads, and every
  read of a pad's address then shifts one button out: A, B,
  Select, Start, Up, Down, Left, Right, and ones from there
  on.

  Key definitions include:
    * `Controller`
    * `Controller.attach`
    * `Controller.poll`
    * `Controller.strobe`
    * `Controller.readBit`
    * `Pads`
    * `Pads.read`
    * `Pads.write`
-/

namespace Famicom

------------------------------------------------------------
-- Pads
------------------------------------------------------------

/-
  The last known buttons, the channel from the host if there
  is one, the strobe line and the shift register.
-/
structure Controller (χ : Type := Feed) where
  buttons : Buttons := 0
  feed : Option χ := none
  strobeHigh : Bool := false
  shifter : UInt8 := 0
deriving DecidableEq

namespace Controller

variable {χ : Type} [Channel χ]

/- Set the buttons directly. -/
def setButtons
    (pad : Controller χ)
    (buttons : Buttons) : Controller χ :=
  { pad with buttons := buttons }

------------------------------------------------------------
-- Host Feed
------------------------------------------------------------

/- Connect a channel, dropping the one before. -/
def attach
    (pad : Controller χ)
    (channel : χ) : Controller χ :=
  { pad with feed := some channel }

/- Connect a new feed. -/
def connect (pad : Controller) : Controller :=
  pad.attach {}

/- Drop the sender of the pad's channel. -/
def disconnect (pad : Controller χ) : Controller χ :=
  { pad with feed := pad.feed.map Channel.hangUp }

/- Send on the pad's channel, if it has a sender. -/
def send?
    (pad : Controller χ)
    (buttons : Buttons) : Option (Controller χ) :=
  match pad.feed with
  | some channel =>
      if Channel.connected channel then
        some { pad with
          feed := some (Channel.send buttons channel) }
      else
        none
  | none => none

/- Take over the newest state that the host has sent. -/
def poll (pad : Controller χ) : Controller χ :=
  match pad.feed with
  | some channel =>
      let (buttons, rest) := Channel.drain channel pad.buttons
      { pad with buttons := buttons, feed := rest }
  | none => pad

------------------------------------------------------------
-- Serial Protocol
------------------------------------------------------------

/- Load the shift register with the newest buttons. -/
def latch (pad : Controller χ) : Controller χ :=
  let polled := pad.poll
  { polled with shifter := polled.buttons }

/- Drive the strobe line, whose falling edge latches. -/
def strobe
    (pad : Controller χ)
    (high : Bool) : Controller χ :=
  let latched :=
    if pad.strobeHigh && !high then pad.latch else pad
  { latched with strobeHigh := high }

/-
  Read one bit.  While the strobe is high the register is
  loaded over and over, so that only A can be seen.
-/
def readBit
    (pad : Controller χ) : UInt8 × Controller χ :=
  if pad.strobeHigh then
    let polled := pad.poll
    (Bits.bit polled.buttons 7, polled)
  else
    (Bits.bit pad.shifter 7,
      { pad with shifter := (pad.shifter <<< 1) ||| 1 })

end Controller

------------------------------------------------------------
-- Pairs of Pads
------------------------------------------------------------

/- The two pads, each with an address of its own. -/
structure Pads (χ : Type := Feed) where
  one : Controller χ := {}
  two : Controller χ := {}
deriving DecidableEq

namespace Pads

variable {χ : Type} [Channel χ]

/- The upper bits of a read are what the bus last held. -/
def openBusBits : UInt8 := 0x40

/- Whether an address selects the first pad. -/
def isFirst (address : UInt16) : Bool :=
  address &&& 1 == 0

/- Read a bit of the pad at an address. -/
def read
    (pads : Pads χ)
    (address : UInt16) : UInt8 × Pads χ :=
  if isFirst address then
    let (bit, pad) := pads.one.readBit
    (openBusBits ||| bit, { pads with one := pad })
  else
    let (bit, pad) := pads.two.readBit
    (openBusBits ||| bit, { pads with two := pad })

/-
  Write to a pad's address.  The first one drives the strobe
  line of both pads, and the second one belongs to the sound
  unit.
-/
def write
    (pads : Pads χ)
    (address : UInt16)
    (value : UInt8) : Pads χ :=
  if isFirst address then
    let high := Bits.isSet value 0
    { one := pads.one.strobe high
      two := pads.two.strobe high }
  else
    pads

end Pads

end Famicom
