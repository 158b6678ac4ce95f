import Famicom.Hex
import Famicom.Memory

/-
  Buses that remember their traffic.

  A recorded bus passes every access on to the bus behind it
  and keeps a list of what went by.

  Key definitions include:
    * `BusAccess`
    * `BusAccess.render`
    * `Recorded`
    * `Recorded.accesses`
-/

namespace Famicom

------------------------------------------------------------
-- Accesses
------------------------------------------------------------

/- One byte that went over a bus. -/
inductive BusAccess where
  | read (address : UInt16) (value : UInt8)
  | write (address : UInt16) (value : UInt8)
deriving DecidableEq

namespace BusAccess

/- The address an access went to. -/
def address : BusAccess → UInt16
  | read address _ => address
  | write address _ => address

/- The access in listings. -/
def render : BusAccess → String
  | read address value =>
      "R" ++ Hex.word address ++ "=" ++ Hex.byte value
  | write address value =>
      "W" ++ Hex.word address ++ "=" ++ Hex.byte value

end BusAccess

------------------------------------------------------------
-- Recorded Buses
------------------------------------------------------------

/- A bus and its traffic, with the latest access first. -/
structure Recorded (β : Type) where
  bus : β
  latestFirst : List BusAccess := []

namespace Recorded

variable {β : Type}

/- The traffic in the order in which it went by. -/
def accesses (recorded : Recorded β) : List BusAccess :=
  recorded.latestFirst.reverse

/- The bus with its traffic forgotten. -/
def forget (recorded : Recorded β) : Recorded β :=
  { recorded with latestFirst := [] }

instance [AddressBus β] : AddressBus (Recorded β) where
  read address := fun ⟨bus, log⟩ =>
    let (value, bus) := AddressBus.read address bus
    (value, ⟨bus, .read address value :: log⟩)
  write address value := fun ⟨bus, log⟩ =>
    let ((), bus) := AddressBus.write address value bus
    ((), ⟨bus, .write address value :: log⟩)

end Recorded

end Famicom
