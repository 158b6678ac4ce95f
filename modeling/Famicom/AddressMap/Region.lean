import Famicom.AddressMap.Fault

/-
  Regions: the part of an address map that one device owns.

  Key definitions include:
    * `AddressMap.Region`
    * `AddressMap.Region.isEmpty`
    * `AddressMap.Region.localAddress`
-/

namespace Famicom

namespace AddressMap

------------------------------------------------------------
-- Regions
------------------------------------------------------------

/- A named device and the addresses it answers at. -/
structure Region (δ : Type) where
  name : String
  device : δ
  range : AddressRange
  fold : AddressFold

namespace Region

variable {δ : Type}

/- Whether a region has no address, or answers at none. -/
def isEmpty (region : Region δ) : Bool :=
  region.range.isEmpty || region.fold.isEmpty

/- The address that the device sees. -/
def localAddress
    (region : Region δ)
    (address : UInt16) : UInt16 :=
  region.fold.apply (address - region.range.first)

end Region

end AddressMap

end Famicom
