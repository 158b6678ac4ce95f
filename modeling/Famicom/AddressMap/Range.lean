import Famicom.Hex

/-
  Inclusive ranges of addresses, and the ways in which an
  address of a range becomes a device's own address.

  Key definitions include:
    * `AddressRange`
    * `AddressRange.contains`
    * `AddressRange.overlaps`
    * `AddressFold`
    * `AddressFold.apply`
-/

namespace Famicom

------------------------------------------------------------
-- Ranges
------------------------------------------------------------

/- The addresses from `first` to `last`, both included. -/
structure AddressRange where
  first : UInt16
  last : UInt16
deriving DecidableEq

namespace AddressRange

/- Whether the range has no address at all. -/
def isEmpty (range : AddressRange) : Bool :=
  range.last < range.first

/- Whether an address lies in the range. -/
def contains
    (range : AddressRange)
    (address : UInt16) : Bool :=
  range.first ≤ address && address ≤ range.last

/-
  Whether two ranges share an address, provided that neither
  is empty.
-/
def overlaps
    (range other : AddressRange) : Bool :=
  range.first ≤ other.last && other.first ≤ range.last

/- The number of addresses in the range. -/
def size (range : AddressRange) : Nat :=
  range.last.toNat + 1 - range.first.toNat

/- The range in hexadecimal notation. -/
def render (range : AddressRange) : String :=
  "$" ++ Hex.word range.first ++ "-$" ++ Hex.word range.last

end AddressRange

------------------------------------------------------------
-- Folds
------------------------------------------------------------

/-
  How a device sees an address of its range: by its distance
  from the start of the range, or by that distance modulo a
  size when the device is smaller than its range.
-/
inductive AddressFold where
  | offset
  | wrap (size : UInt16)
deriving DecidableEq

namespace AddressFold

/- Whether a fold leaves no address to answer with. -/
def isEmpty : AddressFold → Bool
  | offset => false
  | wrap size => size == 0

/- The device's own address for a distance. -/
def apply
    (fold : AddressFold)
    (distance : UInt16) : UInt16 :=
  match fold with
  | offset => distance
  | wrap size => distance % size

end AddressFold

end Famicom
