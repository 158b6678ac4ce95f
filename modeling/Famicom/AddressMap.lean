import Famicom.AddressMap.Draft

/-
  Address maps: which device answers at which address.

  Building refuses a draft that leaves an address without a
  region, so every address of a built map has exactly one
  owner.

  Key definitions include:
    * `AddressMap`
    * `AddressMap.Draft.build`
    * `AddressMap.regionAt`
    * `AddressMap.owner`
    * `AddressMap.resolve`
    * `AddressMap.access`
-/

namespace Famicom

------------------------------------------------------------
-- Built Maps
------------------------------------------------------------

/-
  An exhaustive table of regions by ascending start address.
  The lowest region is kept apart: a map has at least one.
-/
structure AddressMap (δ : Type) where
  name : String
  lowest : AddressMap.Region δ
  others : List (AddressMap.Region δ)

namespace AddressMap

variable {δ : Type}

------------------------------------------------------------
-- Building
------------------------------------------------------------

/- Put a region before the first one that starts later. -/
def insertByStart
    (region : Region δ) :
    List (Region δ) → List (Region δ)
  | [] => [region]
  | other :: rest =>
      if other.range.first ≤ region.range.first then
        other :: insertByStart region rest
      else
        region :: other :: rest

/- The regions by ascending start address. -/
def sortByStart
    (regions : List (Region δ)) : List (Region δ) :=
  regions.foldl (fun sorted r => insertByStart r sorted) []

/-
  The lowest run of addresses from `next` on that no region
  of an ascending disjoint list covers.
-/
def firstGap
    (next : Nat) :
    List (Region δ) → Option AddressRange
  | [] =>
      if next ≤ 0xFFFF then
        some ⟨next.toUInt16, 0xFFFF⟩
      else
        none
  | region :: rest =>
      if next < region.range.first.toNat then
        some ⟨next.toUInt16, region.range.first - 1⟩
      else
        firstGap (region.range.last.toNat + 1) rest

/- Build the map of a draft, unless an address is left out. -/
def Draft.build
    (draft : Draft δ) : Except Fault (AddressMap δ) :=
  match
      sortByStart draft.regions,
      firstGap 0 (sortByStart draft.regions)
    with
  | lowest :: others, none =>
      .ok ⟨draft.name, lowest, others⟩
  | _, some range => .error (.gap draft.name range)
  | [], none => .error (.gap draft.name ⟨0, 0xFFFF⟩)

------------------------------------------------------------
-- Lookup
------------------------------------------------------------

/-
  The last region of an ascending list that starts at or
  before an address, and `current` if none does.
-/
def lastStarting
    (address : UInt16)
    (current : Region δ) :
    List (Region δ) → Region δ
  | [] => current
  | region :: rest =>
      if region.range.first ≤ address then
        lastStarting address region rest
      else
        current

/-
  The region that answers at an address.  The table has no
  holes, so the last region starting at or before an address
  is the one that contains it.
-/
def regionAt
    (map : AddressMap δ)
    (address : UInt16) : Region δ :=
  lastStarting address map.lowest map.others

/- The name of the device that answers at an address. -/
def owner
    (map : AddressMap δ)
    (address : UInt16) : String :=
  (map.regionAt address).name

/- The device at an address and the address it sees. -/
def resolve
    (map : AddressMap δ)
    (address : UInt16) : δ × UInt16 :=
  let region := map.regionAt address
  (region.device, region.localAddress address)

------------------------------------------------------------
-- Accesses
------------------------------------------------------------

/- All regions by ascending start address. -/
def regions (map : AddressMap δ) : List (Region δ) :=
  map.lowest :: map.others

/- The map with the device of a named region replaced. -/
def setDevice
    (map : AddressMap δ)
    (name : String)
    (device : δ) : AddressMap δ :=
  let replace (region : Region δ) : Region δ :=
    if region.name == name then
      { region with device := device }
    else
      region
  { map with
    lowest := replace map.lowest
    others := map.others.map replace }

/-
  Let the device at an address perform an action on the
  address it sees.  The device may refuse, and then the map
  has no next state.
-/
def access
    {α : Type}
    (act : UInt16 → StateT δ Option α)
    (address : UInt16) :
    StateT (AddressMap δ) Option α :=
  fun map => do
    let region := map.regionAt address
    let (result, device) ←
      act (region.localAddress address) region.device
    some (result, map.setDevice region.name device)

end AddressMap

end Famicom
