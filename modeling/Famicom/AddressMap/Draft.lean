import Famicom.AddressMap.Region

/-
  Address maps in the making.

  Regions are attached to a draft one by one, and a region
  that is empty, has a name already taken or touches an
  attached region is refused.

  Key definitions include:
    * `AddressMap.Draft`
    * `AddressMap.Draft.attach`
    * `AddressMap.Draft.attachAll`
-/

namespace Famicom

namespace AddressMap

------------------------------------------------------------
-- Drafts
------------------------------------------------------------

/- A map in the making, with its regions in attach order. -/
structure Draft (δ : Type) where
  name : String
  regions : List (Region δ)

namespace Draft

variable {δ : Type}

/- A draft without regions. -/
def empty (name : String) : Draft δ where
  name := name
  regions := []

/-
  Attach a region.  A region without addresses is refused
  first, then a name that is taken, then an overlap, which
  is reported against the region attached earliest.
-/
def attach
    (draft : Draft δ)
    (region : Region δ) : Except Fault (Draft δ) :=
  if region.isEmpty then
    .error
      (.invalidRange draft.name region.name region.range)
  else if draft.regions.any (·.name == region.name) then
    .error (.alreadyAttached draft.name region.name)
  else
    match
        draft.regions.find? (·.range.overlaps region.range)
      with
    | some other =>
        .error
          (.overlap draft.name region.name other.name
            region.range)
    | none =>
        .ok { draft with regions := draft.regions ++ [region] }

/- Attach a list of regions in order. -/
def attachAll
    (draft : Draft δ)
    (regions : List (Region δ)) : Except Fault (Draft δ) :=
  regions.foldlM attach draft

end Draft

end AddressMap

end Famicom
