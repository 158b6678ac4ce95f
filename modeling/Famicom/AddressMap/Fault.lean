import Famicom.AddressMap.Range

/-
  The reasons why a list of regions is no address map.

  An address map is disjoint and exhaustive.  Each fault
  names the bus and says which of the two fails, and where.

  Key definitions include:
    * `AddressMap.Fault`
    * `AddressMap.Fault.message`
-/

namespace Famicom

namespace AddressMap

------------------------------------------------------------
-- Faults
------------------------------------------------------------

/- Why a region or a whole map is refused. -/
inductive Fault where
  | alreadyAttached
      (bus device : String)
  | overlap
      (bus device other : String)
      (range : AddressRange)
  | gap
      (bus : String)
      (range : AddressRange)
  | invalidRange
      (bus device : String)
      (range : AddressRange)
deriving DecidableEq

namespace Fault

/- The report of a fault. -/
def message : Fault → String
  | alreadyAttached bus device =>
      "Device " ++ device ++ " already attached to bus " ++ bus
  | overlap bus device other range =>
      "Bus '" ++ bus ++ "': device '" ++ device ++ "' (" ++
        range.render ++ ") overlaps with '" ++ other ++ "'"
  | gap bus range =>
      "Bus '" ++ bus ++
        "' doesn't have an attached device for addresses " ++
        range.render
  | invalidRange bus device range =>
      "Bus '" ++ bus ++ "': device '" ++ device ++
        "' has an empty address range " ++ range.render

end Fault

end AddressMap

end Famicom
