import Famicom.AddressMap.Fault
import Famicom.Cartridge.Fault

/-
  Everything that can go wrong with a machine.

  A machine is refused while it is being built, or it meets
  an opcode that it cannot execute.

  Key definitions include:
    * `MachineFault`
    * `MachineFault.message`
    * `MachineFault.cause`
-/

namespace Famicom

------------------------------------------------------------
-- Machine Faults
------------------------------------------------------------

/- Why a machine cannot be built, or cannot go on. -/
inductive MachineFault where
  | addressMap (fault : AddressMap.Fault)
  | cartridge (fault : Cartridge.Fault)
  | incompleteOpcodeTable (opcode : UInt8)
  | duplicateOpcode (opcode : UInt8)
  | unsupportedOpcode (opcode : UInt8) (address : UInt16)
  | jammed (opcode : UInt8) (address : UInt16)
  | unsupportedBoard (board : UInt8)
deriving DecidableEq

namespace MachineFault

/- The report of a fault, without its cause. -/
def message : MachineFault → String
  | addressMap fault => "Bus error: " ++ fault.message
  | cartridge _ => "Invalid cartridge image"
  | incompleteOpcodeTable opcode =>
      "Opcode table has no entry for opcode $" ++
        Hex.byte opcode
  | duplicateOpcode opcode =>
      "Opcode table defines opcode $" ++ Hex.byte opcode ++
        " more than once"
  | unsupportedOpcode opcode address =>
      "Unsupported opcode $" ++ Hex.byte opcode ++ " at $" ++
        Hex.word address
  | jammed opcode address =>
      "CPU jammed by opcode $" ++ Hex.byte opcode ++ " at $" ++
        Hex.word address
  | unsupportedBoard board =>
      "Unsupported mapper " ++ toString board.toNat

/- The report of the fault behind a fault, if there is one. -/
def cause : MachineFault → Option String
  | addressMap fault => some fault.message
  | cartridge fault => some fault.message
  | _ => none

end MachineFault

end Famicom
