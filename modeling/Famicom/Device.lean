import Famicom.AddressMap
import Famicom.Cartridge.Program
import Famicom.Controller
import Famicom.OamDma
import Famicom.Video.Nametables
import Famicom.Video.Palette
import Famicom.Video.SpriteMemory

/-
  Devices that can be attached to an address map.

  A device is read and written by its own addresses.  Memory
  without cells cannot answer, and then the access has no
  outcome.

  Key definitions include:
    * `Device`
    * `Device.read?`
    * `Device.write?`
    * `Device.size`
    * `AddressMap.read?`
    * `AddressMap.write?`
-/

namespace Famicom

------------------------------------------------------------
-- Devices
------------------------------------------------------------

/-
  The kinds of devices.  A silent device reads as 0 and drops
  what is written to it, as the sound registers do here.
-/
inductive Device where
  | ram (memory : Ram)
  | silent (size : Nat)
  | oamDma (dma : OamDma)
  | controllers (pads : Pads)
  | palette (palette : Palette)
  | sprites (memory : SpriteMemory)
  | nametables (tables : Nametables)
  | program (program : ProgramMemory)

namespace Device

/- The number of addresses of a device. -/
def size : Device → Nat
  | ram memory => memory.size
  | silent size => size
  | oamDma _ => 1
  | controllers _ => 2
  | palette _ => Hardware.paletteSize.toNat
  | sprites _ => Hardware.oamSize
  | nametables tables => tables.size
  | program _ => ProgramMemory.windowSize

/- Whether a device has nothing to answer with. -/
def isDead : Device → Bool
  | ram memory => memory.size == 0
  | _ => false

/- Read a device that can answer. -/
def read
    (device : Device)
    (address : UInt16) : UInt8 × Device :=
  match device with
  | ram memory => (memory.read address, device)
  | silent _ => (0, device)
  | oamDma _ => (0, device)
  | controllers pads =>
      let (value, pads) := pads.read address
      (value, .controllers pads)
  | palette colors => (colors.read address, device)
  | sprites memory => (memory.read address, device)
  | nametables tables => (tables.read address, device)
  | program memory =>
      (memory.read (ProgramMemory.cartridgeAddress address),
        device)

/- Write to a device that can answer. -/
def write
    (device : Device)
    (address : UInt16)
    (value : UInt8) : Device :=
  match device with
  | ram memory => .ram (memory.write address value)
  | silent size => .silent size
  | oamDma dma => .oamDma (dma.request value)
  | controllers pads =>
      .controllers (pads.write address value)
  | palette colors => .palette (colors.write address value)
  | sprites memory => .sprites (memory.write address value)
  | nametables tables =>
      .nametables (tables.write address value)
  | program memory =>
      .program
        (memory.write
          (ProgramMemory.cartridgeAddress address) value)

/- Read a device, if it can answer. -/
def read?
    (address : UInt16) : StateT Device Option UInt8 :=
  fun device =>
    if device.isDead then
      none
    else
      some (device.read address)

/- Write to a device, if it can answer. -/
def write?
    (address : UInt16)
    (value : UInt8) : StateT Device Option Unit :=
  fun device =>
    if device.isDead then
      none
    else
      some ((), device.write address value)

end Device

------------------------------------------------------------
-- Maps of Devices
------------------------------------------------------------

namespace AddressMap

/- Read the device that owns an address. -/
def read?
    (address : UInt16) :
    StateT (AddressMap Device) Option UInt8 :=
  access Device.read? address

/- Write to the device that owns an address. -/
def write?
    (address : UInt16)
    (value : UInt8) :
    StateT (AddressMap Device) Option Unit :=
  access (fun place => Device.write? place value) address

end AddressMap

end Famicom
