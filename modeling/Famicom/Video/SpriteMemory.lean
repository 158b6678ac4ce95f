import Famicom.Memory
import Famicom.Video.Sprite

/-
  The sprite memory: 64 sprites of four bytes.

  Key definitions include:
    * `SpriteMemory`
    * `SpriteMemory.read`
    * `SpriteMemory.write`
    * `SpriteMemory.sprite`
    * `SpriteMemory.onLine`
-/

namespace Famicom

------------------------------------------------------------
-- Sprite Memory
------------------------------------------------------------

/- The bytes of all sprites. -/
structure SpriteMemory where
  cells : Vector UInt8 256
deriving DecidableEq

namespace SpriteMemory

/- Sprites whose bytes are all 0. -/
def blank : SpriteMemory where
  cells := Vector.replicate 256 0

/- The place of an address, of which a byte is decoded. -/
def cellOf (address : UInt16) : Fin 256 :=
  ⟨address.toNat % 256, Nat.mod_lt _ (by decide)⟩

/- The byte at an address. -/
def read
    (memory : SpriteMemory)
    (address : UInt16) : UInt8 :=
  memory.cells[cellOf address]

/-
  What an address keeps of a byte.  Three bits of every
  attribute byte have no storage.
-/
def stored
    (address : UInt16)
    (value : UInt8) : UInt8 :=
  if address % 4 == 2 then value &&& 0xE3 else value

/- Store a byte at an address. -/
def write
    (memory : SpriteMemory)
    (address : UInt16)
    (value : UInt8) : SpriteMemory where
  cells := memory.cells.set (cellOf address)
    (stored address value)

/- Sprite memory is an address bus of repeating bytes. -/
instance : AddressBus SpriteMemory where
  read address := fun memory =>
    (memory.read address, memory)
  write address value := fun memory =>
    ((), memory.write address value)

------------------------------------------------------------
-- Sprites
------------------------------------------------------------

/- One of the four bytes of a sprite. -/
def spriteByte
    (memory : SpriteMemory)
    (index offset : Nat)
    (hOffset : offset < 4 := by decide) : UInt8 :=
  have hPlace : index % 64 * 4 + offset < 256 := by omega
  memory.cells[index % 64 * 4 + offset]

/- The sprite with an index, counted modulo 64. -/
def sprite
    (memory : SpriteMemory)
    (index : Nat) : Sprite where
  y := memory.spriteByte index 0
  tile := memory.spriteByte index 1
  attributes := memory.spriteByte index 2
  x := memory.spriteByte index 3

/- All sprites in order. -/
def sprites (memory : SpriteMemory) : List Sprite :=
  (List.range 64).map memory.sprite

/- All sprites in listings. -/
def render (memory : SpriteMemory) : String :=
  "[" ++ ", ".intercalate (memory.sprites.map Sprite.render)
    ++ "]"

/-
  A sprite that has a row on a line: its index, its bytes and
  the row.
-/
structure OnLine where
  index : Nat
  sprite : Sprite
  row : UInt16
deriving DecidableEq

/- The row of one sprite on a line, if it has one. -/
def onLine?
    (memory : SpriteMemory)
    (scanline height : UInt16)
    (index : Nat) : Option OnLine :=
  let sprite := memory.sprite index
  (sprite.rowOn scanline height).map fun row =>
    ⟨index, sprite, row⟩

/- The sprites that have a row on a line, in order. -/
def onLine
    (memory : SpriteMemory)
    (scanline height : UInt16) : List OnLine :=
  (List.range 64).filterMap (memory.onLine? scanline height)

end SpriteMemory

end Famicom
