/-
  Single bits, bytes and pages of machine words.

  The machine works on bytes and on sixteen-bit addresses.
  This file holds the operations on them that have no owner
  of their own.

  Key definitions include:
    * `Bits.bit`
    * `Bits.isSet`
    * `Bits.reverse`
    * `Bits.word`
    * `Bits.differentPages`
-/

namespace Famicom

namespace Bits

------------------------------------------------------------
-- Bytes
------------------------------------------------------------

/- The bit of a byte at position `n`, as the number 0 or 1. -/
def bit
    (value : UInt8)
    (n : UInt8) : UInt8 :=
  (value >>> n) &&& 1

/- Whether the bit of a byte at position `n` is one. -/
def isSet
    (value : UInt8)
    (n : UInt8) : Bool :=
  bit value n == 1

/- Whether any bit of `value` selected by `mask` is one. -/
def meets
    (value mask : UInt8) : Bool :=
  value &&& mask != 0

/- The number 1 for a true condition and 0 for a false one. -/
def ofBool (b : Bool) : UInt8 :=
  if b then 1 else 0

/-
  The byte read from its other end.  Neighbouring bits are
  exchanged, then neighbouring pairs, then the two halves.
-/
def reverse (value : UInt8) : UInt8 :=
  let singles :=
    ((value &&& 0x55) <<< 1) ||| ((value >>> 1) &&& 0x55)
  let pairs :=
    ((singles &&& 0x33) <<< 2) ||| ((singles >>> 2) &&& 0x33)
  (pairs <<< 4) ||| (pairs >>> 4)

------------------------------------------------------------
-- Addresses
------------------------------------------------------------

/- The word whose low byte is `low` and high byte is `high`. -/
def word
    (low high : UInt8) : UInt16 :=
  (high.toUInt16 <<< 8) ||| low.toUInt16

/- The low byte of a word. -/
def lowByte (value : UInt16) : UInt8 :=
  value.toUInt8

/- The high byte of a word. -/
def highByte (value : UInt16) : UInt8 :=
  (value >>> 8).toUInt8

/- Whether two addresses lie in different 256-byte pages. -/
def differentPages
    (a b : UInt16) : Bool :=
  (a &&& 0xFF00) != (b &&& 0xFF00)

/-
  The address in the page of `page` at the place that
  `offset` has in its own page.
-/
def inPageOf
    (page offset : UInt16) : UInt16 :=
  (page &&& 0xFF00) ||| (offset &&& 0x00FF)

/-
  The address reached from `base` by a signed byte: values
  from $80 on stand for negative distances.
-/
def displace
    (base : UInt16)
    (offset : UInt8) : UInt16 :=
  if offset < 0x80 then
    base + offset.toUInt16
  else
    base + offset.toUInt16 - 0x100

end Bits

end Famicom
