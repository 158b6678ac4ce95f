/-
  Fixed-width upper-case hexadecimal text.

  Addresses, bytes and checksums are written with a fixed
  number of digits, so that columns line up.

  Key definitions include:
    * `Hex.digits`
    * `Hex.byte`
    * `Hex.word`
-/

namespace Famicom

namespace Hex

------------------------------------------------------------
-- Digits
------------------------------------------------------------

/- The digit of a number below sixteen. -/
def digit (n : Nat) : Char :=
  if n < 10 then
    Char.ofNat (48 + n)
  else
    Char.ofNat (55 + n)

/- The last `count` digits of a number, highest first. -/
def digits : Nat → Nat → List Char
  | 0, _ => []
  | count + 1, n =>
      digits count (n / 16) ++ [digit (n % 16)]

/- Two digits for a byte. -/
def byte (value : UInt8) : String :=
  String.ofList (digits 2 value.toNat)

/- Four digits for a word. -/
def word (value : UInt16) : String :=
  String.ofList (digits 4 value.toNat)

/- Eight digits for a double word. -/
def doubleWord (value : UInt32) : String :=
  String.ofList (digits 8 value.toNat)

end Hex

end Famicom
