/-
  Groups of bits of a word, selected by a mask.

  Reading a group moves it down to bit 0 and writing one
  moves the new value up to the group's place.  A mask need
  not be contiguous: its place is its lowest one bit.  Words
  have 32 bits at most.

  Key definitions include:
    * `Bits.Field`
    * `Bits.Field.offsetFrom`
    * `Bits.Field.offset`
    * `Bits.Field.get`
    * `Bits.Field.set`
-/

namespace Famicom

namespace Bits

------------------------------------------------------------
-- Masked Groups
------------------------------------------------------------

/- A group of bits of a word of width `w`. -/
structure Field (w : Nat) where
  mask : BitVec w
deriving DecidableEq

namespace Field

variable {w : Nat}

/-
  Search a mask upwards from a place.  The search ends behind
  the last place of the widest word, at a bit of the mask, or
  where the mask has no bits left.
-/
def offsetFrom
    (field : Field w)
    (place : Nat) : Nat :=
  if place < 32 ∧
      (field.mask >>> place) &&& 1 = 0 ∧
        field.mask >>> place ≠ 0 then
    field.offsetFrom (place + 1)
  else
    place
termination_by 32 - place

/-
  The position of the lowest bit of a mask, and 0 for the
  mask that selects nothing.
-/
def offset (field : Field w) : Nat :=
  field.offsetFrom 0

/- The group's value in a word. -/
def get
    (field : Field w)
    (value : BitVec w) : BitVec w :=
  (value &&& field.mask) >>> field.offset

/-
  The word with the group replaced.  Bits of `part` that do
  not fit the group are dropped.
-/
def set
    (field : Field w)
    (part value : BitVec w) : BitVec w :=
  (value &&& ~~~field.mask) |||
    ((part <<< field.offset) &&& field.mask)

end Field

end Bits

end Famicom
