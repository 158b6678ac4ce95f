import Famicom.Cpu.Registers

/-
  The arithmetic and logic of the processor.

  Every operation is a function of the registers and of one
  operand byte.  Operations that also produce a byte for the
  memory return it beside the registers.

  Key definitions include:
    * `Registers.addWithCarry`
    * `Registers.compare`
    * `Registers.shiftLeft`
    * `Registers.rotateRight`
    * `Registers.andRotate`
-/

namespace Famicom

namespace Registers

------------------------------------------------------------
-- Loads
------------------------------------------------------------

/- Record the sign and the zeroness of a result. -/
def noteResult
    (r : Registers)
    (result : UInt8) : Registers :=
  { r with status := r.status.setZeroNegative result }

/- Load the accumulator. -/
def loadA
    (r : Registers)
    (value : UInt8) : Registers :=
  { r with a := value }.noteResult value

/- Load the X register. -/
def loadX
    (r : Registers)
    (value : UInt8) : Registers :=
  { r with x := value }.noteResult value

/- Load the Y register. -/
def loadY
    (r : Registers)
    (value : UInt8) : Registers :=
  { r with y := value }.noteResult value

/- Load the accumulator and the X register together. -/
def loadAX
    (r : Registers)
    (value : UInt8) : Registers :=
  { r with a := value, x := value }.noteResult value

/- Change one flag. -/
def putFlag
    (r : Registers)
    (flag : StatusFlag)
    (value : Bool) : Registers :=
  { r with status := r.status.put flag value }

------------------------------------------------------------
-- Addition and Comparison
------------------------------------------------------------

/-
  Whether adding two bytes of the same sign gave a result of
  the other sign.
-/
def signOverflows
    (augend addend result : UInt8) : Bool :=
  Bits.bit augend 7 == Bits.bit addend 7 &&
    Bits.bit addend 7 != Bits.bit result 7

/-
  Add an operand and the carry to the accumulator.  The
  decimal flag plays no part.
-/
def addWithCarry
    (r : Registers)
    (operand : UInt8) : Registers :=
  let total :=
    r.a.toNat + operand.toNat + r.status.carry.toNat
  let result := UInt8.ofNat total
  { r with
    a := result
    status :=
      { r.status.setZeroNegative result with
        carry := 256 ≤ total
        overflow := signOverflows r.a operand result } }

/-
  Subtract an operand and the borrow, which is the absent
  carry.  In two's complement this adds the complement.
-/
def subtractWithBorrow
    (r : Registers)
    (operand : UInt8) : Registers :=
  r.addWithCarry (~~~operand)

/-
  Compare a register with an operand.  The carry tells that
  the register is not below it.
-/
def compare
    (r : Registers)
    (register operand : UInt8) : Registers :=
  { r with
    status :=
      { r.status with carry := operand ≤ register
        }.setZeroNegative (register - operand) }

------------------------------------------------------------
-- Logic
------------------------------------------------------------

/- Conjunction with the accumulator. -/
def andA
    (r : Registers)
    (operand : UInt8) : Registers :=
  r.loadA (r.a &&& operand)

/- Exclusive disjunction with the accumulator. -/
def xorA
    (r : Registers)
    (operand : UInt8) : Registers :=
  r.loadA (r.a ^^^ operand)

/- Disjunction with the accumulator. -/
def orA
    (r : Registers)
    (operand : UInt8) : Registers :=
  r.loadA (r.a ||| operand)

/-
  Test bits of an operand.  Its two top bits are copied, and
  the zero flag tells whether the accumulator meets it.
-/
def testBits
    (r : Registers)
    (operand : UInt8) : Registers :=
  { r with
    status :=
      { r.status with
        zero := r.a &&& operand == 0
        negative := Bits.isSet operand 7
        overflow := Bits.isSet operand 6 } }

------------------------------------------------------------
-- Shifts and Steps
------------------------------------------------------------

/- A result byte together with the bit that left it. -/
def shifted
    (r : Registers)
    (result : UInt8)
    (out : Bool) : UInt8 × Registers :=
  (result, (r.putFlag .carry out).noteResult result)

/- Shift left, with a zero coming in. -/
def shiftLeft
    (r : Registers)
    (operand : UInt8) : UInt8 × Registers :=
  r.shifted (operand <<< 1) (Bits.isSet operand 7)

/- Shift right, with a zero coming in. -/
def shiftRight
    (r : Registers)
    (operand : UInt8) : UInt8 × Registers :=
  r.shifted (operand >>> 1) (Bits.isSet operand 0)

/- Shift left, with the carry coming in. -/
def rotateLeft
    (r : Registers)
    (operand : UInt8) : UInt8 × Registers :=
  r.shifted
    ((operand <<< 1) ||| Bits.ofBool r.status.carry)
    (Bits.isSet operand 7)

/- Shift right, with the carry coming in. -/
def rotateRight
    (r : Registers)
    (operand : UInt8) : UInt8 × Registers :=
  r.shifted
    ((operand >>> 1) ||| (Bits.ofBool r.status.carry <<< 7))
    (Bits.isSet operand 0)

/- One less, without touching the carry. -/
def decrement
    (r : Registers)
    (operand : UInt8) : UInt8 × Registers :=
  (operand - 1, r.noteResult (operand - 1))

/- One more, without touching the carry. -/
def increment
    (r : Registers)
    (operand : UInt8) : UInt8 × Registers :=
  (operand + 1, r.noteResult (operand + 1))

------------------------------------------------------------
-- Combinations
------------------------------------------------------------

/-
  Change a byte and go on with the result as the operand of
  a second operation.
-/
def changeThen
    (r : Registers)
    (change : Registers → UInt8 → UInt8 × Registers)
    (use : Registers → UInt8 → Registers)
    (operand : UInt8) : UInt8 × Registers :=
  let (result, r') := change r operand
  (result, use r' result)

/-
  One less, then a comparison with the accumulator, which
  decides all flags.
-/
def decrementCompare
    (r : Registers)
    (operand : UInt8) : UInt8 × Registers :=
  (operand - 1, r.compare r.a (operand - 1))

/- One more, then a subtraction from the accumulator. -/
def incrementSubtract
    (r : Registers)
    (operand : UInt8) : UInt8 × Registers :=
  (operand + 1, r.subtractWithBorrow (operand + 1))

/- Conjunction, with the sign copied into the carry. -/
def andCarry
    (r : Registers)
    (operand : UInt8) : Registers :=
  let r' := r.andA operand
  r'.putFlag .carry r'.status.negative

/- Conjunction, then a right shift of the accumulator. -/
def andShift
    (r : Registers)
    (operand : UInt8) : Registers :=
  let r' := r.andA operand
  let (result, r'') := r'.shiftRight r'.a
  { r'' with a := result }

/-
  Conjunction, then a right rotation of the accumulator.
  The carry is bit 6 of the result, and the overflow tells
  whether bits 6 and 5 differ.
-/
def andRotate
    (r : Registers)
    (operand : UInt8) : Registers :=
  let result :=
    ((r.a &&& operand) >>> 1) |||
      (Bits.ofBool r.status.carry <<< 7)
  let r' := r.loadA result
  { r' with
    status :=
      { r'.status with
        carry := Bits.isSet result 6
        overflow :=
          Bits.isSet result 6 != Bits.isSet result 5 } }

/-
  Subtract from the conjunction of accumulator and X into X,
  without borrow and with the flags of a comparison.
-/
def subtractIntoX
    (r : Registers)
    (operand : UInt8) : Registers :=
  let value := r.a &&& r.x
  { r.compare value operand with x := value - operand }

end Registers

end Famicom
