import Famicom.Bits

/-
  The processor status.

  The status is seven flags.  As a byte it has an eighth bit
  that has no storage and always reads as one.  The break
  flag only means something in a copy on the stack, where it
  tells a software interrupt from a hardware one.

  Key definitions include:
    * `Status`
    * `Status.ofByte`
    * `Status.toByte`
    * `Status.toStack`
    * `Status.ofStack`
    * `Status.setZeroNegative`
    * `Status.render`
-/

namespace Famicom

------------------------------------------------------------
-- Flags
------------------------------------------------------------

/- The names of the status bits, highest bit first. -/
inductive StatusFlag where
  | negative
  | overflow
  | unused
  | breakMark
  | decimal
  | interruptDisable
  | zero
  | carry
deriving DecidableEq

namespace StatusFlag

/- All flags, highest bit first. -/
def all : List StatusFlag :=
  [negative, overflow, unused, breakMark, decimal,
    interruptDisable, zero, carry]

/- The place of a flag in the status byte. -/
def mask : StatusFlag → UInt8
  | negative => 0x80
  | overflow => 0x40
  | unused => 0x20
  | breakMark => 0x10
  | decimal => 0x08
  | interruptDisable => 0x04
  | zero => 0x02
  | carry => 0x01

/- The letter of a set flag. -/
def letter : StatusFlag → Char
  | negative => 'N'
  | overflow => 'V'
  | unused => '-'
  | breakMark => 'B'
  | decimal => 'D'
  | interruptDisable => 'I'
  | zero => 'Z'
  | carry => 'C'

end StatusFlag

------------------------------------------------------------
-- Status
------------------------------------------------------------

/- The flags that the processor stores. -/
structure Status where
  negative : Bool := false
  overflow : Bool := false
  breakMark : Bool := false
  decimal : Bool := false
  interruptDisable : Bool := false
  zero : Bool := false
  carry : Bool := false
deriving DecidableEq

namespace Status

/- The status at power-on, with interrupts disabled. -/
def powerOn : Status where
  interruptDisable := true

/- Whether a flag is set.  The unused bit always is. -/
def get
    (status : Status) : StatusFlag → Bool
  | .negative => status.negative
  | .overflow => status.overflow
  | .unused => true
  | .breakMark => status.breakMark
  | .decimal => status.decimal
  | .interruptDisable => status.interruptDisable
  | .zero => status.zero
  | .carry => status.carry

/-
  The status with one flag changed.  The unused bit has no
  storage, so changing it does nothing.
-/
def put
    (status : Status)
    (flag : StatusFlag)
    (value : Bool) : Status :=
  match flag with
  | .negative => { status with negative := value }
  | .overflow => { status with overflow := value }
  | .unused => status
  | .breakMark => { status with breakMark := value }
  | .decimal => { status with decimal := value }
  | .interruptDisable =>
      { status with interruptDisable := value }
  | .zero => { status with zero := value }
  | .carry => { status with carry := value }

/- Record the sign and the zeroness of a result. -/
def setZeroNegative
    (status : Status)
    (result : UInt8) : Status :=
  { status with
    zero := result == 0
    negative := Bits.isSet result 7 }

------------------------------------------------------------
-- Bytes
------------------------------------------------------------

/- The status as a byte. -/
def toByte (status : Status) : UInt8 :=
  (Bits.ofBool status.negative <<< 7) |||
  (Bits.ofBool status.overflow <<< 6) |||
  (0x20 : UInt8) |||
  (Bits.ofBool status.breakMark <<< 4) |||
  (Bits.ofBool status.decimal <<< 3) |||
  (Bits.ofBool status.interruptDisable <<< 2) |||
  (Bits.ofBool status.zero <<< 1) |||
  Bits.ofBool status.carry

/- The status that a byte stands for. -/
def ofByte (value : UInt8) : Status where
  negative := Bits.isSet value 7
  overflow := Bits.isSet value 6
  breakMark := Bits.isSet value 4
  decimal := Bits.isSet value 3
  interruptDisable := Bits.isSet value 2
  zero := Bits.isSet value 1
  carry := Bits.isSet value 0

/-
  The copy put on the stack.  Software pushes mark it with
  the break flag and hardware interrupts do not.
-/
def toStack
    (status : Status)
    (software : Bool) : UInt8 :=
  { status with breakMark := software }.toByte

/-
  The status restored from a copy on the stack.  The break
  flag of the copy has no storage in the processor.
-/
def ofStack (value : UInt8) : Status :=
  { ofByte value with breakMark := false }

------------------------------------------------------------
-- Text
------------------------------------------------------------

/- One letter for each bit, upper-case when it is set. -/
def render (status : Status) : String :=
  String.ofList
    (StatusFlag.all.map fun flag =>
      if status.get flag then
        flag.letter
      else
        flag.letter.toLower)

end Status

end Famicom
