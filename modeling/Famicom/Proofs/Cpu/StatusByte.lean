import Famicom.Cpu.Status
import Famicom.Proofs.Words

/-
  The bytes of the processor status.

  A flag is a place of the byte.  To put a flag is to set or
  to clear its bit, except that the bit without storage stays
  set.  So a status is a byte that these operations make, and
  the bit without storage is one because they all keep it.

  Key definitions include:
    * `StatusFlag.place`
    * `StatusByte`

  Main declarations:
    * `StatusFlag.eq_of_isSet`
    * `Status.isSet_toByte`
    * `Status.toByte_ofByte`
    * `Status.toByte_put_true`
    * `Status.toByte_put_false`
    * `Status.toByte_ofStack`
    * `StatusByte.iff_exists_toByte`
    * `Status.isSet_toByte_unused`
-/

namespace Famicom

------------------------------------------------------------
-- Bits
------------------------------------------------------------

namespace Bits

variable {place : UInt8}

theorem isSet_eq_testBit
    (value : UInt8)
    (hPlace : place.toNat < 8) :
    isSet value place = value.toNat.testBit place.toNat := by
  unfold isSet
  rw [Bool.eq_iff_iff, beq_iff_eq, ← UInt8.toNat_inj,
    toNat_bit value place hPlace, bitAt_eq_testBit]
  exact Bool.toNat_eq_one

theorem isSet_or
    (a b : UInt8)
    (hPlace : place.toNat < 8) :
    isSet (a ||| b) place =
      (isSet a place || isSet b place) := by
  rw [isSet_eq_testBit _ hPlace, isSet_eq_testBit _ hPlace,
    isSet_eq_testBit _ hPlace, UInt8.toNat_or,
    Nat.testBit_or]

theorem isSet_and
    (a b : UInt8)
    (hPlace : place.toNat < 8) :
    isSet (a &&& b) place =
      (isSet a place && isSet b place) := by
  rw [isSet_eq_testBit _ hPlace, isSet_eq_testBit _ hPlace,
    isSet_eq_testBit _ hPlace, UInt8.toNat_and,
    Nat.testBit_and]

theorem isSet_not
    (value : UInt8)
    (hPlace : place.toNat < 8) :
    isSet (~~~value) place = !isSet value place := by
  rw [isSet_eq_testBit _ hPlace, isSet_eq_testBit _ hPlace,
    UInt8.toNat_not, Nat.sub_sub, Nat.add_comm 1]
  have hInside :=
    Nat.testBit_two_pow_sub_succ value.toNat_lt place.toNat
  rw [decide_eq_true hPlace, Bool.true_and] at hInside
  exact hInside

end Bits

------------------------------------------------------------
-- Flags
------------------------------------------------------------

namespace StatusFlag

/- The place of a flag, counted from the lowest bit. -/
def place : StatusFlag → UInt8
  | negative => 7
  | overflow => 6
  | unused => 5
  | breakMark => 4
  | decimal => 3
  | interruptDisable => 2
  | zero => 1
  | carry => 0

theorem place_lt (flag : StatusFlag) :
    flag.place.toNat < 8 := by
  cases flag <;> decide

/- Every place belongs to a flag. -/
theorem exists_place
    {number : Nat}
    (hNumber : number < 8) :
    ∃ flag : StatusFlag, flag.place.toNat = number := by
  interval_cases number
  · exact ⟨carry, rfl⟩
  · exact ⟨zero, rfl⟩
  · exact ⟨interruptDisable, rfl⟩
  · exact ⟨decimal, rfl⟩
  · exact ⟨breakMark, rfl⟩
  · exact ⟨unused, rfl⟩
  · exact ⟨overflow, rfl⟩
  · exact ⟨negative, rfl⟩

/- Bytes are equal when they agree on every flag. -/
theorem eq_of_isSet
    {a b : UInt8}
    (hFlags : ∀ flag : StatusFlag,
      Bits.isSet a flag.place = Bits.isSet b flag.place) :
    a = b := by
  apply UInt8.toNat_inj.mp
  apply Nat.eq_of_testBit_eq
  intro number
  rcases Nat.lt_or_ge number 8 with hInside | hBeyond
  · rcases exists_place hInside with ⟨flag, rfl⟩
    rw [← Bits.isSet_eq_testBit _ flag.place_lt,
      ← Bits.isSet_eq_testBit _ flag.place_lt]
    exact hFlags flag
  · have hWidth : 2 ^ 8 ≤ 2 ^ number :=
      Nat.pow_le_pow_right (by decide) hBeyond
    rw [Nat.testBit_lt_two_pow (a.toNat_lt.trans_le hWidth),
      Nat.testBit_lt_two_pow (b.toNat_lt.trans_le hWidth)]

/- The mask of a flag is a one at its place. -/
theorem mask_eq (flag : StatusFlag) :
    flag.mask = Bits.ofBool true <<< flag.place := by
  cases flag <;> rfl

/- A truth value that is moved to the place of a flag. -/
theorem isSet_ofBool_shiftLeft
    (value : Bool)
    (flag other : StatusFlag) :
    Bits.isSet (Bits.ofBool value <<< flag.place)
        other.place =
      (value && decide (other = flag)) := by
  cases value <;> cases flag <;> cases other <;> rfl

theorem isSet_mask (flag other : StatusFlag) :
    Bits.isSet flag.mask other.place =
      decide (other = flag) := by
  rw [mask_eq, isSet_ofBool_shiftLeft, Bool.true_and]

theorem isSet_not_mask (flag other : StatusFlag) :
    Bits.isSet (~~~flag.mask) other.place =
      !decide (other = flag) := by
  rw [Bits.isSet_not _ other.place_lt, isSet_mask]

end StatusFlag

------------------------------------------------------------
-- Statuses
------------------------------------------------------------

namespace Status

/- Statuses are equal when they agree on every flag. -/
theorem eq_of_get
    {a b : Status}
    (hFlags : ∀ flag, a.get flag = b.get flag) : a = b := by
  rcases a with ⟨⟩
  rcases b with ⟨⟩
  rw [mk.injEq]
  exact ⟨hFlags .negative, hFlags .overflow,
    hFlags .breakMark, hFlags .decimal,
    hFlags .interruptDisable, hFlags .zero, hFlags .carry⟩

theorem get_put
    (status : Status)
    (flag : StatusFlag)
    (value : Bool)
    (other : StatusFlag) :
    (status.put flag value).get other =
      if other = flag ∧ flag ≠ .unused then value
      else status.get other := by
  cases flag <;> cases other <;> rfl

theorem get_ofByte
    (value : UInt8)
    (flag : StatusFlag) :
    (ofByte value).get flag =
      (Bits.isSet value flag.place ||
        decide (flag = .unused)) := by
  cases flag <;>
    simp [ofByte, get, StatusFlag.place]

/- The byte collects the flags at their places. -/
theorem toByte_eq (status : Status) :
    status.toByte =
      (Bits.ofBool status.negative <<<
        StatusFlag.negative.place) |||
      (Bits.ofBool status.overflow <<<
        StatusFlag.overflow.place) |||
      StatusFlag.unused.mask |||
      (Bits.ofBool status.breakMark <<<
        StatusFlag.breakMark.place) |||
      (Bits.ofBool status.decimal <<<
        StatusFlag.decimal.place) |||
      (Bits.ofBool status.interruptDisable <<<
        StatusFlag.interruptDisable.place) |||
      (Bits.ofBool status.zero <<< StatusFlag.zero.place) |||
      (Bits.ofBool status.carry <<<
        StatusFlag.carry.place) := by
  have hCarry : Bits.ofBool status.carry <<<
      StatusFlag.carry.place = Bits.ofBool status.carry :=
    UInt8.shiftLeft_zero
  rw [hCarry]
  rfl

/- A bit of the byte is a flag of the status. -/
theorem isSet_toByte
    (status : Status)
    (flag : StatusFlag) :
    Bits.isSet status.toByte flag.place =
      status.get flag := by
  rw [toByte_eq]
  simp only [Bits.isSet_or _ _ flag.place_lt,
    StatusFlag.isSet_ofBool_shiftLeft, StatusFlag.isSet_mask]
  cases flag <;> simp [get]

/- A status is read back from its byte. -/
theorem ofByte_toByte (status : Status) :
    ofByte status.toByte = status := by
  apply eq_of_get
  intro flag
  rw [get_ofByte, isSet_toByte]
  cases flag <;> simp [get]

/- A byte is written back with the bit without storage. -/
theorem toByte_ofByte (value : UInt8) :
    (ofByte value).toByte = value ||| 0x20 := by
  apply StatusFlag.eq_of_isSet
  intro flag
  rw [isSet_toByte, get_ofByte,
    Bits.isSet_or _ _ flag.place_lt]
  congr 1
  exact (StatusFlag.isSet_mask .unused flag).symm

/- To set a flag is to set its bit. -/
theorem toByte_put_true
    (status : Status)
    (flag : StatusFlag) :
    (status.put flag true).toByte =
      status.toByte ||| flag.mask := by
  apply StatusFlag.eq_of_isSet
  intro other
  rw [isSet_toByte, Bits.isSet_or _ _ other.place_lt,
    isSet_toByte, StatusFlag.isSet_mask, get_put]
  by_cases hSame : other = flag
  · subst hSame
    cases other <;> simp [get]
  · simp [hSame]

/-
  To clear a flag is to clear its bit, except for the bit
  without storage.
-/
theorem toByte_put_false
    (status : Status)
    (flag : StatusFlag) :
    (status.put flag false).toByte =
      if flag = .unused then status.toByte
      else status.toByte &&& ~~~flag.mask := by
  by_cases hUnused : flag = .unused
  · rw [if_pos hUnused, hUnused]
    rfl
  · rw [if_neg hUnused]
    apply StatusFlag.eq_of_isSet
    intro other
    rw [isSet_toByte, Bits.isSet_and _ _ other.place_lt,
      isSet_toByte, StatusFlag.isSet_not_mask, get_put]
    by_cases hSame : other = flag
    · simp [hSame, hUnused]
    · simp [hSame]

/- The copy of a status that software puts on the stack. -/
theorem toStack_true (status : Status) :
    status.toStack true = status.toByte ||| 0x10 :=
  status.toByte_put_true .breakMark

/- The copy that a hardware interrupt puts on the stack. -/
theorem toStack_false (status : Status) :
    status.toStack false = status.toByte &&& 0xEF :=
  status.toByte_put_false .breakMark

/- A copy on the stack loses its break flag. -/
theorem toByte_ofStack (value : UInt8) :
    (ofStack value).toByte = (value ||| 0x20) &&& 0xEF := by
  rw [← toByte_ofByte]
  exact (ofByte value).toByte_put_false .breakMark

/- The copy on the stack tells who has pushed it. -/
theorem isSet_toStack_breakMark
    (status : Status)
    (software : Bool) :
    Bits.isSet (status.toStack software) 4 = software :=
  isSet_toByte (status.put .breakMark software) .breakMark

/- But for the break flag, nothing is lost on the stack. -/
theorem ofStack_toStack
    {status : Status}
    (hStored : status.breakMark = false)
    (software : Bool) :
    ofStack (status.toStack software) = status := by
  unfold ofStack toStack
  rw [ofByte_toByte, ← hStored]

end Status

------------------------------------------------------------
-- Bytes Made by the Operations
------------------------------------------------------------

/-
  The bytes that the operations on a status make: of any byte,
  by setting a flag, and by clearing a flag that has storage.
-/
inductive StatusByte : UInt8 → Prop where
  | ofByte (value : UInt8) : StatusByte (value ||| 0x20)
  | set
      {byte : UInt8}
      (flag : StatusFlag)
      (hByte : StatusByte byte) :
      StatusByte (byte ||| flag.mask)
  | clear
      {byte : UInt8}
      {flag : StatusFlag}
      (hStored : flag ≠ .unused)
      (hByte : StatusByte byte) :
      StatusByte (byte &&& ~~~flag.mask)

namespace StatusByte

/- No operation clears the bit without storage. -/
theorem isSet_unused
    {byte : UInt8}
    (hByte : StatusByte byte) :
    Bits.isSet byte StatusFlag.unused.place = true := by
  have hPlace := StatusFlag.unused.place_lt
  induction hByte with
  | ofByte value =>
      rw [Bits.isSet_or _ _ hPlace]
      exact Bool.or_true _
  | set flag _ ih =>
      rw [Bits.isSet_or _ _ hPlace, ih]
      rfl
  | clear hStored _ ih =>
      rw [Bits.isSet_and _ _ hPlace, ih,
        StatusFlag.isSet_not_mask,
        decide_eq_false hStored.symm]
      rfl

theorem or_unused
    {byte : UInt8}
    (hByte : StatusByte byte) : byte ||| 0x20 = byte := by
  apply StatusFlag.eq_of_isSet
  intro flag
  rw [Bits.isSet_or _ _ flag.place_lt]
  by_cases hUnused : flag = .unused
  · rw [hUnused, hByte.isSet_unused]
    rfl
  · have hOther : Bits.isSet 0x20 flag.place = false :=
      (StatusFlag.isSet_mask .unused flag).trans
        (decide_eq_false hUnused)
    rw [hOther, Bool.or_false]

end StatusByte

/- The operations make the byte of every status. -/
theorem Status.statusByte_toByte (status : Status) :
    StatusByte status.toByte := by
  have hByte := StatusByte.ofByte status.toByte
  rw [← toByte_ofByte, ofByte_toByte] at hByte
  exact hByte

/- They make no other byte. -/
theorem StatusByte.iff_exists_toByte (byte : UInt8) :
    StatusByte byte ↔
      ∃ status : Status, status.toByte = byte := by
  constructor
  · intro hByte
    exact ⟨.ofByte byte,
      (Status.toByte_ofByte byte).trans hByte.or_unused⟩
  · rintro ⟨status, rfl⟩
    exact status.statusByte_toByte

/- The bit without storage is always one. -/
theorem Status.isSet_toByte_unused (status : Status) :
    Bits.isSet status.toByte 5 = true :=
  status.statusByte_toByte.isSet_unused

end Famicom
