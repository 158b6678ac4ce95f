import Famicom.Proofs.Cpu.EffectiveAddresses

/-
  Arithmetic on numbers of several bytes.

  The processor adds and subtracts bytes, and the carry takes
  what is left over from one pair of bytes to the next.  The
  bytes of the result and the last carry balance with the
  bytes that went in, and the sign of a long number is that
  of its last byte.  Both are shown along the chain.

  Key definitions include:
    * `Bits.number`
    * `Bits.signed`
    * `Bits.Fits`
    * `Session.Executes`
    * `Session.operand?`
    * `Session.Chained`

  Main declarations:
    * `Registers.addWithCarry_balance`
    * `Session.Chained.balance`
    * `Session.Chained.signs`
    * `Session.long_arithmetic`
-/

namespace Famicom

------------------------------------------------------------
-- Long Numbers
------------------------------------------------------------

namespace Bits

/- The number that bytes stand for, the lowest byte first. -/
def number (bytes : List UInt8) : Nat :=
  Nat.ofDigits 256 (bytes.map UInt8.toNat)

/- The number that they stand for in two's complement. -/
def signed (bytes : List UInt8) : Int :=
  (number bytes : Int).bmod (256 ^ bytes.length)

/- Some bytes can hold an integer in two's complement. -/
def Fits
    (bytes : Nat)
    (value : Int) : Prop :=
  -((256 ^ bytes : Nat) : Int) ≤ 2 * value ∧
    2 * value < (256 ^ bytes : Nat)

/- The number is in the upper half, where it is negative. -/
def Negative (bytes : List UInt8) : Prop :=
  256 ^ bytes.length ≤ 2 * number bytes

variable {low : UInt8} {bytes : List UInt8}

theorem number_cons
    (low : UInt8)
    (bytes : List UInt8) :
    number (low :: bytes) = low.toNat + 256 * number bytes :=
  Nat.ofDigits_cons

theorem number_lt (bytes : List UInt8) :
    number bytes < 256 ^ bytes.length := by
  have hDigits :
      ∀ digit ∈ bytes.map UInt8.toNat, digit < 256 := by
    intro digit hDigit
    rcases List.mem_map.mp hDigit with ⟨byte, -, rfl⟩
    exact byte.toNat_lt
  have hBound :=
    Nat.ofDigits_lt_base_pow_length (by decide) hDigits
  rw [List.length_map] at hBound
  exact hBound

/- Complements add up to the largest number. -/
theorem number_complement (bytes : List UInt8) :
    number (bytes.map (~~~·)) + number bytes + 1 =
      256 ^ bytes.length := by
  induction bytes with
  | nil => rfl
  | cons low bytes ih =>
      have hLow : low.toNat < 256 := low.toNat_lt
      have hComplement : (~~~low).toNat = 255 - low.toNat :=
        UInt8.toNat_not low
      rw [List.map_cons, number_cons, number_cons,
        List.length_cons, Nat.pow_succ, ← ih, hComplement]
      omega

/- There is a half of the numbers of one byte or more. -/
theorem exists_half (hBytes : bytes ≠ []) :
    ∃ half, 256 ^ bytes.length = 2 * half := by
  rcases List.exists_cons_of_ne_nil hBytes with
    ⟨low, rest, rfl⟩
  refine ⟨128 * 256 ^ rest.length, ?_⟩
  rw [List.length_cons, Nat.pow_succ]
  omega

theorem negative_singleton (byte : UInt8) :
    Negative [byte] ↔ 128 ≤ byte.toNat := by
  unfold Negative
  rw [number_cons]
  simp only [List.length_singleton, number, List.map_nil,
    Nat.ofDigits_nil]
  omega

/- The sign is that of the bytes behind the first one. -/
theorem negative_cons (hBytes : bytes ≠ []) :
    Negative (low :: bytes) ↔ Negative bytes := by
  have hLow : low.toNat < 256 := low.toNat_lt
  rcases exists_half hBytes with ⟨half, hHalf⟩
  unfold Negative
  rw [number_cons, List.length_cons, Nat.pow_succ, hHalf]
  omega

theorem signed_eq (bytes : List UInt8) :
    Negative bytes ∧
        signed bytes =
          number bytes - (256 ^ bytes.length : Nat) ∨
      ¬Negative bytes ∧ signed bytes = number bytes := by
  have hBound := number_lt bytes
  unfold signed
  rw [Int.bmod_def, ← Int.natCast_emod,
    Nat.mod_eq_of_lt hBound]
  unfold Negative
  by_cases hSign : 256 ^ bytes.length ≤ 2 * number bytes
  · exact .inl ⟨hSign, if_neg (by omega)⟩
  · exact .inr ⟨hSign, if_pos (by omega)⟩

/- The upper half has the highest bit set. -/
theorem testBit_highest_iff (hBytes : bytes ≠ []) :
    (number bytes).testBit (8 * bytes.length - 1) = true ↔
      Negative bytes := by
  have hBound := number_lt bytes
  have hLength := List.length_pos_of_ne_nil hBytes
  have hPower :
      256 ^ bytes.length =
        2 * 2 ^ (8 * bytes.length - 1) := by
    rw [← Nat.pow_succ']
    have hPlaces :
        (8 * bytes.length - 1).succ = 8 * bytes.length := by
      omega
    rw [hPlaces, Nat.pow_mul]
  unfold Negative
  rw [hPower] at hBound ⊢
  constructor
  · intro hBit
    have hPlace := Nat.ge_two_pow_of_testBit hBit
    omega
  · intro hUpper
    apply Nat.testBit_of_two_pow_le_and_two_pow_add_one_gt
    · omega
    · rw [Nat.pow_succ']
      exact hBound

/- The highest bit of a byte tells its sign. -/
theorem toNat_bit_seven (value : UInt8) :
    (bit value 7).toNat = value.toNat / 128 := by
  have hValue : value.toNat < 256 := value.toNat_lt
  have hPlace :
      (bit value 7).toNat = value.toNat / 128 % 2 :=
    toNat_bit value 7 (by decide)
  omega

theorem isSet_seven_iff (value : UInt8) :
    isSet value 7 = true ↔ Negative [value] := by
  have hPlace := toNat_bit_seven value
  have hValue : value.toNat < 256 := value.toNat_lt
  have hOne : (1 : UInt8).toNat = 1 := rfl
  unfold isSet
  rw [negative_singleton, beq_iff_eq, ← UInt8.toNat_inj]
  omega

theorem bit_seven_eq_iff (a b : UInt8) :
    bit a 7 = bit b 7 ↔ (Negative [a] ↔ Negative [b]) := by
  have hFirst := toNat_bit_seven a
  have hSecond := toNat_bit_seven b
  have hA : a.toNat < 256 := a.toNat_lt
  have hB : b.toNat < 256 := b.toNat_lt
  rw [negative_singleton, negative_singleton,
    ← UInt8.toNat_inj]
  omega

/-
  Bytes and flags are the sum of two numbers of as many
  bytes.  The carry tells that the sum takes more bytes than
  that, and the overflow that it does if signs count.
-/
structure IsSum
    (augend addend sum : List UInt8)
    (status : Status) : Prop where
  length : sum.length = augend.length
  value :
    number sum =
      (number augend + number addend) % 256 ^ augend.length
  carry :
    status.carry = true ↔
      256 ^ augend.length ≤ number augend + number addend
  overflow :
    status.overflow = true ↔
      ¬Fits augend.length (signed augend + signed addend)
  negative :
    status.negative =
      (number sum).testBit (8 * augend.length - 1)

/-
  Bytes and flags are the difference of two numbers of as
  many bytes.  The carry tells that it is not below zero.
-/
structure IsDifference
    (minuend subtrahend difference : List UInt8)
    (status : Status) : Prop where
  length : difference.length = minuend.length
  value :
    (number difference : Int) =
      ((number minuend : Int) - number subtrahend) %
        (256 ^ minuend.length : Nat)
  carry :
    status.carry = true ↔
      number subtrahend ≤ number minuend
  overflow :
    status.overflow = true ↔
      ¬Fits minuend.length
        (signed minuend - signed subtrahend)
  negative :
    status.negative =
      (number difference).testBit (8 * minuend.length - 1)

variable {a b result : List UInt8} {status : Status}

/- Either the carry makes up for the size, or it need not. -/
theorem carry_cases
    {size value total : Nat}
    {carry : Bool}
    (hBalance : value + size * carry.toNat = total) :
    carry = true ∧ value + size = total ∨
      carry = false ∧ value = total := by
  cases carry with
  | true =>
      rw [Bool.toNat_true, Nat.mul_one] at hBalance
      exact .inl ⟨rfl, hBalance⟩
  | false =>
      rw [Bool.toNat_false, Nat.mul_zero] at hBalance
      exact .inr ⟨rfl, hBalance⟩

theorem negative_eq_testBit
    (hLength : result.length = a.length)
    (hBytes : result ≠ [])
    (hNegative : status.negative = true ↔ Negative result) :
    status.negative =
      (number result).testBit (8 * a.length - 1) := by
  rw [Bool.eq_iff_iff, hNegative, ← hLength,
    testBit_highest_iff hBytes]

theorem isSum_of_balance
    (hLength : result.length = a.length)
    (hOperands : b.length = a.length)
    (hBytes : result ≠ [])
    (hBalance :
      number result + 256 ^ a.length * status.carry.toNat =
        number a + number b)
    (hNegative : status.negative = true ↔ Negative result)
    (hOverflow :
      status.overflow = true ↔
        (Negative a ↔ Negative b) ∧
          ¬(Negative b ↔ Negative result)) :
    IsSum a b result status := by
  have hResult := number_lt result
  have hA := number_lt a
  have hB := number_lt b
  have hSignedA := signed_eq a
  have hSignedB := signed_eq b
  unfold Negative at hOverflow hSignedA hSignedB
  rw [hLength] at hResult hOverflow
  rw [hOperands] at hB hSignedB hOverflow
  have hOut := carry_cases hBalance
  refine ⟨hLength, ?_, ?_, ?_,
    negative_eq_testBit hLength hBytes hNegative⟩
  · rw [← hBalance, Nat.add_mul_mod_self_left,
      Nat.mod_eq_of_lt hResult]
  · rcases hOut with ⟨hCarry, hSum⟩ | ⟨hCarry, hSum⟩
    · simp only [hCarry, true_iff]
      omega
    · simp only [hCarry, Bool.false_eq_true, false_iff]
      omega
  · rw [hOverflow]
    unfold Fits
    generalize 256 ^ a.length = size at *
    omega

/- To subtract is to add the complement and one more. -/
theorem isDifference_of_balance
    (hLength : result.length = a.length)
    (hOperands : b.length = a.length)
    (hBytes : result ≠ [])
    (hBalance :
      number result + 256 ^ a.length * status.carry.toNat =
        number a + number (b.map (~~~·)) + 1)
    (hNegative : status.negative = true ↔ Negative result)
    (hOverflow :
      status.overflow = true ↔
        (Negative a ↔ Negative (b.map (~~~·))) ∧
          ¬(Negative (b.map (~~~·)) ↔ Negative result)) :
    IsDifference a b result status := by
  have hResult := number_lt result
  have hA := number_lt a
  have hB := number_lt b
  have hComplement := number_complement b
  have hSignedA := signed_eq a
  have hSignedB := signed_eq b
  unfold Negative at hOverflow hSignedA hSignedB
  rw [List.length_map] at hOverflow
  rw [hLength] at hResult hOverflow
  rw [hOperands] at hB hSignedB hOverflow hComplement
  have hOut := carry_cases hBalance
  refine ⟨hLength, ?_, ?_, ?_,
    negative_eq_testBit hLength hBytes hNegative⟩
  · rcases hOut with ⟨-, hSum⟩ | ⟨-, hSum⟩
    · have hExact :
          (number a : Int) - number b = number result := by
        omega
      rw [hExact]
      exact (Int.emod_eq_of_lt (by omega) (by omega)).symm
    · have hWrapped :
          (number a : Int) - number b =
            number result - (256 ^ a.length : Nat) := by
        omega
      rw [hWrapped, Int.sub_emod_right]
      exact (Int.emod_eq_of_lt (by omega) (by omega)).symm
  · rcases hOut with ⟨hCarry, hSum⟩ | ⟨hCarry, hSum⟩
    · simp only [hCarry, true_iff]
      omega
    · simp only [hCarry, Bool.false_eq_true, false_iff]
      omega
  · rw [hOverflow]
    unfold Fits
    -- For one byte or more the size is even.
    rcases exists_half hBytes with ⟨half, hHalf⟩
    rw [hLength] at hHalf
    generalize 256 ^ a.length = size at *
    omega

end Bits

------------------------------------------------------------
-- One Byte
------------------------------------------------------------

namespace Registers

variable (r : Registers) (operand : UInt8)

/- The sum and its carry balance with what is added. -/
theorem addWithCarry_balance :
    let sum := r.addWithCarry operand
    sum.a.toNat + 256 * sum.status.carry.toNat =
      r.a.toNat + operand.toNat + r.status.carry.toNat := by
  intro sum
  have hA : r.a.toNat < 256 := r.a.toNat_lt
  have hOperand : operand.toNat < 256 := operand.toNat_lt
  have hIn := r.status.carry.toNat_le
  have hSum :
      sum.a.toNat =
        (r.a.toNat + operand.toNat + r.status.carry.toNat) %
          256 :=
    UInt8.toNat_ofNat'
  have hOut :
      sum.status.carry =
        decide (256 ≤ r.a.toNat + operand.toNat +
          r.status.carry.toNat) :=
    rfl
  rw [hSum, hOut]
  by_cases hWraps :
      256 ≤ r.a.toNat + operand.toNat + r.status.carry.toNat
  · rw [decide_eq_true hWraps, Bool.toNat_true]
    omega
  · rw [decide_eq_false hWraps, Bool.toNat_false]
    omega

theorem addWithCarry_negative :
    let sum := r.addWithCarry operand
    sum.status.negative = true ↔ Bits.Negative [sum.a] :=
  Bits.isSet_seven_iff _

/- Equal signs have given the other one. -/
theorem addWithCarry_overflow :
    let sum := r.addWithCarry operand
    sum.status.overflow = true ↔
      (Bits.Negative [r.a] ↔ Bits.Negative [operand]) ∧
        ¬(Bits.Negative [operand] ↔ Bits.Negative [sum.a]) := by
  intro sum
  rw [← Bits.bit_seven_eq_iff, ← Bits.bit_seven_eq_iff]
  show signOverflows r.a operand sum.a = true ↔ _
  unfold signOverflows
  rw [Bool.and_eq_true, beq_iff_eq, bne_iff_ne]

/-
  A comparison changes three flags, and they are those of a
  subtraction without borrow.
-/
theorem compare_eq_subtract (register : UInt8) :
    let difference :=
      ({ r.putFlag .carry true with a := register }
        ).subtractWithBorrow operand
    r.compare register operand =
      { r with
        status :=
          { r.status with
            negative := difference.status.negative
            zero := difference.status.zero
            carry := difference.status.carry } } := by
  intro difference
  have hRegister : register.toNat < 256 := register.toNat_lt
  have hOperand : operand.toNat < 256 := operand.toNat_lt
  have hComplement :
      (~~~operand).toNat = 255 - operand.toNat :=
    UInt8.toNat_not operand
  have hResult : difference.a = register - operand := by
    apply UInt8.toNat_inj.mp
    have hTotal :
        difference.a.toNat =
          (register.toNat + (~~~operand).toNat + 1) % 256 :=
      UInt8.toNat_ofNat'
    rw [hTotal, hComplement, UInt8.toNat_sub]
    omega
  have hCarry :
      decide (operand ≤ register) =
        difference.status.carry := by
    show decide (operand ≤ register) =
      decide (256 ≤ register.toNat + (~~~operand).toNat + 1)
    rw [decide_eq_decide, hComplement, UInt8.le_iff_toNat_le]
    omega
  unfold compare Status.setZeroNegative
  rw [hCarry, ← hResult]
  rfl

end Registers

/- The register that an operation compares, if it does. -/
def ReadOp.compared?
    (r : Registers) : ReadOp → Option UInt8
  | cmp => some r.a
  | cpx => some r.x
  | cpy => some r.y
  | _ => none

theorem ReadOp.apply_of_compared
    {op : ReadOp}
    {r : Registers}
    {register : UInt8}
    (hCompared : op.compared? r = some register)
    (operand : UInt8) :
    op.apply r operand = r.compare register operand := by
  cases op <;> cases hCompared <;> rfl

------------------------------------------------------------
-- Chains
------------------------------------------------------------

namespace Session

variable {β : Type} [AddressBus β]

/- The next step executes an operation. -/
def Executes
    (s : Session β)
    (operation : Operation) : Prop :=
  ∃ opcode,
    s.fetched? = some opcode ∧
      (s.cpu.table.lookup opcode).operation = operation

/- The last byte of the next step's traffic. -/
def operand? (s : Session β) : Option UInt8 :=
  s.traffic.getLast?.map BusAccess.value

variable {s last : Session β}
variable {op : ReadOp}

/- What the operation does is done to the last byte read. -/
theorem outcome_of_read
    (hExecutes : s.Executes (.read op)) :
    ∃ operand done pc,
      s.operand? = some operand ∧
        s.outcome = .ok done ∧
        done.cpu.registers =
          op.apply { s.cpu.registers with pc } operand := by
  rcases hExecutes with ⟨opcode, hFetched, hOperation⟩
  have hExecuted :
      (s.cpu.table.lookup opcode).isNeverExecuted = false := by
    unfold Instruction.isNeverExecuted
    rw [hOperation]
    rfl
  rcases Cpu.step_addresses
    (fetched?_eq_some_iff.mp hFetched) hExecuted with
    ⟨executed, recorded, behind, hStep, hSeen, hAddresses⟩
  unfold Instruction.Addresses at hAddresses
  rw [hOperation] at hAddresses
  rcases hAddresses with
    ⟨address, lookups, value, -, rfl, hApplied⟩
  have hOutcome := s.outcome_recorded
  rw [hStep] at hOutcome
  refine ⟨value, _, _, ?_, hOutcome, hApplied⟩
  unfold operand? traffic
  rw [hStep, hSeen, ← List.cons_append,
    List.getLast?_concat]
  rfl

/- The registers after the operation on a known operand. -/
theorem next_of_read
    {operand : UInt8}
    (hExecutes : s.Executes (.read op))
    (hOperand : s.operand? = some operand) :
    ∃ pc, s.next.cpu.registers =
      op.apply { s.cpu.registers with pc } operand := by
  rcases outcome_of_read hExecutes with
    ⟨value, done, pc, hValue, hOutcome, hApplied⟩
  cases hValue.symm.trans hOperand
  rw [(next_of_ok hOutcome).1]
  exact ⟨pc, hApplied⟩

theorem next_of_implied
    {op : RegisterOp}
    (hExecutes : s.Executes (.implied op)) :
    ∃ pc, s.next.cpu.registers =
      op.apply { s.cpu.registers with pc } := by
  rcases hExecutes with ⟨opcode, hFetched, hOperation⟩
  have hStep := Cpu.step_of_fetches
    (fetched?_eq_some_iff.mp hFetched)
  unfold Instruction.execute at hStep
  rw [hOperation] at hStep
  have hOutcome : s.outcome = .ok _ := congrArg Prod.fst hStep
  rw [(next_of_ok hOutcome).1]
  exact ⟨_, rfl⟩

/- The session after an execution that is known. -/
theorem next_of_executed
    {opcode : UInt8}
    {i : Instruction}
    {done : Executed}
    (hFetches : s.cpu.Fetches s.lines s.bus opcode)
    (hEntry : s.cpu.table.lookup opcode = i)
    (hDone :
      (i.execute s.cpu.registers
        (AddressBus.read s.cpu.registers.pc s.bus).2).1 =
        .ok done) :
    s.next =
      ⟨{ s.cpu with registers := done.registers }, s.lines,
        (i.execute s.cpu.registers
          (AddressBus.read s.cpu.registers.pc s.bus).2).2⟩ := by
  subst hEntry
  unfold next
  rw [Cpu.step_of_fetches hFetches]
  generalize (s.cpu.table.lookup opcode).execute
    s.cpu.registers
    (AddressBus.read s.cpu.registers.pc s.bus).2 = run
    at hDone ⊢
  rcases run with ⟨result, bus⟩
  cases hDone
  rfl

/-
  An operation is executed for one pair of bytes after the
  other.  The first byte of a pair is in the accumulator and
  the second is the operand, and the result is left in the
  accumulator.  Whatever happens in between leaves the carry
  alone.
-/
inductive Chained
    (op : ReadOp) :
    Session β → List (UInt8 × UInt8) → List UInt8 →
      Session β → Prop
  | done (s : Session β) : Chained op s [] [] s
  | step {s t last : Session β}
      {operand : UInt8}
      {pairs : List (UInt8 × UInt8)}
      {results : List UInt8}
      (events : List Event)
      (hRun : s.run events = t)
      (hCarry :
        t.cpu.registers.status.carry =
          s.cpu.registers.status.carry)
      (hExecutes : t.Executes (.read op))
      (hOperand : t.operand? = some operand)
      (hRest : Chained op t.next pairs results last) :
      Chained op s ((t.cpu.registers.a, operand) :: pairs)
        (t.next.cpu.registers.a :: results) last

namespace Chained

variable {pairs : List (UInt8 × UInt8)}
variable {results : List UInt8}
variable {addend : UInt8 → UInt8}

/- A chain can start with the next step. -/
theorem here
    {t : Session β}
    {operand : UInt8}
    (hExecutes : s.Executes (.read op))
    (hOperand : s.operand? = some operand)
    (hNext : s.next = t)
    (hRest : Chained op t pairs results last) :
    Chained op s ((s.cpu.registers.a, operand) :: pairs)
      (t.cpu.registers.a :: results) last := by
  subst hNext
  exact .step [] rfl rfl hExecutes hOperand hRest

theorem length
    (hChained : Chained op s pairs results last) :
    results.length = pairs.length := by
  induction hChained with
  | done => rfl
  | step _ _ _ _ _ _ ih => exact congrArg (· + 1) ih

theorem results_ne_nil
    (hChained : Chained op s pairs results last)
    (hPairs : pairs ≠ []) : results ≠ [] := by
  rw [← List.length_pos_iff, hChained.length]
  exact List.length_pos_of_ne_nil hPairs

/-
  The bytes of the result and the last carry balance with
  the bytes that are added and the first carry.
-/
theorem balance
    (hOp : ∀ r operand,
      op.apply r operand = r.addWithCarry (addend operand))
    (hChained : Chained op s pairs results last) :
    Bits.number results +
        256 ^ pairs.length *
          last.cpu.registers.status.carry.toNat =
      Bits.number (pairs.map Prod.fst) +
        Bits.number (pairs.map (addend ·.2)) +
        s.cpu.registers.status.carry.toNat := by
  induction hChained with
  | done s => simp [Bits.number]
  | @step s t last operand pairs results
      _ _ hCarry hExecutes hOperand _ ih =>
      rcases next_of_read hExecutes hOperand with ⟨pc, hNext⟩
      have hByte :
          t.next.cpu.registers.a.toNat +
              256 * t.next.cpu.registers.status.carry.toNat =
            t.cpu.registers.a.toNat +
              (addend operand).toNat +
              s.cpu.registers.status.carry.toNat := by
        rw [hNext, hOp, ← hCarry]
        exact Registers.addWithCarry_balance _ _
      rw [List.map_cons, List.map_cons, Bits.number_cons,
        Bits.number_cons, Bits.number_cons, List.length_cons,
        Nat.pow_succ', Nat.mul_assoc]
      dsimp only
      omega

/- The last pair of bytes decides the signs. -/
theorem signs
    (hOp : ∀ r operand,
      op.apply r operand = r.addWithCarry (addend operand))
    (hChained : Chained op s pairs results last)
    (hPairs : pairs ≠ []) :
    let status := last.cpu.registers.status
    let augends := pairs.map Prod.fst
    let addends := pairs.map (addend ·.2)
    (status.negative = true ↔ Bits.Negative results) ∧
      (status.overflow = true ↔
        (Bits.Negative augends ↔ Bits.Negative addends) ∧
          ¬(Bits.Negative addends ↔
            Bits.Negative results)) := by
  induction hChained with
  | done => exact absurd rfl hPairs
  | @step s t last operand pairs results
      _ _ _ hExecutes hOperand hRest ih =>
      rcases next_of_read hExecutes hOperand with ⟨pc, hNext⟩
      by_cases hLast : pairs = []
      · -- The last byte is the only one that is left.
        subst hLast
        cases hRest
        rw [hNext, hOp]
        exact ⟨Registers.addWithCarry_negative _ _,
          Registers.addWithCarry_overflow _ _⟩
      · have hResults := hRest.results_ne_nil hLast
        have hBytes (f : UInt8 × UInt8 → UInt8) :
            pairs.map f ≠ [] :=
          mt List.map_eq_nil_iff.mp hLast
        simp only [List.map_cons, Bits.negative_cons hResults,
          Bits.negative_cons (hBytes _)]
        exact ih hLast

theorem isSum
    (hChained : Chained .adc s pairs results last)
    (hCarry : s.cpu.registers.status.carry = false)
    (hPairs : pairs ≠ []) :
    Bits.IsSum (pairs.map Prod.fst) (pairs.map Prod.snd)
      results last.cpu.registers.status := by
  have hOp (r : Registers) (operand : UInt8) :
      ReadOp.adc.apply r operand =
        r.addWithCarry (id operand) :=
    rfl
  have hBalance := hChained.balance hOp
  have hSigns := hChained.signs hOp hPairs
  rw [hCarry] at hBalance
  apply Bits.isSum_of_balance
  · rw [List.length_map]
    exact hChained.length
  · rw [List.length_map, List.length_map]
  · exact hChained.results_ne_nil hPairs
  · rw [List.length_map]
    exact hBalance
  · exact hSigns.1
  · exact hSigns.2

theorem isDifference
    (hChained : Chained .sbc s pairs results last)
    (hCarry : s.cpu.registers.status.carry = true)
    (hPairs : pairs ≠ []) :
    Bits.IsDifference (pairs.map Prod.fst)
      (pairs.map Prod.snd) results
      last.cpu.registers.status := by
  have hOp (r : Registers) (operand : UInt8) :
      ReadOp.sbc.apply r operand = r.addWithCarry (~~~operand) :=
    rfl
  have hBalance := hChained.balance hOp
  have hSigns := hChained.signs hOp hPairs
  have hAddends :
      pairs.map (~~~·.2) = (pairs.map Prod.snd).map (~~~·) :=
    List.map_map.symm
  rw [hCarry] at hBalance
  rw [hAddends] at hBalance hSigns
  apply Bits.isDifference_of_balance
  · rw [List.length_map]
    exact hChained.length
  · rw [List.length_map, List.length_map]
  · exact hChained.results_ne_nil hPairs
  · rw [List.length_map]
    exact hBalance
  · exact hSigns.1
  · exact hSigns.2

end Chained

/-
  Addition, subtraction and comparison in a session, whatever
  the registers, the decimal flag among them, and the bus
  hold.  Cleared carry and a chain of ADCs give the sum of
  two numbers, and set carry and a chain of SBCs give their
  difference.  CMP, CPX and CPY take the next operand from a
  register with set carry, and keep three flags of it.
-/
theorem long_arithmetic (s : Session β) :
    (∀ pairs results last,
      pairs ≠ [] →
      s.Executes (.implied .clc) →
      Chained .adc s.next pairs results last →
      Bits.IsSum (pairs.map Prod.fst) (pairs.map Prod.snd)
        results last.cpu.registers.status) ∧
    (∀ pairs results last,
      pairs ≠ [] →
      s.Executes (.implied .sec) →
      Chained .sbc s.next pairs results last →
      Bits.IsDifference (pairs.map Prod.fst)
        (pairs.map Prod.snd) results
        last.cpu.registers.status) ∧
    (∀ op register,
      op.compared? s.cpu.registers = some register →
      s.Executes (.read op) →
      ∃ operand done pc,
        let r := s.cpu.registers
        let difference :=
          ReadOp.sbc.apply
            { RegisterOp.sec.apply r with a := register }
            operand
        s.operand? = some operand ∧
          s.outcome = .ok done ∧
          done.cpu.registers =
            { r with
              pc
              status :=
                { r.status with
                  negative := difference.status.negative
                  zero := difference.status.zero
                  carry := difference.status.carry } }) := by
  refine ⟨?_, ?_, ?_⟩
  · intro pairs results last hPairs hClears hChained
    rcases next_of_implied hClears with ⟨pc, hNext⟩
    refine hChained.isSum ?_ hPairs
    rw [hNext]
    rfl
  · intro pairs results last hPairs hSets hChained
    rcases next_of_implied hSets with ⟨pc, hNext⟩
    refine hChained.isDifference ?_ hPairs
    rw [hNext]
    rfl
  · intro op register hCompared hExecutes
    rcases outcome_of_read hExecutes with
      ⟨operand, done, pc, hOperand, hOutcome, hApplied⟩
    refine ⟨operand, done, pc, hOperand, hOutcome, ?_⟩
    have hHere :
        op.compared? { s.cpu.registers with pc } =
          some register := by
      cases op <;> exact hCompared
    rw [hApplied, ReadOp.apply_of_compared hHere,
      Registers.compare_eq_subtract]
    rfl

/-
  $59F0 and $6969 are added with the decimal flag set.  The
  accumulator is not loaded in between, so the second byte
  of the first number is the first one of the sum.
-/
theorem added_two_bytes :
    ∃ (s last : Session Ram),
      s.cpu.registers.status.decimal = true ∧
        s.Executes (.implied .clc) ∧
        Chained .adc s.next [(0xF0, 0x69), (0x59, 0x69)]
          [0x59, 0xC3] last ∧
        Bits.IsSum [0xF0, 0x59] [0x69, 0x69] [0x59, 0xC3]
          last.cpu.registers.status ∧
        last.cpu.registers.status.overflow = true := by
  let memory := (Ram.filled 0x0100 0x69).write 0 0x18
  let clc : Instruction :=
    { opcode := 0x18, name := "CLC", operation := .implied .clc
      mode := .implied, cycles := 2 }
  let adc : Instruction :=
    { opcode := 0x69, name := "ADC", operation := .read .adc
      mode := .immediate, cycles := 2 }
  rcases OpcodeTable.atFidelity_isOk .strict with
    ⟨table, hTable⟩
  have hClc : table.lookup 0x18 = clc := by
    apply OpcodeTable.lookup_eq_of_mem hTable (i := clc)
    decide +kernel
  have hAdc : table.lookup 0x69 = adc := by
    apply OpcodeTable.lookup_eq_of_mem hTable (i := adc)
    decide +kernel
  let set : Registers :=
    { Registers.blank with
      a := 0xF0
      status := { decimal := true, carry := true } }
  let clear : Registers :=
    { set with pc := 1, status := { decimal := true } }
  let once : Registers :=
    { set with
      pc := 3, a := 0x59
      status := { decimal := true, carry := true } }
  let twice : Registers :=
    { set with
      pc := 5, a := 0xC3
      status :=
        { decimal := true, negative := true
          overflow := true } }
  let session (r : Registers) : Session Ram :=
    ⟨⟨table, r, true⟩, {}, memory⟩
  have hClears :
      (session set).Executes (.implied .clc) ∧
        (session set).next = session clear := by
    have hOpcode :
        (AddressBus.read set.pc memory).1 = 0x18 := by
      decide +kernel
    have hFetches :
        Cpu.Fetches ⟨table, set, true⟩ {} memory 0x18 :=
      ⟨rfl, hOpcode⟩
    refine ⟨⟨0x18, fetched?_eq_some_iff.mpr hFetches,
      congrArg Instruction.operation hClc⟩, ?_⟩
    have hDone :
        (clc.execute set memory).1 = .ok ⟨clear, 2⟩ := by
      decide +kernel
    exact next_of_executed (s := session set) hFetches hClc
      hDone
  have hAdds
      (r r' : Registers)
      (hOpcode : (AddressBus.read r.pc memory).1 = 0x69)
      (hDone : (adc.execute r memory).1 = .ok ⟨r', 2⟩)
      (hLast :
        (adc.execute r
            (AddressBus.read r.pc
              ({ bus := memory } : Recorded Ram)).2
          ).2.accesses.getLast?.map BusAccess.value =
          some 0x69) :
      (session r).Executes (.read .adc) ∧
        (session r).operand? = some 0x69 ∧
        (session r).next = session r' := by
    have hFetches :
        Cpu.Fetches ⟨table, r, true⟩ {} memory 0x69 :=
      ⟨rfl, hOpcode⟩
    have hRecorded :
        Cpu.Fetches ⟨table, r, true⟩ {}
          ({ bus := memory } : Recorded Ram) 0x69 :=
      ⟨rfl, hOpcode⟩
    have hTraffic := Cpu.step_of_fetches hRecorded
    rw [hAdc] at hTraffic
    refine ⟨⟨0x69, fetched?_eq_some_iff.mpr hFetches,
      congrArg Instruction.operation hAdc⟩, ?_, ?_⟩
    · unfold operand? traffic
      rw [hTraffic]
      exact hLast
    · exact next_of_executed (s := session r) hFetches hAdc
        hDone
  rcases hClears with ⟨hClear, hCleared⟩
  rcases hAdds clear once (by decide +kernel)
    (by decide +kernel) (by decide +kernel) with
    ⟨hFirst, hLow, hOnce⟩
  rcases hAdds once twice (by decide +kernel)
    (by decide +kernel) (by decide +kernel) with
    ⟨hSecond, hHigh, hTwice⟩
  have hBoth :
      Chained .adc (session clear)
        [(0xF0, 0x69), (0x59, 0x69)] [0x59, 0xC3]
        (session twice) :=
    .here hFirst hLow hOnce
      (.here hSecond hHigh hTwice (.done _))
  rw [← hCleared] at hBoth
  have hSum := (long_arithmetic (session set)).1 _ _ _
    (by decide) hClear hBoth
  exact ⟨session set, session twice, rfl, hClear, hBoth,
    hSum, rfl⟩

end Session

end Famicom
