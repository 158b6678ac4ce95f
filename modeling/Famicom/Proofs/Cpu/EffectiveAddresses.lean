import Famicom.Proofs.Cpu.OperandTraffic
import Famicom.Proofs.Cpu.Session

/-
  Where operands are.

  An addressing mode is a rule that takes bytes off the bus
  and gives an address.  The rules add numbers and cut the
  sums off where an address ends: at 8 bits in page zero and
  at 16 bits elsewhere.  They tell every access by which an
  operand is found, and with it the order in which an
  instruction uses the bus.

  Key definitions include:
    * `Registers.behind`
    * `AddressingMode.Indexes`
    * `AddressingMode.Locates`
    * `Instruction.Addresses`

  Main declarations:
    * `AddressingMode.resolve_locates`
    * `Instruction.execute_addresses`
    * `Cpu.step_leaves`
    * `Cpu.step_addresses`
    * `Session.operands_in_place`
-/

namespace Famicom

open Recorded (Leaves)

variable {β : Type} [AddressBus β]

------------------------------------------------------------
-- Words
------------------------------------------------------------

namespace Bits

/- A place of page zero is cut off at 8 bits. -/
theorem toUInt16_add
    (place offset : UInt8) :
    (place + offset).toUInt16 =
      .ofNat ((place.toNat + offset.toNat) % 256) := by
  rw [← UInt8.toNat_add, UInt16.ofNat_uInt8ToNat]

theorem ofNat_word
    (low high : UInt8) :
    .ofNat (256 * high.toNat + low.toNat) =
      word low high := by
  rw [← toNat_word, UInt16.ofNat_toNat]

theorem toNat_inPageOf (page offset : UInt16) :
    (inPageOf page offset).toNat =
      256 * (page.toNat / 256) + offset.toNat % 256 := by
  have hPage := toNat_page page
  have hOffset :
      (offset &&& 0x00FF).toNat = offset.toNat % 256 := by
    rw [UInt16.toNat_and]
    exact Nat.and_two_pow_sub_one_eq_mod offset.toNat 8
  unfold inPageOf
  rw [toNat_or_below (by omega) (by omega), hPage, hOffset]

/- The byte behind a word's address, in the same page. -/
theorem inPageOf_next
    (place page : UInt8) :
    inPageOf (word place page) (word place page + 1) =
      .ofNat (256 * page.toNat + (place.toNat + 1) % 256) := by
  have hPlace : place.toNat < 256 := place.toNat_lt
  have hPage : page.toNat < 256 := page.toNat_lt
  apply UInt16.toNat_inj.mp
  rw [toNat_inPageOf, UInt16.toNat_add, toNat_word,
    UInt16.toNat_ofNat']
  simp only [UInt16.reduceToNat]
  omega

/- A signed byte is added, and the sum is cut off. -/
theorem toNat_displace
    (base : UInt16)
    (offset : UInt8) :
    ((displace base offset).toNat : Int) =
      (base.toNat + offset.toInt8.toInt) % 65536 := by
  have hBase : base.toNat < 65536 := base.toNat_lt
  have hOffset : offset.toNat < 256 := offset.toNat_lt
  have hSum :
      (base + offset.toUInt16).toNat =
        (base.toNat + offset.toNat) % 65536 :=
    UInt16.toNat_add base offset.toUInt16
  have hSigned :
      offset.toInt8.toInt = (offset.toNat : Int).bmod 256 :=
    BitVec.toInt_eq_toNat_bmod offset.toBitVec
  have hBound : offset < 0x80 ↔ offset.toNat < 128 :=
    UInt8.lt_iff_toNat_lt
  unfold displace
  rw [hSigned, Int.bmod_def]
  by_cases hForward : offset < 0x80
  · rw [if_pos hForward, hSum]
    rw [hBound] at hForward
    omega
  · rw [if_neg hForward, UInt16.toNat_sub, hSum]
    rw [hBound] at hForward
    simp only [UInt16.reduceToNat]
    omega

end Bits

namespace Registers

/- The address some places behind the opcode. -/
def behind
    (r : Registers)
    (places : Nat) : UInt16 :=
  .ofNat (r.pc.toNat + places)

theorem behind_one (r : Registers) :
    r.behind 1 = r.pc + 1 := by
  unfold behind
  rw [UInt16.ofNat_add, UInt16.ofNat_toNat]
  rfl

theorem behind_two (r : Registers) :
    r.behind 2 = r.pc + 1 + 1 := by
  rw [← behind_one]
  unfold behind
  exact UInt16.ofNat_add (r.pc.toNat + 1) 1

end Registers

------------------------------------------------------------
-- Operands
------------------------------------------------------------

namespace AddressingMode

/-
  An index is added to a base.  The sum of the low bytes is
  looked at in the base's page if that is not where the sum
  lies, or if the operand is written.
-/
def Indexes
    (base : Nat)
    (index : UInt8)
    (writes : Bool)
    (address : Nat)
    (accesses : List BusAccess) : Prop :=
  address = (base + index.toNat) % 65536 ∧
    if base / 256 ≠ address / 256 ∨ writes = true then
      ∃ value, accesses =
        [.read (.ofNat (256 * (base / 256) + address % 256))
          value]
    else
      accesses = []

/-
  The rules of the addressing modes.  Each gives an address
  and the accesses by which it is found.  `writes` tells
  whether the operand is written.
-/
inductive Locates
    (r : Registers)
    (writes : Bool) :
    AddressingMode → Nat → List BusAccess → Prop
  | adjacent {mode : AddressingMode}
      (hMode : mode.lookups = 0) :
      Locates r writes mode ((r.pc.toNat + 1) % 65536) []
  | zeroPage (place : UInt8) :
      Locates r writes .zeroPage place.toNat
        [.read (r.behind 1) place]
  | zeroPageX (place : UInt8) :
      Locates r writes .zeroPageX
        ((place.toNat + r.x.toNat) % 256)
        [.read (r.behind 1) place]
  | zeroPageY (place : UInt8) :
      Locates r writes .zeroPageY
        ((place.toNat + r.y.toNat) % 256)
        [.read (r.behind 1) place]
  | absolute (low high : UInt8) :
      Locates r writes .absolute
        (256 * high.toNat + low.toNat)
        [.read (r.behind 1) low, .read (r.behind 2) high]
  | absoluteX (low high : UInt8)
      {address : Nat} {fix : List BusAccess}
      (hIndexes :
        Indexes (256 * high.toNat + low.toNat) r.x writes
          address fix) :
      Locates r writes .absoluteX address
        ([.read (r.behind 1) low,
          .read (r.behind 2) high] ++ fix)
  | absoluteY (low high : UInt8)
      {address : Nat} {fix : List BusAccess}
      (hIndexes :
        Indexes (256 * high.toNat + low.toNat) r.y writes
          address fix) :
      Locates r writes .absoluteY address
        ([.read (r.behind 1) low,
          .read (r.behind 2) high] ++ fix)
  | indirect (place page low high : UInt8) :
      Locates r writes .indirect
        (256 * high.toNat + low.toNat)
        [.read (r.behind 1) place,
          .read (r.behind 2) page,
          .read (.ofNat (256 * page.toNat + place.toNat))
            low,
          .read (.ofNat
            (256 * page.toNat + (place.toNat + 1) % 256))
            high]
  | indirectX (place low high : UInt8) :
      Locates r writes .indirectX
        (256 * high.toNat + low.toNat)
        [.read (r.behind 1) place,
          .read (.ofNat ((place.toNat + r.x.toNat) % 256))
            low,
          .read
            (.ofNat ((place.toNat + r.x.toNat + 1) % 256))
            high]
  | indirectY (place low high : UInt8)
      {address : Nat} {fix : List BusAccess}
      (hIndexes :
        Indexes (256 * high.toNat + low.toNat) r.y writes
          address fix) :
      Locates r writes .indirectY address
        ([.read (r.behind 1) place,
          .read (.ofNat place.toNat) low,
          .read (.ofNat ((place.toNat + 1) % 256)) high] ++
          fix)

variable {r : Registers} {writes : Bool}

/- Adding an index is what the rules for it say. -/
theorem indexed_indexes
    (low high index : UInt8) :
    Leaves (β := β)
      (fun operand accesses =>
        Indexes (256 * high.toNat + low.toNat) index writes
          operand.address.toNat accesses)
      (Operand.indexed (Bits.word low high) index
        writes) := by
  have hSum :
      (Bits.word low high + index.toUInt16).toNat =
        (256 * high.toNat + low.toNat + index.toNat) %
          65536 := by
    rw [UInt16.toNat_add, Bits.toNat_word]
    rfl
  have hPages :=
    Bits.differentPages_iff (Bits.word low high)
      (Bits.word low high + index.toUInt16)
  rw [Bits.toNat_word] at hPages
  have hFix :
      Bits.inPageOf (Bits.word low high)
          (Bits.word low high + index.toUInt16) =
        .ofNat (256 * ((256 * high.toNat + low.toNat) / 256) +
          (Bits.word low high + index.toUInt16).toNat %
            256) := by
    rw [← Bits.toNat_word, ← Bits.toNat_inPageOf,
      UInt16.ofNat_toNat]
  unfold Operand.indexed
  dsimp only
  split
  next hFixes =>
    rw [Bool.or_eq_true, hPages] at hFixes
    refine (Leaves.read _).bind ?_
    rintro value _ rfl
    refine .pure ⟨hSum, ?_⟩
    rw [if_pos hFixes, ← hFix]
    exact ⟨value, rfl⟩
  next hDirect =>
    rw [Bool.or_eq_true, hPages] at hDirect
    refine .pure ⟨hSum, ?_⟩
    rw [if_neg hDirect]

/- Every mode follows its rule. -/
theorem resolve_locates
    (mode : AddressingMode)
    (r : Registers)
    (writes : Bool) :
    Leaves (β := β)
      (fun operand accesses =>
        mode.Locates r writes operand.address.toNat accesses)
      (mode.resolve r writes) := by
  cases mode with
  | implied | accumulator | immediate | relative =>
      refine .pure ?_
      rw [UInt16.toNat_add]
      exact .adjacent rfl
  | zeroPage =>
      refine (Leaves.read _).bind ?_
      rintro place _ rfl
      rw [← r.behind_one]
      exact .pure (.zeroPage place)
  | zeroPageX =>
      refine (Leaves.read _).bind ?_
      rintro place _ rfl
      rw [← r.behind_one]
      refine .pure ?_
      rw [UInt8.toNat_toUInt16, UInt8.toNat_add]
      exact .zeroPageX place
  | zeroPageY =>
      refine (Leaves.read _).bind ?_
      rintro place _ rfl
      rw [← r.behind_one]
      refine .pure ?_
      rw [UInt8.toNat_toUInt16, UInt8.toNat_add]
      exact .zeroPageY place
  | absolute =>
      refine (AddressBus.readWord_leaves _).bind ?_
      rintro _ _ ⟨low, high, rfl, rfl⟩
      rw [← r.behind_two, ← r.behind_one]
      refine .pure ?_
      rw [Bits.toNat_word]
      exact .absolute low high
  | absoluteX =>
      refine (AddressBus.readWord_leaves _).bind ?_
      rintro _ _ ⟨low, high, rfl, rfl⟩
      rw [← r.behind_two, ← r.behind_one]
      exact (indexed_indexes low high r.x).mono
        fun _ _ hIndexes => .absoluteX low high hIndexes
  | absoluteY =>
      refine (AddressBus.readWord_leaves _).bind ?_
      rintro _ _ ⟨low, high, rfl, rfl⟩
      rw [← r.behind_two, ← r.behind_one]
      exact (indexed_indexes low high r.y).mono
        fun _ _ hIndexes => .absoluteY low high hIndexes
  | indirect =>
      refine (AddressBus.readWord_leaves _).bind ?_
      rintro _ _ ⟨place, page, rfl, rfl⟩
      refine (AddressBus.readWordInPage_leaves _).bind ?_
      rintro _ _ ⟨low, high, rfl, rfl⟩
      rw [← r.behind_two, ← r.behind_one,
        Bits.inPageOf_next, ← Bits.ofNat_word place page]
      refine .pure ?_
      rw [Bits.toNat_word]
      exact .indirect place page low high
  | indirectX =>
      refine (Leaves.read _).bind ?_
      rintro place _ rfl
      refine (AddressBus.readZeroPageWord_leaves _).bind ?_
      rintro _ _ ⟨low, high, rfl, rfl⟩
      rw [← r.behind_one, Bits.toUInt16_add _ 1,
        UInt8.toNat_add, Nat.mod_add_mod, Bits.toUInt16_add]
      refine .pure ?_
      rw [Bits.toNat_word]
      exact .indirectX place low high
  | indirectY =>
      refine (Leaves.read _).bind ?_
      rintro place _ rfl
      refine (AddressBus.readZeroPageWord_leaves _).bind ?_
      rintro _ _ ⟨low, high, rfl, rfl⟩
      rw [← r.behind_one, Bits.toUInt16_add,
        ← UInt16.ofNat_uInt8ToNat]
      exact (indexed_indexes low high r.y).mono
        fun _ _ hIndexes => .indirectY place low high hIndexes

end AddressingMode

------------------------------------------------------------
-- Instructions
------------------------------------------------------------

namespace Instruction

variable (i : Instruction) (r : Registers)

/-
  What an instruction does with the address of its operand.
  `behind` is what goes over the bus behind the opcode, and
  `after` are the registers then.  A byte that is changed in
  place is written as it was before it is written as it is.
-/
def Addresses
    (after : Registers)
    (behind : List BusAccess) : Prop :=
  match i.operation with
  | .read op => ∃ address lookups value,
      i.mode.Locates r false address lookups ∧
        behind =
          lookups ++ [.read (.ofNat address) value] ∧
        after = op.apply (i.advance r) value
  | .store op => ∃ address lookups,
      i.mode.Locates r true address lookups ∧
        behind =
          lookups ++ [.write (.ofNat address) (op.value r)]
  | .modify op =>
      if i.mode = .accumulator then
        behind = []
      else
        ∃ address lookups value,
          i.mode.Locates r true address lookups ∧
            behind =
              lookups ++
                [.read (.ofNat address) value,
                  .write (.ofNat address) value,
                  .write (.ofNat address)
                    (op.apply (i.advance r) value).1]
  | .branch condition => ∃ offset,
      behind = [.read (r.behind 1) offset] ∧
        (after.pc.toNat : Int) =
          if condition.holds r.status then
            ((i.next r).toNat + offset.toInt8.toInt) % 65536
          else
            (i.next r).toNat
  | .jump => i.mode.Locates r false after.pc.toNat behind
  | .call => ∃ low high saved,
      behind =
          [.read (r.behind 1) low,
            .read (r.behind 2) high] ++ saved ∧
        after.pc.toNat = 256 * high.toNat + low.toNat
  | _ => True

/- The same of an execution that may fail. -/
def AddressesOk
    (executed : Except MachineFault Executed)
    (behind : List BusAccess) : Prop :=
  ∀ done, executed = .ok done →
    i.Addresses r done.registers behind

variable {i r}

theorem executeRead_addresses
    {op : ReadOp}
    (hOperation : i.operation = .read op) :
    Leaves (β := β)
      (fun done behind => i.Addresses r done.registers behind)
      (i.executeRead op r) := by
  unfold Addresses
  rw [hOperation]
  refine (i.mode.resolve_locates r false).bind
    fun operand seen hLocates => ?_
  refine (Leaves.read operand.address).bind ?_
  rintro value _ rfl
  refine .pure ⟨_, seen, value, hLocates, ?_, rfl⟩
  rw [List.append_nil, UInt16.ofNat_toNat]

theorem executeStore_addresses
    {op : StoreOp}
    (hOperation : i.operation = .store op) :
    Leaves (β := β)
      (fun done behind => i.Addresses r done.registers behind)
      (i.executeStore op r) := by
  unfold Addresses
  rw [hOperation]
  refine (i.mode.resolve_locates r true).bind
    fun operand seen hLocates => ?_
  refine (Leaves.write operand.address _).bind ?_
  rintro _ _ rfl
  refine .pure ⟨_, seen, hLocates, ?_⟩
  rw [List.append_nil, UInt16.ofNat_toNat]

theorem executeModify_addresses
    {op : ModifyOp}
    (hOperation : i.operation = .modify op) :
    Leaves (β := β)
      (fun done behind => i.Addresses r done.registers behind)
      (i.executeModify op r) := by
  unfold Addresses executeModify
  rw [hOperation]
  dsimp only
  split
  next hMode => exact .pure rfl
  next hMode =>
    refine (i.mode.resolve_locates r true).bind
      fun operand seen hLocates => ?_
    refine (Leaves.read operand.address).bind ?_
    rintro value _ rfl
    refine (Leaves.write operand.address value).bind ?_
    rintro _ _ rfl
    refine (Leaves.write operand.address _).bind ?_
    rintro _ _ rfl
    refine .pure ⟨_, seen, value, hLocates, ?_⟩
    rw [UInt16.ofNat_toNat]
    rfl

theorem executeBranch_addresses
    {condition : Condition}
    (hOperation : i.operation = .branch condition) :
    Leaves (β := β)
      (fun done behind => i.Addresses r done.registers behind)
      (i.executeBranch condition r) := by
  unfold Addresses
  rw [hOperation]
  refine (Leaves.read _).bind ?_
  rintro offset _ rfl
  rw [← r.behind_one]
  dsimp only
  split
  next hHolds =>
    exact .pure ⟨offset, rfl, Bits.toNat_displace _ _⟩
  next hFails => exact .pure ⟨offset, rfl, rfl⟩

theorem executeJump_addresses
    (hOperation : i.operation = .jump) :
    Leaves (β := β)
      (fun done behind => i.Addresses r done.registers behind)
      (i.executeJump r) := by
  unfold Addresses
  rw [hOperation]
  refine (i.mode.resolve_locates r false).bind
    fun operand seen hLocates => ?_
  refine .pure ?_
  rw [List.append_nil]
  exact hLocates

theorem executeCall_addresses
    (hOperation : i.operation = .call) :
    Leaves (β := β)
      (fun done behind => i.Addresses r done.registers behind)
      (i.executeCall r) := by
  unfold Addresses
  rw [hOperation]
  refine (AddressBus.readWord_leaves _).bind ?_
  rintro _ _ ⟨low, high, rfl, rfl⟩
  rw [← r.behind_two, ← r.behind_one]
  refine (r.pushWord_leaves _).bind fun r' saved _ => ?_
  refine .pure ⟨low, high, saved, ?_, Bits.toNat_word _ _⟩
  rw [List.append_nil]

/- Every instruction goes where its mode tells it to. -/
theorem execute_addresses
    (i : Instruction)
    (r : Registers) :
    Leaves (β := β) (i.AddressesOk r) (i.execute r) := by
  have hOk
      {execution : StateM (Recorded β) Executed}
      (hLeaves :
        Leaves
          (fun done behind =>
            i.Addresses r done.registers behind)
          execution) :
      Leaves (i.AddressesOk r) (Except.ok <$> execution) := by
    refine hLeaves.map _ ?_
    intro executed behind hAddresses done hDone
    exact Except.ok.inj hDone ▸ hAddresses
  cases hOperation : i.operation with
  | read op =>
      unfold execute
      rw [hOperation]
      exact hOk (executeRead_addresses hOperation)
  | store op =>
      unfold execute
      rw [hOperation]
      exact hOk (executeStore_addresses hOperation)
  | modify op =>
      unfold execute
      rw [hOperation]
      exact hOk (executeModify_addresses hOperation)
  | branch condition =>
      unfold execute
      rw [hOperation]
      exact hOk (executeBranch_addresses hOperation)
  | jump =>
      unfold execute
      rw [hOperation]
      exact hOk (executeJump_addresses hOperation)
  | call =>
      unfold execute
      rw [hOperation]
      exact hOk (executeCall_addresses hOperation)
  | _ =>
      -- The others have no operand behind the opcode.
      refine (i.execute_within r).leaves.mono ?_
      intro _ _ _ done _
      unfold Addresses
      rw [hOperation]
      trivial

end Instruction

------------------------------------------------------------
-- Steps
------------------------------------------------------------

namespace Cpu

variable {cpu : Cpu} {lines : InterruptLines}
variable {bus : β} {opcode : UInt8}

/- What an execution leaves is behind the opcode's fetch. -/
theorem step_leaves
    {post : Except MachineFault Executed →
      List BusAccess → Prop}
    (hFetches : cpu.Fetches lines bus opcode)
    (hLeaves :
      Leaves (β := β) post
        ((cpu.table.lookup opcode).execute cpu.registers)) :
    ∃ result recorded behind,
      cpu.step lines ({ bus := bus } : Recorded β) =
          (result.map (cpu.stepOf lines), recorded) ∧
        recorded.accesses =
          .read cpu.registers.pc opcode :: behind ∧
        post result behind := by
  have hRecorded :
      cpu.Fetches lines ({ bus := bus } : Recorded β)
        opcode :=
    ⟨hFetches.action, hFetches.opcode⟩
  let start : Recorded β :=
    (AddressBus.read cpu.registers.pc { bus := bus }).2
  rcases hLeaves start with ⟨behind, hLog, hPost⟩
  refine ⟨_, _, behind, step_of_fetches hRecorded, ?_,
    hPost⟩
  refine (congrArg List.reverse hLog).trans ?_
  rw [List.reverse_append, List.reverse_reverse,
    ← hFetches.opcode]
  rfl

/- A step that executes an instruction goes the same way. -/
theorem step_addresses
    (hFetches : cpu.Fetches lines bus opcode)
    (hExecuted :
      (cpu.table.lookup opcode).isNeverExecuted = false) :
    let r := cpu.registers
    ∃ executed recorded behind,
      cpu.step lines ({ bus := bus } : Recorded β) =
          (.ok (cpu.stepOf lines executed), recorded) ∧
        recorded.accesses = .read r.pc opcode :: behind ∧
        (cpu.table.lookup opcode).Addresses r
          executed.registers behind := by
  intro r
  rcases step_leaves hFetches
    ((cpu.table.lookup opcode).execute_addresses r) with
    ⟨result, recorded, behind, hStep, hSeen, hAddresses⟩
  rw [← hFetches.opcode] at hExecuted
  rcases step_isOk ({ bus := bus } : Recorded β) hExecuted
    lines with ⟨done, hDone⟩
  rw [hStep] at hDone
  cases result with
  | error fault => cases hDone
  | ok executed =>
      exact ⟨executed, recorded, behind, hStep, hSeen,
        hAddresses executed rfl⟩

end Cpu

namespace Session

/- What a step does shows on a bus that records it. -/
theorem outcome_recorded (s : Session β) :
    s.outcome =
      (s.cpu.step s.lines
        ({ bus := s.bus } : Recorded β)).1 :=
  congrArg Prod.fst
    ((s.cpu.step_within s.lines).recorded s.bus)

end Session

end Famicom
