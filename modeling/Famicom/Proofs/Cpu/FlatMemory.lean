import Famicom.Proofs.Cpu.Session

/-
  Code in flat memory.

  Flat memory has one byte for each address.  Reading it
  changes nothing, so the address of an operand can be told
  from the registers and the memory alone, and a step is a
  change of at most one byte.

  Key definitions include:
    * `Ram.Flat`
    * `Ram.Holds`
    * `AddressingMode.target`
    * `OpcodeTable.Decodes`
    * `Session.Starts`
    * `Session.Becomes`

  Main declarations:
    * `AddressingMode.target_congr`
    * `Session.becomes_of_modify`
    * `Session.becomes_of_read`
-/

namespace Famicom

------------------------------------------------------------
-- Memory
------------------------------------------------------------

namespace Ram

/- The memory has a byte of its own at every address. -/
def Flat (memory : Ram) : Prop :=
  memory.size = 0x10000

/-
  Bytes lie in memory, one behind the other from an address
  on, and all of their places belong to an area.
-/
def Holds
    (memory : Ram)
    (area : UInt16 → Prop) :
    UInt16 → List UInt8 → Prop
  | _, [] => True
  | address, byte :: rest =>
      memory.read address = byte ∧ area address ∧
        Holds memory area (address + 1) rest

variable {memory memory' : Ram}
variable {area : UInt16 → Prop}
variable {start : UInt16}

@[simp] theorem flat_write
    {address : UInt16}
    {value : UInt8} :
    (memory.write address value).Flat ↔ memory.Flat := by
  unfold Flat
  rw [size_write]

theorem Flat.read_write
    (hFlat : memory.Flat)
    (address other : UInt16)
    (value : UInt8) :
    (memory.write address value).read other =
      if other = address then
        value
      else
        memory.read other := by
  have hInside (place : UInt16) :
      memory.cellOf place = place.toNat := by
    apply cellOf_of_lt
    rw [hFlat]
    exact place.toNat_lt
  have hPositive : 0 < memory.size := by
    rw [hFlat]
    decide
  have hCells :
      memory.cellOf address = memory.cellOf other ↔
        other = address := by
    rw [hInside, hInside, UInt16.toNat_inj, eq_comm]
  rw [Ram.read_write hPositive]
  exact if_congr hCells rfl rfl

/- A byte that is written twice holds the second value. -/
theorem Flat.read_write_write
    (hFlat : memory.Flat)
    (address other : UInt16)
    (value value' : UInt8) :
    ((memory.write address value).write address value').read
        other =
      if other = address then
        value'
      else
        memory.read other := by
  rw [(flat_write.mpr hFlat).read_write, hFlat.read_write]
  split <;> rfl

/- Only the bytes of the area matter. -/
theorem Holds.congr
    {bytes : List UInt8}
    (hHolds : memory.Holds area start bytes)
    (hSame : ∀ address, area address →
      memory'.read address = memory.read address) :
    memory'.Holds area start bytes := by
  induction bytes generalizing start with
  | nil => trivial
  | cons byte rest ih =>
      rcases hHolds with ⟨hByte, hArea, hRest⟩
      exact ⟨(hSame start hArea).trans hByte, hArea,
        ih hRest⟩

theorem holds_append
    {bytes more : List UInt8} :
    memory.Holds area start (bytes ++ more) ↔
      memory.Holds area start bytes ∧
        memory.Holds area (start + .ofNat bytes.length)
          more := by
  induction bytes generalizing start with
  | nil => simp [Holds]
  | cons byte rest ih =>
      have hPlace :
          start + 1 + .ofNat rest.length =
            start + .ofNat (rest.length + 1) := by
        rw [UInt16.ofNat_add, UInt16.add_assoc,
          UInt16.add_comm 1]
        rfl
      simp only [List.cons_append, Holds, List.length_cons, ih,
        hPlace, and_assoc]

end Ram

------------------------------------------------------------
-- Operands
------------------------------------------------------------

namespace AddressingMode

/- The address of an operand. -/
def target
    (mode : AddressingMode)
    (r : Registers)
    (memory : Ram) : UInt16 :=
  (mode.resolve r false memory).1.address

/-
  The modes that find an operand without any byte of memory
  but those behind the opcode.
-/
def isDirect : AddressingMode → Bool
  | zeroPage | zeroPageX | zeroPageY => true
  | absolute | absoluteX | absoluteY => true
  | _ => false

/- Indexing only reads, and it adds the index to the base. -/
theorem indexed_memory
    (base : UInt16)
    (index : UInt8)
    (writes : Bool)
    (memory : Ram) :
    Operand.indexed base index writes memory =
      (⟨base + index.toUInt16,
        Bits.differentPages base (base + index.toUInt16)⟩,
        memory) := by
  unfold Operand.indexed
  dsimp only
  split <;> rfl

/- Finding an operand for reading or writing is the same. -/
theorem resolve_memory
    (mode : AddressingMode)
    (r : Registers)
    (writes : Bool)
    (memory : Ram) :
    ∃ crossed,
      mode.resolve r writes memory =
        (⟨mode.target r memory, crossed⟩, memory) := by
  have hIndexed (base : UInt16) (index : UInt8) :
      ∃ crossed,
        Operand.indexed base index writes memory =
          (⟨(Operand.indexed base index false
            memory).1.address, crossed⟩, memory) := by
    rw [indexed_memory, indexed_memory]
    exact ⟨_, rfl⟩
  unfold target
  cases mode with
  | absoluteX | absoluteY | indirectY => exact hIndexed _ _
  | _ => exact ⟨false, rfl⟩

/- The same bytes behind the opcode give the same address. -/
theorem target_congr
    {mode : AddressingMode}
    {r r' : Registers}
    {memory memory' : Ram}
    {area : UInt16 → Prop}
    {argument : List UInt8}
    (hMode : mode.isDirect = true)
    (hLength : argument.length + 1 = mode.bytes)
    (hIndexes : r'.x = r.x ∧ r'.y = r.y)
    (hHere : memory.Holds area (r.pc + 1) argument)
    (hThere : memory'.Holds area (r'.pc + 1) argument) :
    mode.target r' memory' = mode.target r memory := by
  have hByte (hShort : mode.bytes = 2) :
      memory'.read (r'.pc + 1) = memory.read (r.pc + 1) := by
    rw [hShort] at hLength
    rcases List.length_eq_one_iff.mp
      (Nat.succ.inj hLength) with ⟨place, rfl⟩
    exact hThere.1.trans hHere.1.symm
  have hWord (hLong : mode.bytes = 3) :
      Bits.word (memory'.read (r'.pc + 1))
          (memory'.read (r'.pc + 1 + 1)) =
        Bits.word (memory.read (r.pc + 1))
          (memory.read (r.pc + 1 + 1)) := by
    rw [hLong] at hLength
    rcases List.length_eq_two.mp
      (Nat.succ.inj hLength) with ⟨low, high, rfl⟩
    exact congrArg₂ Bits.word (hThere.1.trans hHere.1.symm)
      (hThere.2.2.1.trans hHere.2.2.1.symm)
  have hIndexed
      {base base' : UInt16}
      {index index' : UInt8}
      (hBase : base' = base)
      (hIndex : index' = index) :
      (Operand.indexed base' index' false memory').1.address =
        (Operand.indexed base index false
          memory).1.address := by
    rw [indexed_memory, indexed_memory, hBase, hIndex]
  cases mode with
  | zeroPage =>
      exact congrArg UInt8.toUInt16 (hByte rfl)
  | zeroPageX =>
      exact congrArg UInt8.toUInt16
        (congrArg₂ (· + ·) (hByte rfl) hIndexes.1)
  | zeroPageY =>
      exact congrArg UInt8.toUInt16
        (congrArg₂ (· + ·) (hByte rfl) hIndexes.2)
  | absolute => exact hWord rfl
  | absoluteX => exact hIndexed (hWord rfl) hIndexes.1
  | absoluteY => exact hIndexed (hWord rfl) hIndexes.2
  | _ => cases hMode

end AddressingMode

------------------------------------------------------------
-- Instructions
------------------------------------------------------------

/- The registers behind a number of bytes of code. -/
def Registers.skip
    (r : Registers)
    (bytes : Nat) : Registers :=
  { r with pc := r.pc + bytes.toUInt16 }

namespace Instruction

variable {i : Instruction} {r : Registers} {memory : Ram}

variable {address : UInt16} {value : UInt8}

theorem executeRead_memory
    (op : ReadOp)
    (hTarget : i.mode.target r memory = address)
    (hValue : memory.read address = value) :
    ∃ cycles,
      i.executeRead op r memory =
        (⟨op.apply (r.skip i.bytes) value, cycles⟩,
          memory) := by
  rcases i.mode.resolve_memory r false memory with
    ⟨crossed, hResolve⟩
  rw [hTarget] at hResolve
  subst hValue
  refine
    ⟨i.cycles + if crossed then i.pageCrossingCost else 0, ?_⟩
  unfold executeRead
  simp only [bind, StateT.bind, hResolve]
  rfl

/- The byte is written as it was before it is changed. -/
theorem executeModify_memory
    {op : ModifyOp}
    {result : UInt8}
    {registers : Registers}
    (hMode : i.mode ≠ .accumulator)
    (hTarget : i.mode.target r memory = address)
    (hValue : memory.read address = value)
    (hApply :
      op.apply (r.skip i.bytes) value = (result, registers)) :
    i.executeModify op r memory =
      (⟨registers, i.cycles⟩,
        (memory.write address value).write address
          result) := by
  rcases i.mode.resolve_memory r true memory with
    ⟨crossed, hResolve⟩
  rw [hTarget] at hResolve
  have hResult : (op.apply (r.skip i.bytes) value).1 = result :=
    congrArg Prod.fst hApply
  have hRegisters :
      (op.apply (r.skip i.bytes) value).2 = registers :=
    congrArg Prod.snd hApply
  subst hResult hRegisters hValue
  unfold executeModify
  rw [if_neg hMode]
  simp only [bind, StateT.bind, hResolve]
  rfl

/- The accumulator takes the place of the byte in memory. -/
theorem executeModify_accumulator
    (hMode : i.mode = .accumulator)
    (op : ModifyOp) :
    let changed := op.apply (r.skip 1) r.a
    i.executeModify op r memory =
      (⟨{ changed.2 with a := changed.1 }, i.cycles⟩,
        memory) := by
  have hSkip : i.advance r = r.skip 1 := by
    unfold advance next bytes
    rw [hMode]
    rfl
  unfold executeModify
  rw [if_pos hMode, hSkip]
  rfl

end Instruction

------------------------------------------------------------
-- Steps
------------------------------------------------------------

/- The instruction of an opcode, by what it does and where. -/
def OpcodeTable.Decodes
    (table : OpcodeTable)
    (opcode : UInt8)
    (operation : Operation)
    (mode : AddressingMode) : Prop :=
  (table.lookup opcode).operation = operation ∧
    (table.lookup opcode).mode = mode

namespace Session

/-
  The next step executes an instruction, and code lies in an
  area of the memory from the program counter on.
-/
structure Starts
    (s : Session Ram)
    (area : UInt16 → Prop)
    (code : List UInt8) : Prop where
  action : s.cpu.nextAction s.lines = .execute
  holds : s.bus.Holds area s.cpu.registers.pc code

/- The session with other registers and another memory. -/
def withState
    (s : Session Ram)
    (registers : Registers)
    (memory : Ram) : Session Ram :=
  { s with
    cpu := { s.cpu with registers := registers }
    bus := memory }

/- The next step succeeds and ends in a state. -/
structure Becomes
    (s t : Session Ram) : Prop where
  outcome : ∃ done, s.outcome = .ok done
  next : s.next = t

variable {s : Session Ram}
variable {area : UInt16 → Prop}
variable {opcode : UInt8}
variable {code : List UInt8}
variable {mode : AddressingMode}

/- A step does what the instruction at its start does. -/
theorem becomes_of_execute
    {registers : Registers}
    {cycles : Nat}
    {memory : Ram}
    (hStarts : s.Starts area (opcode :: code))
    (hExecute :
      (s.cpu.table.lookup opcode).execute s.cpu.registers
        s.bus = (.ok ⟨registers, cycles⟩, memory)) :
    s.Becomes (s.withState registers memory) := by
  have hFetches : s.cpu.Fetches s.lines s.bus opcode :=
    ⟨hStarts.action, hStarts.holds.1⟩
  have hStep :
      s.cpu.step s.lines s.bus =
        (.ok (s.cpu.stepOf s.lines ⟨registers, cycles⟩),
          memory) :=
    (Cpu.step_of_fetches hFetches).trans
      (congrArg (Prod.map _ id) hExecute)
  refine ⟨⟨_, congrArg Prod.fst hStep⟩, ?_⟩
  unfold next
  rw [hStep]
  rfl

theorem becomes_of_implied
    {op : RegisterOp}
    (hStarts : s.Starts area (opcode :: code))
    (hDecodes :
      s.cpu.table.Decodes opcode (.implied op) mode) :
    let r := s.cpu.registers.skip mode.bytes
    s.Becomes (s.withState (op.apply r) s.bus) := by
  intro r
  rcases hDecodes with ⟨hOperation, rfl⟩
  let i := s.cpu.table.lookup opcode
  have hExecute :
      i.execute s.cpu.registers s.bus =
        (.ok ⟨op.apply r, i.cycles⟩, s.bus) := by
    unfold Instruction.execute
    rw [hOperation]
    rfl
  exact becomes_of_execute hStarts hExecute

theorem becomes_of_read
    {op : ReadOp}
    {address : UInt16}
    {value : UInt8}
    (hStarts : s.Starts area (opcode :: code))
    (hDecodes :
      s.cpu.table.Decodes opcode (.read op) mode)
    (hTarget : mode.target s.cpu.registers s.bus = address)
    (hValue : s.bus.read address = value) :
    s.Becomes
      (s.withState
        (op.apply (s.cpu.registers.skip mode.bytes) value)
        s.bus) := by
  rcases hDecodes with ⟨hOperation, rfl⟩
  let i := s.cpu.table.lookup opcode
  rcases Instruction.executeRead_memory op hTarget hValue with
    ⟨cycles, hRead⟩
  have hExecute :
      i.execute s.cpu.registers s.bus =
        (.ok ⟨op.apply (i.advance s.cpu.registers) value,
          cycles⟩, s.bus) := by
    unfold Instruction.execute
    rw [hOperation]
    exact congrArg (Prod.map Except.ok id) hRead
  exact becomes_of_execute hStarts hExecute

/- The byte is written as it was before it is changed. -/
theorem becomes_of_modify
    {op : ModifyOp}
    {address : UInt16}
    {value result : UInt8}
    {registers : Registers}
    (hStarts : s.Starts area (opcode :: code))
    (hDecodes :
      s.cpu.table.Decodes opcode (.modify op) mode)
    (hMode : mode ≠ .accumulator)
    (hTarget : mode.target s.cpu.registers s.bus = address)
    (hValue : s.bus.read address = value)
    (hApply :
      op.apply (s.cpu.registers.skip mode.bytes) value =
        (result, registers)) :
    s.Becomes
      (s.withState registers
        ((s.bus.write address value).write address
          result)) := by
  rcases hDecodes with ⟨hOperation, rfl⟩
  let i := s.cpu.table.lookup opcode
  have hExecute :
      i.execute s.cpu.registers s.bus =
        (.ok ⟨registers, i.cycles⟩,
          (s.bus.write address value).write address
            result) := by
    unfold Instruction.execute
    rw [hOperation]
    exact congrArg (Prod.map Except.ok id)
      (Instruction.executeModify_memory hMode hTarget hValue
        hApply)
  exact becomes_of_execute hStarts hExecute

theorem becomes_of_accumulator
    {op : ModifyOp}
    (hStarts : s.Starts area (opcode :: code))
    (hDecodes :
      s.cpu.table.Decodes opcode (.modify op)
        .accumulator) :
    let r := s.cpu.registers
    let changed := op.apply (r.skip 1) r.a
    s.Becomes
      (s.withState { changed.2 with a := changed.1 }
        s.bus) := by
  intro r changed
  rcases hDecodes with ⟨hOperation, hMode⟩
  let i := s.cpu.table.lookup opcode
  have hExecute :
      i.execute r s.bus =
        (.ok ⟨{ changed.2 with a := changed.1 }, i.cycles⟩,
          s.bus) := by
    unfold Instruction.execute
    rw [hOperation]
    exact congrArg (Prod.map Except.ok id)
      (Instruction.executeModify_accumulator hMode op)
  exact becomes_of_execute hStarts hExecute

end Session

end Famicom
