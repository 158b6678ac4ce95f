import Famicom.Cpu.OpcodeTable
import Mathlib

/-
  Which lists of instructions have a decoding table.

  A list has one exactly if it defines every opcode once.  If
  not, the earliest place that repeats an opcode is to blame,
  and without one the lowest opcode that is left out.

  Key definitions include:
    * `OpcodeTable.FirstRepeat`
    * `OpcodeTable.LowestMissing`
    * `OpcodeTable.Holds`
    * `OpcodeTable.TableOf`

  Main declarations:
    * `OpcodeTable.foldlM_define_cases`
    * `OpcodeTable.ofInstructions_cases`
    * `OpcodeTable.lookup_spec`
    * `OpcodeTable.complete_lists_have_tables`
-/

namespace Famicom

namespace OpcodeTable

------------------------------------------------------------
-- Repeated and Missing Opcodes
------------------------------------------------------------

/- A place of a list holds what is at a place before it. -/
def RepeatsAt
    (opcodes : List UInt8)
    (place : Nat) : Prop :=
  ∃ opcode ∈ opcodes[place]?, opcode ∈ opcodes.take place

/- The opcode at the earliest place that repeats one. -/
def FirstRepeat
    (opcodes : List UInt8)
    (opcode : UInt8) : Prop :=
  ∃ place,
    opcodes[place]? = some opcode ∧
      RepeatsAt opcodes place ∧
      ∀ earlier < place, ¬RepeatsAt opcodes earlier

/- The lowest opcode that is not in a list. -/
def LowestMissing
    (opcodes : List UInt8)
    (opcode : UInt8) : Prop :=
  opcode ∉ opcodes ∧ ∀ lower < opcode, lower ∈ opcodes

theorem not_repeatsAt_of_nodup
    {opcodes : List UInt8}
    (hNodup : opcodes.Nodup)
    (place : Nat) :
    ¬RepeatsAt opcodes place := by
  rintro ⟨opcode, hHere, hBefore⟩
  rcases List.getElem?_eq_some_iff.mp hHere with
    ⟨hInside, hOpcode⟩
  rcases List.mem_take_iff_getElem.mp hBefore with
    ⟨earlier, hEarlier, hSame⟩
  have hPlaces : earlier = place :=
    (hNodup.getElem_inj_iff).mp (hSame.trans hOpcode.symm)
  omega

/- Places do not change when a list goes on. -/
theorem repeatsAt_append
    {opcodes : List UInt8}
    {place : Nat}
    (hInside : place < opcodes.length)
    (more : List UInt8) :
    RepeatsAt (opcodes ++ more) place ↔
      RepeatsAt opcodes place := by
  unfold RepeatsAt
  rw [List.getElem?_append_left hInside,
    List.take_append_of_le_length hInside.le]

theorem FirstRepeat.append
    {opcodes : List UInt8}
    {opcode : UInt8}
    (hFirst : FirstRepeat opcodes opcode)
    (more : List UInt8) :
    FirstRepeat (opcodes ++ more) opcode := by
  rcases hFirst with ⟨place, hHere, hRepeats, hEarliest⟩
  have hInside : place < opcodes.length :=
    (List.getElem?_eq_some_iff.mp hHere).1
  refine ⟨place, ?_, ?_, fun earlier hEarlier => ?_⟩
  · rw [List.getElem?_append_left hInside]
    exact hHere
  · exact (repeatsAt_append hInside more).mpr hRepeats
  · rw [repeatsAt_append (hEarlier.trans hInside)]
    exact hEarliest earlier hEarlier

/- The first repetition may be the last of a list. -/
theorem firstRepeat_concat
    {opcodes : List UInt8}
    {opcode : UInt8}
    (hNodup : opcodes.Nodup)
    (hBefore : opcode ∈ opcodes) :
    FirstRepeat (opcodes ++ [opcode]) opcode := by
  have hHere :
      (opcodes ++ [opcode])[opcodes.length]? = some opcode :=
    List.getElem?_concat_length
  refine ⟨opcodes.length, hHere, ⟨opcode, hHere, ?_⟩,
    fun earlier hEarlier => ?_⟩
  · rw [List.take_left]
    exact hBefore
  · rw [repeatsAt_append hEarlier]
    exact not_repeatsAt_of_nodup hNodup earlier

theorem FirstRepeat.not_nodup
    {opcodes : List UInt8}
    {opcode : UInt8}
    (hFirst : FirstRepeat opcodes opcode) :
    ¬opcodes.Nodup := by
  intro hNodup
  rcases hFirst with ⟨place, -, hRepeats, -⟩
  exact not_repeatsAt_of_nodup hNodup place hRepeats

------------------------------------------------------------
-- Slots
------------------------------------------------------------

theorem slot_inj
    {first second : UInt8} :
    slot first = slot second ↔ first = second := by
  unfold slot
  rw [Fin.mk.injEq, UInt8.toNat_inj]

theorem slot_ofNat (place : Fin 256) :
    slot (.ofNat place.val) = place :=
  Fin.ext (UInt8.toNat_ofNat_of_lt' place.isLt)

/- The lookup of an opcode by its number. -/
theorem lookup_ofNat
    (table : OpcodeTable)
    {place : Nat}
    (hPlace : place < 256) :
    table.lookup (.ofNat place) = table.entries[place] :=
  congrArg (fun slot : Fin 256 => table.entries[slot])
    (slot_ofNat ⟨place, hPlace⟩)

/-
  A table in the making has the entries of a list, each in
  the place of its opcode, and no others.
-/
def Holds
    (list : List Instruction)
    (slots : Slots) : Prop :=
  ∀ place i,
    slots.get place = some i ↔
      i ∈ list ∧ slot i.opcode = place

theorem holds_nil :
    Holds [] (Vector.replicate 256 none) := by
  intro place i
  simp [Vector.get]

section Define

variable {list : List Instruction}
variable {slots : Slots}
variable {i : Instruction}

/- What has been defined is not defined again. -/
theorem define_of_mem
    (hHolds : Holds list slots)
    (hMember : i.opcode ∈ list.map (·.opcode)) :
    define slots i = .error (.duplicateOpcode i.opcode) := by
  rcases List.mem_map.mp hMember with ⟨other, hOther, hSame⟩
  have hTaken : slots[slot i.opcode] = some other :=
    (hHolds (slot i.opcode) other).mpr
      ⟨hOther, slot_inj.mpr hSame⟩
  unfold define
  rw [hTaken]

/- What is new is added. -/
theorem define_of_not_mem
    (hHolds : Holds list slots)
    (hNew : i.opcode ∉ list.map (·.opcode)) :
    ∃ slots', define slots i = .ok slots' ∧
      Holds (list ++ [i]) slots' := by
  have hApart : ∀ other ∈ list,
      slot other.opcode ≠ slot i.opcode := by
    intro other hOther hSame
    exact hNew (slot_inj.mp hSame ▸ List.mem_map_of_mem hOther)
  have hFree : slots[slot i.opcode] = none := by
    by_contra hTaken
    rcases Option.ne_none_iff_exists'.mp hTaken with
      ⟨other, hOther⟩
    rcases (hHolds _ _).mp hOther with ⟨hMember, hPlace⟩
    exact hApart other hMember hPlace
  refine ⟨slots.set (slot i.opcode) (some i), ?_,
    fun place other => ?_⟩
  · unfold define
    rw [hFree]
  · rw [Vector.get_eq_getElem, Vector.getElem_set,
      List.mem_append, List.mem_singleton]
    by_cases hPlace : slot i.opcode = place
    · subst hPlace
      rw [if_pos rfl, Option.some.injEq]
      constructor
      · rintro rfl
        exact ⟨.inr rfl, rfl⟩
      · rintro ⟨hOther | hOther, hSame⟩
        · exact absurd hSame (hApart other hOther)
        · exact hOther.symm
    · rw [if_neg fun hVal => hPlace (Fin.ext hVal)]
      refine (hHolds place other).trans ?_
      constructor
      · rintro ⟨hOther, hSame⟩
        exact ⟨.inl hOther, hSame⟩
      · rintro ⟨hOther | rfl, hSame⟩
        · exact ⟨hOther, hSame⟩
        · exact absurd hSame hPlace

end Define

/-
  All entries of a list are defined, or the first repetition
  stops the list.
-/
theorem foldlM_define_cases (list : List Instruction) :
    (∃ slots,
      list.foldlM define (Vector.replicate 256 none) =
          .ok slots ∧
        (list.map (·.opcode)).Nodup ∧ Holds list slots) ∨
    (∃ opcode,
      list.foldlM define (Vector.replicate 256 none) =
          .error (.duplicateOpcode opcode) ∧
        FirstRepeat (list.map (·.opcode)) opcode) := by
  induction list using List.reverseRecOn with
  | nil => exact .inl ⟨_, rfl, List.nodup_nil, holds_nil⟩
  | append_singleton list i ih =>
      rw [List.foldlM_append, List.map_append, List.map_singleton]
      rcases ih with
        ⟨slots, hFold, hNodup, hHolds⟩ | ⟨opcode, hFold, hFirst⟩
      · rw [hFold]
        by_cases hMember : i.opcode ∈ list.map (·.opcode)
        · have hStep := define_of_mem hHolds hMember
          refine .inr ⟨i.opcode, ?_,
            firstRepeat_concat hNodup hMember⟩
          simp [bind, Except.bind, hStep]
        · rcases define_of_not_mem hHolds hMember with
            ⟨slots', hStep, hHolds'⟩
          refine .inl ⟨slots', ?_, ?_, hHolds'⟩
          · simp [bind, Except.bind, hStep, pure, Except.pure]
          · rw [← List.concat_eq_append]
            exact hNodup.concat hMember
      · rw [hFold]
        exact .inr ⟨opcode, rfl, hFirst.append _⟩

------------------------------------------------------------
-- Entries
------------------------------------------------------------

/-
  Everything is collected, or the first failure is reported.
-/
theorem ofFnM_cases
    {ε α : Type}
    {n : Nat}
    (f : Fin n → Except ε α) :
    (∃ collected, Vector.ofFnM f = .ok collected ∧
      ∀ place : Fin n, f place = .ok collected[place]) ∨
    (∃ place fault, Vector.ofFnM f = .error fault ∧
      f place = .error fault ∧
        ∀ earlier < place, ∃ a, f earlier = .ok a) := by
  induction n with
  | zero =>
      exact .inl ⟨#v[], Vector.ofFnM_zero,
        fun place => place.elim0⟩
  | succ n ih =>
      rw [Vector.ofFnM_succ]
      rcases ih fun place => f place.castSucc with
        ⟨init, hInit, hEach⟩ | ⟨place, fault, hInit, hHere, hOk⟩
      · rw [hInit]
        cases hLast : f (Fin.last n) with
        | ok last =>
            refine .inl ⟨init.push last, by
              simp [bind, Except.bind, pure, Except.pure], ?_⟩
            intro place
            cases place using Fin.lastCases with
            | last => simp [hLast]
            | cast place => simp [hEach place]
        | error fault =>
            refine .inr ⟨Fin.last n, fault, rfl, hLast, ?_⟩
            intro earlier hEarlier
            cases earlier using Fin.lastCases with
            | last => exact absurd hEarlier (lt_irrefl _)
            | cast earlier => exact ⟨_, hEach earlier⟩
      · rw [hInit]
        refine .inr ⟨place.castSucc, fault, rfl, hHere, ?_⟩
        intro earlier hEarlier
        cases earlier using Fin.lastCases with
        | last =>
            exact absurd hEarlier (Fin.le_last _).not_gt
        | cast earlier => exact hOk earlier hEarlier

theorem entry_eq_ok_iff
    {slots : Slots}
    {place : Fin 256}
    {i : Instruction} :
    entry slots place = .ok i ↔ slots.get place = some i := by
  show entry slots place = .ok i ↔ slots[place] = some i
  unfold entry
  cases slots[place] <;> simp

theorem entry_eq_error_iff
    {slots : Slots}
    {place : Fin 256}
    {fault : MachineFault} :
    entry slots place = .error fault ↔
      slots.get place = none ∧
        fault = .incompleteOpcodeTable (.ofNat place) := by
  show _ ↔ slots[place] = none ∧ _
  unfold entry
  cases slots[place] <;> simp [eq_comm]

------------------------------------------------------------
-- Tables
------------------------------------------------------------

/- A table is that of a list: it has all of its entries. -/
structure TableOf
    (list : List Instruction)
    (table : OpcodeTable) : Prop where
  nodup : (list.map (·.opcode)).Nodup
  complete : ∀ opcode, opcode ∈ list.map (·.opcode)
  lookup : ∀ opcode i,
    table.lookup opcode = i ↔ i ∈ list ∧ i.opcode = opcode

/- The three ways in which building a table can end. -/
theorem ofInstructions_cases (list : List Instruction) :
    (∃ table, ofInstructions list = .ok table ∧
      TableOf list table) ∨
    (∃ opcode,
      ofInstructions list = .error (.duplicateOpcode opcode) ∧
        FirstRepeat (list.map (·.opcode)) opcode) ∨
    (∃ opcode,
      ofInstructions list =
          .error (.incompleteOpcodeTable opcode) ∧
        (list.map (·.opcode)).Nodup ∧
          LowestMissing (list.map (·.opcode)) opcode) := by
  unfold ofInstructions
  rcases foldlM_define_cases list with
    ⟨slots, hFold, hNodup, hHolds⟩ | ⟨opcode, hFold, hFirst⟩
  · have hDefined (opcode : UInt8) (i : Instruction) :
        entry slots (slot opcode) = .ok i ↔
          i ∈ list ∧ i.opcode = opcode := by
      rw [entry_eq_ok_iff, hHolds, slot_inj]
    have hMember (opcode : UInt8)
        (hOk : ∃ i, entry slots (slot opcode) = .ok i) :
        opcode ∈ list.map (·.opcode) := by
      rcases hOk with ⟨i, hEntry⟩
      rcases (hDefined opcode i).mp hEntry with ⟨hIn, hSame⟩
      exact hSame ▸ List.mem_map_of_mem hIn
    rw [hFold]
    rcases ofFnM_cases (entry slots) with
      ⟨entries, hCollect, hEach⟩ |
        ⟨place, fault, hCollect, hHere, hLower⟩
    · refine .inl ⟨⟨entries⟩, ?_, hNodup, ?_, ?_⟩
      · simp [bind, Except.bind, hCollect, pure, Except.pure]
      · exact fun opcode => hMember opcode ⟨_, hEach _⟩
      · intro opcode i
        rw [← hDefined, hEach, Except.ok.injEq]
        rfl
    · rcases entry_eq_error_iff.mp hHere with ⟨hNone, rfl⟩
      refine .inr (.inr ⟨.ofNat place, ?_, hNodup, ?_, ?_⟩)
      · simp [bind, Except.bind, hCollect]
      · intro hIn
        rcases List.mem_map.mp hIn with ⟨i, hIn, hOpcode⟩
        have hSome := (hHolds place i).mpr
          ⟨hIn, hOpcode ▸ slot_ofNat place⟩
        rw [hNone] at hSome
        cases hSome
      · intro lower hBelow
        apply hMember
        apply hLower
        rw [← slot_ofNat place]
        exact hBelow
  · rw [hFold]
    exact .inr (.inl ⟨opcode, rfl, hFirst⟩)

/- What a table that has been built gives for an opcode. -/
theorem tableOf_of_ofInstructions
    {list : List Instruction}
    {table : OpcodeTable}
    (hTable : ofInstructions list = .ok table) :
    TableOf list table := by
  rcases ofInstructions_cases list with
    ⟨built, hBuilt, hOf⟩ | ⟨_, hFault, -⟩ | ⟨_, hFault, -⟩
  · rw [hTable, Except.ok.injEq] at hBuilt
    exact hBuilt ▸ hOf
  · rw [hTable] at hFault
    cases hFault
  · rw [hTable] at hFault
    cases hFault

/- A list with every opcode once has a table. -/
theorem ofInstructions_isOk
    {list : List Instruction}
    (hNodup : (list.map (·.opcode)).Nodup)
    (hAll : ∀ opcode, opcode ∈ list.map (·.opcode)) :
    ∃ table, ofInstructions list = .ok table := by
  rcases ofInstructions_cases list with
    ⟨table, hTable, -⟩ | ⟨_, -, hFirst⟩ | ⟨opcode, -, -, hMissing⟩
  · exact ⟨table, hTable⟩
  · exact absurd hNodup hFirst.not_nodup
  · exact absurd (hAll opcode) hMissing.1

/-
  The instruction of an opcode is from the table's list, and
  is one with this opcode.
-/
theorem lookup_spec
    {list : List Instruction}
    {table : OpcodeTable}
    (hTable : ofInstructions list = .ok table)
    (opcode : UInt8) :
    table.lookup opcode ∈ list ∧
      (table.lookup opcode).opcode = opcode :=
  ((tableOf_of_ofInstructions hTable).lookup opcode _).mp rfl

namespace TableOf

variable {list : List Instruction}
variable {table : OpcodeTable}

/- The entries of a table in order. -/
theorem getElem_toList
    (hOf : TableOf list table)
    (place : Nat)
    (hPlace : place < table.toList.length) :
    table.toList[place] = table.lookup (.ofNat place) ∧
      table.toList[place].opcode.toNat = place := by
  have hInside : place < 256 := by
    simpa [toList] using hPlace
  have hEntry :
      table.toList[place] = table.lookup (.ofNat place) := by
    rw [lookup_ofNat table hInside]
    simp [toList]
  refine ⟨hEntry, ?_⟩
  rw [hEntry, ((hOf.lookup _ _).mp rfl).2]
  exact UInt8.toNat_ofNat_of_lt' hInside

theorem ascending (hOf : TableOf list table) :
    table.toList.Pairwise (·.opcode < ·.opcode) := by
  rw [List.pairwise_iff_getElem]
  intro first second hFirst hSecond hBefore
  rw [UInt8.lt_iff_toNat_lt,
    (hOf.getElem_toList first hFirst).2,
    (hOf.getElem_toList second hSecond).2]
  exact hBefore

theorem mem_toList_iff
    (hOf : TableOf list table)
    (i : Instruction) :
    i ∈ table.toList ↔ i ∈ list := by
  rw [List.mem_iff_getElem]
  constructor
  · rintro ⟨place, hPlace, rfl⟩
    rw [(hOf.getElem_toList place hPlace).1]
    exact ((hOf.lookup _ _).mp rfl).1
  · intro hIn
    have hPlace : i.opcode.toNat < table.toList.length := by
      simp [toList, i.opcode.toNat_lt]
    refine ⟨i.opcode.toNat, hPlace, ?_⟩
    rw [(hOf.getElem_toList _ hPlace).1, UInt8.ofNat_toNat]
    exact (hOf.lookup _ _).mpr ⟨hIn, rfl⟩

/- A table has the entries of its list, sorted by opcode. -/
theorem perm_toList (hOf : TableOf list table) :
    table.toList.Perm list := by
  have hDistinct : table.toList.Nodup := by
    refine hOf.ascending.imp fun {first second} hBelow hSame => ?_
    rw [hSame] at hBelow
    exact UInt8.lt_irrefl _ hBelow
  exact (List.perm_ext_iff_of_nodup hDistinct
    (.of_map _ hOf.nodup)).mpr hOf.mem_toList_iff

/- The order of a list does not matter. -/
theorem ofInstructions_of_perm
    (hOf : TableOf list table)
    {other : List Instruction}
    (hPerm : other.Perm list) :
    ofInstructions other = .ok table := by
  have hOpcodes := hPerm.map (·.opcode)
  rcases ofInstructions_isOk
      (hOpcodes.nodup_iff.mpr hOf.nodup)
      (fun opcode => hOpcodes.mem_iff.mpr (hOf.complete opcode))
    with ⟨built, hBuilt⟩
  have hLookup (opcode : UInt8) :
      built.lookup opcode = table.lookup opcode := by
    rcases lookup_spec hBuilt opcode with ⟨hIn, hSame⟩
    exact ((hOf.lookup _ _).mpr
      ⟨hPerm.mem_iff.mp hIn, hSame⟩).symm
  have hEntries : built.entries = table.entries := by
    apply Vector.ext
    intro place hPlace
    rw [← lookup_ofNat built hPlace, hLookup,
      lookup_ofNat table hPlace]
  have hSame : built = table :=
    congrArg OpcodeTable.mk hEntries
  rw [hBuilt, hSame]

end TableOf

/-
  A list has a table exactly if it defines each opcode once.
  The table looks up the one instruction of an opcode, it
  lists the instructions by ascending opcode, and it does not
  depend on the order of the list.  A list without a table is
  blamed for the earliest place that repeats an opcode, and
  only if there is none for the lowest opcode left out.
-/
theorem complete_lists_have_tables (list : List Instruction) :
    let opcodes := list.map (·.opcode)
    ((∃ table, ofInstructions list = .ok table) ↔
      ∀ opcode, opcodes.count opcode = 1) ∧
    (∀ table, ofInstructions list = .ok table →
      (∀ opcode i, table.lookup opcode = i ↔
        i ∈ list ∧ i.opcode = opcode) ∧
      table.toList.Perm list ∧
      table.toList.Pairwise (·.opcode < ·.opcode) ∧
      ∀ other : List Instruction, other.Perm list →
        ofInstructions other = .ok table) ∧
    ((∃ opcode, 1 < opcodes.count opcode) →
      ∃ opcode, FirstRepeat opcodes opcode ∧
        ofInstructions list =
          .error (.duplicateOpcode opcode)) ∧
    ((∀ opcode, opcodes.count opcode ≤ 1) →
      (∃ opcode, opcode ∉ opcodes) →
      ∃ opcode, LowestMissing opcodes opcode ∧
        ofInstructions list =
          .error (.incompleteOpcodeTable opcode)) := by
  intro opcodes
  have hOnce :
      (∀ opcode, opcodes.count opcode = 1) ↔
        opcodes.Nodup ∧ ∀ opcode, opcode ∈ opcodes := by
    rw [List.nodup_iff_count_le_one]
    simp only [← List.count_pos_iff, ← forall_and]
    exact forall_congr' fun opcode => by omega
  refine ⟨?_, ?_, ?_, ?_⟩
  · rw [hOnce]
    constructor
    · rintro ⟨table, hTable⟩
      have hOf := tableOf_of_ofInstructions hTable
      exact ⟨hOf.nodup, hOf.complete⟩
    · rintro ⟨hNodup, hAll⟩
      exact ofInstructions_isOk hNodup hAll
  · intro table hTable
    have hOf := tableOf_of_ofInstructions hTable
    exact ⟨hOf.lookup, hOf.perm_toList, hOf.ascending,
      fun other => hOf.ofInstructions_of_perm⟩
  · rintro ⟨repeated, hRepeated⟩
    have hNot : ¬opcodes.Nodup := fun hNodup =>
      (List.nodup_iff_count_le_one.mp hNodup repeated).not_gt
        hRepeated
    rcases ofInstructions_cases list with
      ⟨_, -, hOf⟩ | ⟨opcode, hFault, hFirst⟩ | ⟨_, -, hNodup, -⟩
    · exact absurd hOf.nodup hNot
    · exact ⟨opcode, hFirst, hFault⟩
    · exact absurd hNodup hNot
  · rintro hEach ⟨missing, hMissing⟩
    have hNodup : opcodes.Nodup :=
      List.nodup_iff_count_le_one.mpr hEach
    rcases ofInstructions_cases list with
      ⟨_, -, hOf⟩ | ⟨_, -, hFirst⟩ | ⟨opcode, hFault, -, hLowest⟩
    · exact absurd (hOf.complete missing) hMissing
    · exact absurd hNodup hFirst.not_nodup
    · exact ⟨opcode, hLowest, hFault⟩

/- Of two repetitions and many gaps, the first place wins. -/
example :
    let nop (opcode : UInt8) : Instruction :=
      ⟨opcode, "NOP", .implied .nop, .implied, 2, true⟩
    ofInstructions [nop 2, nop 9, nop 9, nop 2] =
      .error (.duplicateOpcode 9) := by
  rfl

end OpcodeTable

end Famicom
