import Famicom.Proofs.Bus.Recording
import Famicom.Proofs.Words

/-
  The traffic of finding an operand.

  An addressing mode reads a fixed number of bytes behind the
  opcode.  An indexed one reads once more if the sum lies in
  another page than its base, or if the operand is written.

  Key definitions include:
    * `AddressingMode.lookups`
    * `AddressingMode.base`
    * `AddressingMode.CrossesPage`
    * `AddressingMode.Resolves`

  Main declarations:
    * `AddressingMode.resolve_leaves`
-/

namespace Famicom

open Recorded (Leaves)

variable {β : Type} [AddressBus β]

------------------------------------------------------------
-- Operands
------------------------------------------------------------

namespace AddressingMode

/- The number of bytes that are read to find an operand. -/
def lookups : AddressingMode → Nat
  | implied | accumulator | immediate | relative => 0
  | zeroPage | zeroPageX | zeroPageY => 1
  | absolute | absoluteX | absoluteY => 2
  | indirectX | indirectY => 3
  | indirect => 4

/- Whether a cycle is spent off the bus to add an index. -/
def addsOffBus : AddressingMode → Bool
  | zeroPageX | zeroPageY | indirectX => true
  | _ => false

/- What an indexed mode adds to its base. -/
def index
    (mode : AddressingMode)
    (r : Registers) : UInt8 :=
  match mode with
  | absoluteX => r.x
  | absoluteY | indirectY => r.y
  | _ => 0

/-
  The base of an indexed mode, as it goes over the bus behind
  the opcode: in the first two bytes, or in the two bytes
  behind the place of page zero that holds it.
-/
def base : AddressingMode → List BusAccess → UInt16
  | absoluteX, low :: high :: _ =>
      Bits.word low.value high.value
  | absoluteY, low :: high :: _ =>
      Bits.word low.value high.value
  | indirectY, _ :: low :: high :: _ =>
      Bits.word low.value high.value
  | _, _ => 0

/- The address of the operand of an indexed mode. -/
def effective
    (mode : AddressingMode)
    (r : Registers)
    (accesses : List BusAccess) : UInt16 :=
  mode.base accesses + (mode.index r).toUInt16

/- Whether it lies in another page than the base. -/
def CrossesPage
    (mode : AddressingMode)
    (r : Registers)
    (accesses : List BusAccess) : Prop :=
  mode.isIndexed = true ∧
    (mode.base accesses).toNat / 256 ≠
      (mode.effective r accesses).toNat / 256

instance
    (mode : AddressingMode)
    (r : Registers)
    (accesses : List BusAccess) :
    Decidable (mode.CrossesPage r accesses) := by
  unfold CrossesPage
  infer_instance

/-
  What finding an operand leaves in the log.  What goes by
  later makes no difference to the base.
-/
structure Resolves
    (mode : AddressingMode)
    (r : Registers)
    (writes : Bool)
    (operand : Operand)
    (accesses : List BusAccess) : Prop where
  address :
    mode.isIndexed = true → ∀ rest,
      operand.address = mode.effective r (accesses ++ rest)
  crossed : ∀ rest,
    operand.pageCrossed = true ↔
      mode.CrossesPage r (accesses ++ rest)
  length :
    accesses.length = mode.lookups +
      (operand.pageCrossed ||
        (writes && mode.isIndexed)).toNat

variable {mode : AddressingMode} {r : Registers}
variable {writes : Bool}

/- Writes take the long way whether they cross or not. -/
theorem Resolves.length_of_writes
    {operand : Operand}
    {accesses : List BusAccess}
    (hResolves : mode.Resolves r true operand accesses) :
    accesses.length = mode.lookups + mode.isIndexed.toNat := by
  have hCrossed := hResolves.crossed []
  rw [hResolves.length, Bool.true_and]
  cases hHere : operand.pageCrossed with
  | false => rfl
  | true => rw [(hCrossed.mp hHere).1, Bool.or_true]

theorem resolves_of_not_indexed
    {address : UInt16}
    {accesses : List BusAccess}
    (hMode : mode.isIndexed = false)
    (hLength : accesses.length = mode.lookups) :
    mode.Resolves r writes ⟨address, false⟩ accesses where
  address := by
    intro hIndexed
    rw [hMode] at hIndexed
    cases hIndexed
  crossed := by
    intro rest
    unfold CrossesPage
    rw [hMode]
    constructor
    · intro hCrossed
      cases hCrossed
    · intro hCrosses
      cases hCrosses.1
  length := by
    rw [hMode, Bool.and_false]
    exact hLength

/- The base is known, and the index is still to be added. -/
theorem indexed_leaves
    {base : UInt16}
    (seen : List BusAccess)
    (hMode : mode.isIndexed = true)
    (hBase : ∀ rest, mode.base (seen ++ rest) = base)
    (hLength : seen.length = mode.lookups) :
    Leaves (β := β)
      (fun operand more =>
        mode.Resolves r writes operand (seen ++ more))
      (Operand.indexed base (mode.index r) writes) := by
  have hResolves
      (more : List BusAccess)
      (hMore :
        more.length =
          (Bits.differentPages base
              (base + (mode.index r).toUInt16) ||
            writes).toNat) :
      mode.Resolves r writes
        ⟨base + (mode.index r).toUInt16,
          Bits.differentPages base
            (base + (mode.index r).toUInt16)⟩
        (seen ++ more) := by
    constructor
    · intro _ rest
      unfold effective
      rw [List.append_assoc, hBase]
    · intro rest
      unfold CrossesPage effective
      rw [List.append_assoc, hBase, Bits.differentPages_iff]
      exact ⟨fun hPages => ⟨hMode, hPages⟩, And.right⟩
    · rw [List.length_append, hLength, hMore, hMode,
        Bool.and_true]
  unfold Operand.indexed
  dsimp only
  split
  next hFixes =>
    refine (Leaves.read _).bind ?_
    rintro _ _ rfl
    refine .pure (hResolves _ ?_)
    rw [hFixes]
    rfl
  next hDirect =>
    refine .pure (hResolves _ ?_)
    rw [Bool.eq_false_iff.mpr hDirect]
    rfl

/- Finding an operand takes the lookups of its mode. -/
theorem resolve_leaves
    (mode : AddressingMode)
    (r : Registers)
    (writes : Bool) :
    Leaves (β := β) (mode.Resolves r writes)
      (mode.resolve r writes) := by
  cases mode with
  | implied | accumulator | immediate | relative =>
      exact .pure (resolves_of_not_indexed rfl rfl)
  | zeroPage | zeroPageX | zeroPageY =>
      refine (Leaves.read _).bind ?_
      rintro place _ rfl
      exact .pure (resolves_of_not_indexed rfl rfl)
  | absolute =>
      refine (AddressBus.readWord_leaves _).bind ?_
      rintro address _ ⟨low, high, rfl, -⟩
      exact .pure (resolves_of_not_indexed rfl rfl)
  | absoluteX =>
      refine (AddressBus.readWord_leaves _).bind ?_
      rintro base _ ⟨low, high, rfl, rfl⟩
      have hMode : isIndexed .absoluteX = true := rfl
      exact indexed_leaves [_, _] hMode (fun _ => rfl) rfl
  | absoluteY =>
      refine (AddressBus.readWord_leaves _).bind ?_
      rintro base _ ⟨low, high, rfl, rfl⟩
      have hMode : isIndexed .absoluteY = true := rfl
      exact indexed_leaves [_, _] hMode (fun _ => rfl) rfl
  | indirect =>
      refine (AddressBus.readWord_leaves _).bind ?_
      rintro pointer _ ⟨low, high, rfl, -⟩
      refine (AddressBus.readWordInPage_leaves _).bind ?_
      rintro address _ ⟨first, second, rfl, -⟩
      exact .pure (resolves_of_not_indexed rfl rfl)
  | indirectX =>
      refine (Leaves.read _).bind ?_
      rintro place _ rfl
      refine (AddressBus.readZeroPageWord_leaves _).bind ?_
      rintro address _ ⟨low, high, rfl, -⟩
      exact .pure (resolves_of_not_indexed rfl rfl)
  | indirectY =>
      refine (Leaves.read _).bind ?_
      rintro place _ rfl
      refine (AddressBus.readZeroPageWord_leaves _).bind ?_
      rintro base _ ⟨low, high, rfl, rfl⟩
      have hMode : isIndexed .indirectY = true := rfl
      exact indexed_leaves [_, _, _] hMode (fun _ => rfl) rfl

end AddressingMode

end Famicom
