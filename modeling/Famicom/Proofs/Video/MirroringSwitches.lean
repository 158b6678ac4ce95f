import Famicom.Proofs.Video.MemoryCells

/-
  The nametables under changing arrangements.

  The memory behind them grows when an arrangement first
  needs it and never shrinks, so what an arrangement hides is
  still there when another one shows it again.  From outside
  there are four physical tables from the start.

  Key definitions include:
    * `FlatTables`
    * `NametableStore`
    * `FlatTables.leftAt`
    * `Nametables.Refines`

  Main declarations:
    * `Nametables.Refines.perform`
    * `Nametables.Refines.after`
    * `Nametables.tables_survive_switches`
-/

namespace Famicom

------------------------------------------------------------
-- Four Physical Tables
------------------------------------------------------------

/- Four tables of 1 kB behind one arrangement. -/
structure FlatTables where
  cells : Vector UInt8 4096
  mirroring : Mirroring

namespace FlatTables

/- Four tables of zeros. -/
def blank (mirroring : Mirroring) : FlatTables where
  cells := Vector.replicate 4096 0
  mirroring := mirroring

/- The logical table that an address lies in. -/
def logicalTable (address : UInt16) : Fin 4 :=
  ⟨address.toNat % 0x1000 / 0x400, by omega⟩

/- The physical offset of an address. -/
def offsetOf
    (mirroring : Mirroring)
    (address : UInt16) : Fin 4096 :=
  let table := mirroring.physicalTable (logicalTable address)
  ⟨table.val * 0x400 + address.toNat % 0x400, by omega⟩

/- The byte at an address. -/
def read
    (flat : FlatTables)
    (address : UInt16) : UInt8 :=
  flat.cells[offsetOf flat.mirroring address]

/- Store a byte at an address. -/
def write
    (flat : FlatTables)
    (address : UInt16)
    (value : UInt8) : FlatTables :=
  { flat with
    cells :=
      flat.cells.set (offsetOf flat.mirroring address) value }

/- Change the arrangement and no byte. -/
def setMirroring
    (flat : FlatTables)
    (mirroring : Mirroring) : FlatTables :=
  { flat with mirroring := mirroring }

end FlatTables

------------------------------------------------------------
-- Requests
------------------------------------------------------------

/- What keeps the bytes of the nametables. -/
class NametableStore (σ : Type) where
  read : σ → UInt16 → UInt8
  write : σ → UInt16 → UInt8 → σ
  setMirroring : σ → Mirroring → σ

instance : NametableStore Nametables where
  read := Nametables.read
  write := Nametables.write
  setMirroring := Nametables.setMirroring

instance : NametableStore FlatTables where
  read := FlatTables.read
  write := FlatTables.write
  setMirroring := FlatTables.setMirroring

namespace NametableStore

/- What is asked of a store. -/
inductive Request where
  | read (address : UInt16)
  | write (address : UInt16) (value : UInt8)
  | setMirroring (mirroring : Mirroring)
deriving DecidableEq

variable {σ : Type} [NametableStore σ]

/- A store after a request. -/
def perform (store : σ) : Request → σ
  | .read _ => store
  | .write address value => write store address value
  | .setMirroring mirroring => setMirroring store mirroring

/- A store after a sequence of requests. -/
def after
    (store : σ)
    (requests : List Request) : σ :=
  requests.foldl perform store

/- What the reads of a sequence return, in order. -/
def answers (store : σ) : List Request → List UInt8
  | [] => []
  | .read address :: rest =>
      read store address :: answers store rest
  | request :: rest => answers (perform store request) rest

end NametableStore

namespace FlatTables

open NametableStore

/-
  The byte that a sequence of requests leaves last at a
  physical offset, whatever arrangement led there.
-/
def leftAt
    (offset : Fin 4096) :
    Mirroring → List Request → Option UInt8
  | _, [] => none
  | mirroring, .read _ :: rest =>
      leftAt offset mirroring rest
  | mirroring, .write address value :: rest =>
      (leftAt offset mirroring rest).or
        (if offsetOf mirroring address = offset then
          some value
        else
          none)
  | _, .setMirroring next :: rest => leftAt offset next rest

theorem cells_write
    (flat : FlatTables)
    (address : UInt16)
    (value : UInt8)
    (offset : Fin 4096) :
    (flat.write address value).cells[offset] =
      if offsetOf flat.mirroring address = offset then
        value
      else
        flat.cells[offset] := by
  unfold write
  simp [Vector.getElem_set, Fin.ext_iff]

/- The tables hold what was left last, or what they held. -/
theorem cells_after
    (flat : FlatTables)
    (requests : List Request)
    (offset : Fin 4096) :
    (after flat requests).cells[offset] =
      (leftAt offset flat.mirroring requests).getD
        flat.cells[offset] := by
  induction requests generalizing flat with
  | nil => rfl
  | cons request rest ih =>
      cases request with
      | read address => exact ih flat
      | setMirroring next => exact ih (flat.setMirroring next)
      | write address value =>
          have hNext := ih (flat.write address value)
          rw [cells_write] at hNext
          refine hNext.trans ?_
          have hSame :
              (flat.write address value).mirroring =
                flat.mirroring := rfl
          rw [hSame, leftAt]
          cases leftAt offset flat.mirroring rest with
          | some left => rfl
          | none => split <;> rfl

end FlatTables

namespace Nametables

open FlatTables (offsetOf leftAt)
open NametableStore

------------------------------------------------------------
-- Refinement
------------------------------------------------------------

/-
  Tables show what flat tables show.  The memory has two or
  four tables, which depends on the past, but always those
  that the arrangement needs.
-/
structure Refines
    (tables : Nametables)
    (flat : FlatTables) : Prop where
  mirroring : tables.mirroring = flat.mirroring
  complete : tables.size ≤ tables.memory.size
  bounded : tables.memory.size ≤ 4096
  cells : ∀ offset : Fin 4096,
    tables.memory.byteAt offset = flat.cells[offset]

theorem memorySize_le (mirroring : Mirroring) :
    mirroring.memorySize ≤ 4096 := by
  cases mirroring <;> decide

/- The place of an address is its physical offset. -/
theorem toNat_placeOf_eq_offsetOf
    (mirroring : Mirroring)
    (address : UInt16) :
    (placeOf mirroring address).toNat =
      (offsetOf mirroring address).val := by
  have hTable :
      tableOf address = FlatTables.logicalTable address := by
    apply Fin.ext
    show address.toNat / 1024 % 4 =
      address.toNat % 0x1000 / 0x400
    omega
  rw [toNat_placeOf, hTable]
  rfl

theorem refines_blank (mirroring : Mirroring) :
    Refines (blank mirroring) (.blank mirroring) where
  mirroring := rfl
  complete := (Ram.size_filled _ _).ge
  bounded := by
    rw [blank, Ram.size_filled]
    exact memorySize_le mirroring
  cells := fun offset => by
    rw [blank, Ram.byteAt_filled_zero]
    simp [FlatTables.blank]

namespace Refines

variable {tables : Nametables}
variable {flat : FlatTables}

/- Addresses do not wrap around in the memory. -/
theorem cellOf_placeOf
    (hRefines : Refines tables flat)
    (address : UInt16) :
    (placeOf tables.mirroring address).toNat <
        tables.memory.size ∧
      tables.memory.cellOf
          (placeOf tables.mirroring address) =
        (offsetOf flat.mirroring address).val := by
  have hInside :=
    (toNat_placeOf_lt tables.mirroring address).trans_le
      hRefines.complete
  refine ⟨hInside, ?_⟩
  rw [Ram.cellOf_of_lt hInside, hRefines.mirroring,
    toNat_placeOf_eq_offsetOf]

theorem read
    (hRefines : Refines tables flat)
    (address : UInt16) :
    tables.read address = flat.read address := by
  unfold Nametables.read
  rw [Ram.read_eq_byteAt, (hRefines.cellOf_placeOf address).2,
    hRefines.cells]
  rfl

theorem write
    (hRefines : Refines tables flat)
    (address : UInt16)
    (value : UInt8) :
    Refines (tables.write address value)
      (flat.write address value) where
  mirroring := hRefines.mirroring
  complete :=
    hRefines.complete.trans_eq (Ram.size_write _ _ _).symm
  bounded := (Ram.size_write _ _ _).trans_le hRefines.bounded
  cells := by
    intro offset
    rcases hRefines.cellOf_placeOf address with
      ⟨hInside, hCell⟩
    unfold Nametables.write FlatTables.write
    dsimp only
    rw [Ram.byteAt_write (Nat.zero_lt_of_lt hInside), hCell,
      hRefines.cells]
    simp [Vector.getElem_set]

/- A new arrangement may need more memory but moves nothing. -/
theorem setMirroring
    (hRefines : Refines tables flat)
    (mirroring : Mirroring) :
    Refines (tables.setMirroring mirroring)
      (flat.setMirroring mirroring) := by
  have hNeeds := memorySize_le mirroring
  have hHas := hRefines.bounded
  have hWidth : mirroring.memorySize ≤ 0x10000 :=
    hNeeds.trans (by decide)
  have hSize :
      (tables.setMirroring mirroring).memory.size =
        max tables.memory.size mirroring.memorySize :=
    Ram.size_growTo tables.memory hWidth
  constructor
  · rfl
  · rw [hSize]
    exact le_max_right _ _
  · rw [hSize]
    exact max_le hHas hNeeds
  · intro offset
    exact (Ram.byteAt_growTo tables.memory hWidth offset).trans
      (hRefines.cells offset)

/- A request keeps the relation. -/
theorem perform
    (hRefines : Refines tables flat)
    (request : Request) :
    Refines (perform tables request)
      (perform flat request) := by
  cases request with
  | read address => exact hRefines
  | write address value => exact hRefines.write address value
  | setMirroring mirroring =>
      exact hRefines.setMirroring mirroring

/- So does a sequence, and its reads return the same. -/
theorem after
    (hRefines : Refines tables flat)
    (requests : List Request) :
    Refines (after tables requests) (after flat requests) ∧
      answers tables requests = answers flat requests := by
  induction requests generalizing tables flat with
  | nil => exact ⟨hRefines, rfl⟩
  | cons request rest ih =>
      rcases ih (hRefines.perform request) with
        ⟨hAfter, hAnswers⟩
      refine ⟨hAfter, ?_⟩
      cases request with
      | read address =>
          exact congrArg₂ List.cons (hRefines.read address)
            hAnswers
      | write address value => exact hAnswers
      | setMirroring mirroring => exact hAnswers

end Refines

/-
  After any requests the tables return what four physical
  tables would, and no address is beyond the memory that is
  there.  A physical byte is the one left there last, or zero
  if none was, and a change of arrangement changes none of
  them.  So four tables show what was left in the extra ones
  whenever they were last in use, and going through another
  arrangement loses nothing.
-/
theorem tables_survive_switches
    (mirroring : Mirroring)
    (requests : List Request) :
    let tables := after (blank mirroring) requests
    let flat := after (FlatTables.blank mirroring) requests
    answers (blank mirroring) requests =
        answers (FlatTables.blank mirroring) requests ∧
      tables.mirroring = flat.mirroring ∧
      tables.setMirroring tables.mirroring = tables ∧
      (∀ address,
        (placeOf tables.mirroring address).toNat =
            (offsetOf flat.mirroring address).val ∧
          (placeOf tables.mirroring address).toNat <
            tables.memory.size) ∧
      (∀ offset : Fin 4096,
        flat.cells[offset] =
            (leftAt offset mirroring requests).getD 0 ∧
          tables.memory.byteAt offset = flat.cells[offset] ∧
          ∀ next,
            (tables.setMirroring next).memory.byteAt offset =
              tables.memory.byteAt offset) ∧
      (∀ address,
        (tables.setMirroring .fourScreen).read address =
          (leftAt (offsetOf .fourScreen address) mirroring
            requests).getD 0) ∧
      ∀ next last address,
        ((tables.setMirroring next).setMirroring last).read
            address =
          (tables.setMirroring last).read address := by
  intro tables flat
  rcases (refines_blank mirroring).after requests with
    ⟨hRefines, hAnswers⟩
  have hLeft (offset : Fin 4096) :
      flat.cells[offset] =
        (leftAt offset mirroring requests).getD 0 := by
    have hCells :=
      FlatTables.cells_after (.blank mirroring) requests offset
    have hZero :
        (FlatTables.blank mirroring).cells[offset] = 0 := by
      simp [FlatTables.blank]
    rwa [hZero] at hCells
  refine ⟨hAnswers, hRefines.mirroring,
    setMirroring_in_force hRefines.complete, ?_, ?_, ?_, ?_⟩
  · intro address
    refine ⟨?_, (hRefines.cellOf_placeOf address).1⟩
    rw [toNat_placeOf_eq_offsetOf]
    exact congrArg (fun m => (offsetOf m address).val)
      hRefines.mirroring
  · intro offset
    refine ⟨hLeft offset, hRefines.cells offset, fun next => ?_⟩
    rw [(hRefines.setMirroring next).cells, hRefines.cells]
    rfl
  · intro address
    rw [(hRefines.setMirroring .fourScreen).read]
    exact hLeft (offsetOf .fourScreen address)
  · intro next last address
    rw [((hRefines.setMirroring next).setMirroring last).read,
      (hRefines.setMirroring last).read]
    rfl

end Nametables

end Famicom
