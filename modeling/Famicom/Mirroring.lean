/-
  How four logical nametables share the picture memory.

  The picture unit addresses four tables, but the console
  only has memory for two of them.  The cartridge decides
  which logical table is which physical one.

  Key definitions include:
    * `Mirroring`
    * `Mirroring.physicalTable`
    * `Mirroring.memorySize`
-/

namespace Famicom

------------------------------------------------------------
-- Mirroring
------------------------------------------------------------

/-
  The arrangements of tables: pairs side by side, pairs on
  top of each other, one table everywhere, or four tables
  with extra memory in the cartridge.
-/
inductive Mirroring where
  | horizontal
  | vertical
  | singleScreenLower
  | singleScreenUpper
  | fourScreen
deriving DecidableEq

namespace Mirroring

/- The physical table behind a logical one. -/
def physicalTable
    (mirroring : Mirroring)
    (table : Fin 4) : Fin 4 :=
  match mirroring with
  | horizontal => ⟨table.val / 2, by omega⟩
  | vertical => ⟨table.val % 2, by omega⟩
  | singleScreenLower => 0
  | singleScreenUpper => 1
  | fourScreen => table

/- The memory needed for the physical tables, in bytes. -/
def memorySize : Mirroring → Nat
  | fourScreen => 4096
  | _ => 2048

/- The name of an arrangement in reports. -/
def name : Mirroring → String
  | horizontal => "Horizontal"
  | vertical => "Vertical"
  | singleScreenLower => "SingleScreenLower"
  | singleScreenUpper => "SingleScreenUpper"
  | fourScreen => "FourScreen"

end Mirroring

end Famicom
