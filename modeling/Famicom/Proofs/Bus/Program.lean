import Famicom.BusLog
import Mathlib

/-
  Computations on a bus as trees of their traffic.

  Whatever is written against the interface of address buses
  can only read, write and look at what it has read.  A tree
  holds exactly that, so what is shown of a tree once holds
  on every bus.

  Key definitions include:
    * `BusProgram`
    * `BusProgram.run`
    * `BusProgram.WritesAtMost`
    * `OnBus`
    * `OnBus.Within`

  Main declarations:
    * `OnBus.Within.bind`
    * `OnBus.Within.preserves`
    * `OnBus.Within.simulates`
    * `OnBus.Within.recorded`
    * `OnBus.Within.raises`
-/

namespace Famicom

------------------------------------------------------------
-- Programs
------------------------------------------------------------

/- A result, or an access and what follows it. -/
inductive BusProgram (α : Type) where
  | done (result : α)
  | read (address : UInt16) (next : UInt8 → BusProgram α)
  | write (address : UInt16) (value : UInt8)
      (next : BusProgram α)

namespace BusProgram

variable {α : Type}

/- The accesses of a program on a bus. -/
def run
    {β : Type}
    [AddressBus β] : BusProgram α → StateM β α
  | done result => pure result
  | read address next => do
      let value ← AddressBus.read address
      (next value).run
  | write address value next => do
      AddressBus.write address value
      next.run

/-
  Bounds of a program: it writes no more than a number of
  times outside of a region, and its results have a property.
-/
inductive WritesAtMost
    (inside : UInt16 → Prop)
    (post : α → Prop) : Nat → BusProgram α → Prop
  | done {writes : Nat} {result : α}
      (hPost : post result) :
      WritesAtMost inside post writes (done result)
  | read {writes : Nat} {address : UInt16}
      {next : UInt8 → BusProgram α}
      (hNext : ∀ value,
        WritesAtMost inside post writes (next value)) :
      WritesAtMost inside post writes (read address next)
  | inside {writes : Nat} {address : UInt16} {value : UInt8}
      {next : BusProgram α}
      (hInside : inside address)
      (hNext : WritesAtMost inside post writes next) :
      WritesAtMost inside post writes
        (write address value next)
  | outside {writes : Nat} {address : UInt16} {value : UInt8}
      {next : BusProgram α}
      (hNext : WritesAtMost inside post writes next) :
      WritesAtMost inside post (writes + 1)
        (write address value next)

theorem WritesAtMost.mono
    {inside : UInt16 → Prop}
    {post weaker : α → Prop}
    {few many : Nat}
    {program : BusProgram α}
    (hProgram : WritesAtMost inside post few program)
    (hWrites : few ≤ many)
    (hWeaker : ∀ result, post result → weaker result) :
    WritesAtMost inside weaker many program := by
  induction hProgram generalizing many with
  | done hPost => exact done (hWeaker _ hPost)
  | read _ ih => exact read fun value => ih value hWrites
  | inside hInside _ ih => exact .inside hInside (ih hWrites)
  | outside _ ih =>
      rcases Nat.exists_eq_add_of_le hWrites with ⟨rest, rfl⟩
      rw [Nat.add_right_comm]
      exact outside (ih (Nat.le_add_right _ _))

end BusProgram

------------------------------------------------------------
-- Computations on Any Bus
------------------------------------------------------------

/- A computation that works on every bus. -/
abbrev OnBus (α : Type) : Type 1 :=
  (β : Type) → [AddressBus β] → StateM β α

namespace OnBus

open BusProgram

variable {α γ : Type} {inside : UInt16 → Prop}
variable {post : α → Prop} {post' : γ → Prop}

/- A computation is a program that keeps to bounds. -/
def Within
    (inside : UInt16 → Prop)
    (writes : Nat)
    (post : α → Prop)
    (computation : OnBus α) : Prop :=
  ∃ program : BusProgram α,
    WritesAtMost inside post writes program ∧
    ∀ (β : Type) [AddressBus β],
      computation β = program.run

namespace Within

theorem pure
    {writes : Nat}
    {result : α}
    (hPost : post result) :
    Within inside writes post
      (fun _ _ => Pure.pure result) :=
  ⟨.done result, .done hPost, fun _ _ => rfl⟩

theorem read
    (address : UInt16) :
    Within inside 0 (fun _ => True)
      (fun _ _ => AddressBus.read address) :=
  ⟨.read address .done, .read fun _ => .done trivial,
    fun _ _ => rfl⟩

theorem write
    (address : UInt16)
    (value : UInt8) :
    Within inside 1 (fun _ => True)
      (fun _ _ => AddressBus.write address value) :=
  ⟨.write address value (.done ()),
    .outside (.done trivial), fun _ _ => rfl⟩

theorem writeInside
    {address : UInt16}
    (value : UInt8)
    (hInside : inside address) :
    Within inside 0 (fun _ => True)
      (fun _ _ => AddressBus.write address value) :=
  ⟨.write address value (.done ()),
    .inside hInside (.done trivial), fun _ _ => rfl⟩

theorem mono
    {few many : Nat}
    {weaker : α → Prop}
    {computation : OnBus α}
    (hWithin : Within inside few post computation)
    (hWrites : few ≤ many)
    (hWeaker : ∀ result, post result → weaker result) :
    Within inside many weaker computation := by
  rcases hWithin with ⟨program, hProgram, hRun⟩
  exact ⟨program, hProgram.mono hWrites hWeaker, hRun⟩

/-
  One computation after another.  The second one is only
  asked about results that the first one can have.
-/
theorem bind
    {first second : Nat}
    {computation : OnBus α}
    {next : α → OnBus γ}
    (hFirst : Within inside first post computation)
    (hNext : ∀ result, post result →
      Within inside second post' (next result)) :
    Within inside (first + second) post'
      (fun β _ => computation β >>= fun result =>
        next result β) := by
  rcases hFirst with ⟨program, hProgram, hRun⟩
  simp only [hRun]
  clear hRun
  induction hProgram with
  | @done writes result hPost =>
      exact (hNext result hPost).mono (Nat.le_add_left _ _)
        fun _ hHere => hHere
  | @read writes address following _ ih =>
      choose rest hRest hRun using ih
      refine ⟨.read address rest, .read hRest, ?_⟩
      intro β _
      funext bus
      exact congrFun
        (hRun (AddressBus.read address bus).1 β)
        (AddressBus.read address bus).2
  | @inside writes address value following hInside _ ih =>
      rcases ih with ⟨rest, hRest, hRun⟩
      refine ⟨.write address value rest,
        .inside hInside hRest, ?_⟩
      intro β _
      funext bus
      exact congrFun (hRun β)
        (AddressBus.write address value bus).2
  | @outside writes address value following _ ih =>
      rcases ih with ⟨rest, hRest, hRun⟩
      refine ⟨.write address value rest, ?_, ?_⟩
      · rw [Nat.add_right_comm]
        exact .outside hRest
      · intro β _
        funext bus
        exact congrFun (hRun β)
          (AddressBus.write address value bus).2

/- The same after a computation without such writes. -/
theorem followedBy
    {writes : Nat}
    {computation : OnBus α}
    {next : α → OnBus γ}
    (hFirst : Within inside 0 post computation)
    (hNext : ∀ result, post result →
      Within inside writes post' (next result)) :
    Within inside writes post'
      (fun β _ => computation β >>= fun result =>
        next result β) := by
  have hBoth := hFirst.bind hNext
  rw [Nat.zero_add] at hBoth
  exact hBoth

/- The same before a computation without such writes. -/
theorem endedBy
    {writes : Nat}
    {computation : OnBus α}
    {next : α → OnBus γ}
    (hFirst : Within inside writes post computation)
    (hNext : ∀ result, post result →
      Within inside 0 post' (next result)) :
    Within inside writes post'
      (fun β _ => computation β >>= fun result =>
        next result β) :=
  hFirst.bind hNext

/- A write and what follows it. -/
theorem writeThen
    {writes : Nat}
    (address : UInt16)
    (value : UInt8)
    {next : OnBus γ}
    (hNext : Within inside writes post' next) :
    Within inside (writes + 1) post'
      (fun β _ => AddressBus.write address value >>=
        fun _ => next β) := by
  rw [Nat.add_comm]
  exact (write address value).bind fun _ _ => hNext

theorem map
    {writes : Nat}
    {computation : OnBus α}
    (f : α → γ)
    (hWithin : Within inside writes post computation)
    (hPost : ∀ result, post result → post' (f result)) :
    Within inside writes post'
      (fun β _ => f <$> computation β) := by
  have hNext (result : α) (hResult : post result) :
      Within inside 0 post'
        (fun _ _ => Pure.pure (f result)) :=
    .pure (hPost result hResult)
  exact hWithin.endedBy hNext

------------------------------------------------------------
-- Consequences
------------------------------------------------------------

/- What all accesses keep, all computations keep. -/
theorem preserves
    {writes : Nat}
    {computation : OnBus α}
    (hWithin : Within inside writes post computation)
    {β : Type}
    [AddressBus β]
    {motive : β → Prop}
    (hRead : ∀ address bus, motive bus →
      motive (AddressBus.read address bus).2)
    (hWrite : ∀ address value bus, motive bus →
      motive (AddressBus.write address value bus).2)
    {bus : β}
    (hBus : motive bus) :
    motive (computation β bus).2 := by
  rcases hWithin with ⟨program, hProgram, hRun⟩
  rw [hRun]
  clear hRun
  induction hProgram generalizing bus with
  | done _ => exact hBus
  | read _ ih => exact ih _ (hRead _ _ hBus)
  | inside _ _ ih => exact ih (hWrite _ _ _ hBus)
  | outside _ ih => exact ih (hWrite _ _ _ hBus)

/- The results have the property. -/
theorem result
    {writes : Nat}
    {computation : OnBus α}
    (hWithin : Within inside writes post computation)
    {β : Type}
    [AddressBus β]
    (bus : β) :
    post (computation β bus).1 := by
  rcases hWithin with ⟨program, hProgram, hRun⟩
  rw [hRun]
  clear hRun
  induction hProgram generalizing bus with
  | done hPost => exact hPost
  | read _ ih => exact ih _ _
  | inside _ _ ih => exact ih _
  | outside _ ih => exact ih _

/- Buses that answer alike give the same results. -/
theorem simulates
    {writes : Nat}
    {computation : OnBus α}
    (hWithin : Within inside writes post computation)
    {β δ : Type}
    [AddressBus β]
    [AddressBus δ]
    (project : δ → β)
    (hRead : ∀ address bus,
      AddressBus.read address (project bus) =
        Prod.map id project (AddressBus.read address bus))
    (hWrite : ∀ address value bus,
      AddressBus.write address value (project bus) =
        Prod.map id project
          (AddressBus.write address value bus))
    (bus : δ) :
    computation β (project bus) =
      Prod.map id project (computation δ bus) := by
  rcases hWithin with ⟨program, hProgram, hRun⟩
  rw [hRun, hRun]
  clear hRun hProgram
  induction program generalizing bus with
  | done result => rfl
  | read address next ih =>
      have hStep := hRead address bus
      show (next (AddressBus.read address (project bus)).1
        ).run (AddressBus.read address (project bus)).2 = _
      rw [hStep]
      exact ih _ _
  | write address value next ih =>
      have hStep := hWrite address value bus
      show next.run
        (AddressBus.write address value (project bus)).2 = _
      rw [hStep]
      exact ih _

/- What is done on a recorded bus is done to the bus in it. -/
theorem recorded
    {writes : Nat}
    {computation : OnBus α}
    (hWithin : Within inside writes post computation)
    {β : Type}
    [AddressBus β]
    (bus : β) :
    let recorded := computation (Recorded β) { bus := bus }
    computation β bus = (recorded.1, recorded.2.bus) :=
  hWithin.simulates Recorded.bus (fun _ _ => rfl)
    (fun _ _ _ => rfl) { bus := bus }

/-
  A quantity that only writes outside of the region raise,
  and by no more than one each, is raised by no more than
  their number.
-/
theorem raises
    {writes : Nat}
    {computation : OnBus α}
    (hWithin : Within inside writes post computation)
    {β : Type}
    [AddressBus β]
    {motive : β → Prop}
    (level : β → Nat)
    (hRead : ∀ address bus, motive bus →
      motive (AddressBus.read address bus).2 ∧
        level (AddressBus.read address bus).2 ≤ level bus)
    (hWrite : ∀ address value bus, motive bus →
      motive (AddressBus.write address value bus).2 ∧
        level (AddressBus.write address value bus).2 ≤
          level bus + 1)
    (hInside : ∀ address value bus, motive bus →
      inside address →
      level (AddressBus.write address value bus).2 ≤
        level bus)
    {bus : β}
    (hBus : motive bus) :
    level (computation β bus).2 ≤ level bus + writes := by
  rcases hWithin with ⟨program, hProgram, hRun⟩
  rw [hRun]
  clear hRun
  induction hProgram generalizing bus with
  | done _ => exact Nat.le_add_right _ _
  | @read writes address _ _ ih =>
      have hStep := hRead address bus hBus
      exact (ih _ hStep.1).trans
        (Nat.add_le_add_right hStep.2 _)
  | @inside writes address value _ hRegion _ ih =>
      have hStep := hWrite address value bus hBus
      exact (ih hStep.1).trans
        (Nat.add_le_add_right
          (hInside address value bus hBus hRegion) _)
  | @outside writes address value _ _ ih =>
      have hStep := hWrite address value bus hBus
      refine (ih hStep.1).trans ?_
      rw [Nat.add_comm _ 1, ← Nat.add_assoc]
      exact Nat.add_le_add_right hStep.2 _

end Within

end OnBus

end Famicom
