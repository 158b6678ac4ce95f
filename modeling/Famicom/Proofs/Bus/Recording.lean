import Famicom.BusLog
import Famicom.Cpu.Execution
import Famicom.Proofs.Bus.Program

/-
  What computations leave in the log of a recorded bus.

  A computation is described by its result and by the
  accesses that go by meanwhile, in order.  One rule for each
  way of building computations is enough to read both off.

  Key definitions include:
    * `BusAccess.value`
    * `Recorded.Leaves`

  Main declarations:
    * `Recorded.Leaves.bind`
    * `OnBus.Within.traffic`
    * `AddressBus.readWord_leaves`
    * `Registers.pushWord_leaves`
    * `Registers.pullWord_leaves`
    * `Registers.enterInterrupt_leaves`
-/

namespace Famicom

/- The byte of an access. -/
def BusAccess.value : BusAccess → UInt8
  | read _ value => value
  | write _ value => value

------------------------------------------------------------
-- Logs
------------------------------------------------------------

namespace Recorded

variable {β α γ : Type}

theorem accesses_read
    [AddressBus β]
    (recorded : Recorded β)
    (address : UInt16) :
    let value := (AddressBus.read address recorded.bus).1
    (AddressBus.read address recorded).2.accesses =
      recorded.accesses ++ [.read address value] :=
  List.reverse_cons

theorem accesses_write
    [AddressBus β]
    (recorded : Recorded β)
    (address : UInt16)
    (value : UInt8) :
    (AddressBus.write address value recorded).2.accesses =
      recorded.accesses ++ [.write address value] :=
  List.reverse_cons

/-
  Whatever has gone by before, a computation adds accesses to
  the log that have a property together with its result.
-/
def Leaves
    (post : α → List BusAccess → Prop)
    (computation : StateM (Recorded β) α) : Prop :=
  ∀ start : Recorded β, ∃ accesses,
    (computation start).2.latestFirst =
        accesses.reverse ++ start.latestFirst ∧
      post (computation start).1 accesses

namespace Leaves

variable {post weaker : α → List BusAccess → Prop}
variable {post' : γ → List BusAccess → Prop}
variable {computation : StateM (Recorded β) α}

theorem pure
    {result : α}
    (hPost : post result []) :
    Leaves (β := β) post (Pure.pure result) :=
  fun _ => ⟨[], rfl, hPost⟩

theorem read
    [AddressBus β]
    (address : UInt16) :
    Leaves (β := β)
      (fun value accesses => accesses = [.read address value])
      (AddressBus.read address) :=
  fun _ => ⟨[_], rfl, rfl⟩

theorem write
    [AddressBus β]
    (address : UInt16)
    (value : UInt8) :
    Leaves (β := β)
      (fun _ accesses => accesses = [.write address value])
      (AddressBus.write address value) :=
  fun _ => ⟨[_], rfl, rfl⟩

theorem mono
    (hLeaves : Leaves post computation)
    (hWeaker : ∀ result accesses,
      post result accesses → weaker result accesses) :
    Leaves weaker computation := by
  intro start
  rcases hLeaves start with ⟨accesses, hLog, hPost⟩
  exact ⟨accesses, hLog, hWeaker _ _ hPost⟩

/- One computation after another adds to what has gone by. -/
theorem bind
    {next : α → StateM (Recorded β) γ}
    (hFirst : Leaves post computation)
    (hNext : ∀ result seen, post result seen →
      Leaves (fun last more => post' last (seen ++ more))
        (next result)) :
    Leaves post' (computation >>= next) := by
  intro start
  rcases hFirst start with ⟨seen, hSeen, hPost⟩
  rcases hNext _ seen hPost (computation start).2 with
    ⟨more, hMore, hLast⟩
  refine ⟨seen ++ more, ?_, hLast⟩
  rw [List.reverse_append, List.append_assoc, ← hSeen]
  exact hMore

theorem map
    (f : α → γ)
    (hLeaves : Leaves post computation)
    (hPost : ∀ result accesses,
      post result accesses → post' (f result) accesses) :
    Leaves post' (f <$> computation) := by
  intro start
  rcases hLeaves start with ⟨accesses, hLog, hHere⟩
  exact ⟨accesses, hLog, hPost _ _ hHere⟩

/- A bus that has just been attached has a log of its own. -/
theorem accesses
    (hLeaves : Leaves post computation)
    (bus : β) :
    post (computation { bus := bus }).1
      (computation { bus := bus }).2.accesses := by
  rcases hLeaves { bus := bus } with ⟨seen, hLog, hPost⟩
  unfold Recorded.accesses
  rw [hLog, List.append_nil, List.reverse_reverse]
  exact hPost

end Leaves

end Recorded

open Recorded (Leaves)

variable {β : Type} [AddressBus β]

/-
  What single accesses keep of a bus and of what has gone by,
  computations keep.
-/
theorem OnBus.Within.traffic
    {α : Type}
    {inside : UInt16 → Prop}
    {writes : Nat}
    {post : α → Prop}
    {computation : OnBus α}
    (hWithin : Within inside writes post computation)
    {motive : β → List BusAccess → Prop}
    (hRead : ∀ address bus seen, motive bus seen →
      motive (AddressBus.read address bus).2
        (seen ++
          [.read address (AddressBus.read address bus).1]))
    (hWrite : ∀ address value bus seen, motive bus seen →
      motive (AddressBus.write address value bus).2
        (seen ++ [.write address value]))
    {bus : β}
    (hBus : motive bus []) :
    let recorded :=
      (computation (Recorded β) { bus := bus }).2
    motive recorded.bus recorded.accesses := by
  refine hWithin.preserves
    (motive := fun recorded : Recorded β =>
      motive recorded.bus recorded.accesses) ?_ ?_ hBus
  · intro address recorded hHere
    rw [recorded.accesses_read]
    exact hRead address _ _ hHere
  · intro address value recorded hHere
    rw [recorded.accesses_write]
    exact hWrite address value _ _ hHere

------------------------------------------------------------
-- Words
------------------------------------------------------------

namespace AddressBus

theorem readWord_leaves (address : UInt16) :
    Leaves (β := β)
      (fun word accesses => ∃ low high,
        accesses =
            [.read address low, .read (address + 1) high] ∧
          word = Bits.word low high)
      (readWord address) := by
  refine (Leaves.read address).bind ?_
  rintro low _ rfl
  refine (Leaves.read (address + 1)).bind ?_
  rintro high _ rfl
  exact .pure ⟨low, high, rfl, rfl⟩

theorem readZeroPageWord_leaves (place : UInt8) :
    Leaves (β := β)
      (fun word accesses => ∃ low high,
        accesses =
            [.read place.toUInt16 low,
              .read (place + 1).toUInt16 high] ∧
          word = Bits.word low high)
      (readZeroPageWord place) := by
  refine (Leaves.read place.toUInt16).bind ?_
  rintro low _ rfl
  refine (Leaves.read (place + 1).toUInt16).bind ?_
  rintro high _ rfl
  exact .pure ⟨low, high, rfl, rfl⟩

theorem readWordInPage_leaves (address : UInt16) :
    Leaves (β := β)
      (fun word accesses => ∃ low high,
        accesses =
            [.read address low,
              .read (Bits.inPageOf address (address + 1))
                high] ∧
          word = Bits.word low high)
      (readWordInPage address) := by
  refine (Leaves.read address).bind ?_
  rintro low _ rfl
  refine (Leaves.read _).bind ?_
  rintro high _ rfl
  exact .pure ⟨low, high, rfl, rfl⟩

end AddressBus

------------------------------------------------------------
-- The Stack
------------------------------------------------------------

namespace Registers

variable (r : Registers)

theorem push_leaves (value : UInt8) :
    Leaves (β := β)
      (fun _ accesses => accesses.length = 1)
      (r.push value) := by
  refine (Leaves.write r.stackAddress value).bind ?_
  rintro _ _ rfl
  exact .pure rfl

theorem pull_leaves :
    Leaves (β := β)
      (fun _ accesses => accesses.length = 1) r.pull := by
  refine (Leaves.read _).bind ?_
  rintro value _ rfl
  exact .pure rfl

theorem pushWord_leaves (value : UInt16) :
    Leaves (β := β)
      (fun _ accesses => accesses.length = 2)
      (r.pushWord value) := by
  refine (r.push_leaves _).bind fun r' seen hHigh => ?_
  refine (r'.push_leaves _).mono fun _ more hLow => ?_
  rw [List.length_append, hHigh, hLow]

theorem pullWord_leaves :
    Leaves (β := β)
      (fun _ accesses => accesses.length = 2) r.pullWord := by
  refine r.pull_leaves.bind fun low seen hLow => ?_
  refine low.2.pull_leaves.bind fun high more hHigh => ?_
  refine .pure ?_
  rw [List.append_nil, List.length_append, hLow, hHigh]

/- Three bytes are saved, and a vector is read. -/
theorem enterInterrupt_leaves
    (vector returnAddress : UInt16)
    (software : Bool) :
    Leaves (β := β)
      (fun _ accesses => accesses.length = 5)
      (r.enterInterrupt vector returnAddress software) := by
  refine (r.pushWord_leaves _).bind fun r' seen hSeen => ?_
  refine (r'.push_leaves _).bind fun r'' more hMore => ?_
  refine (AddressBus.readWord_leaves _).bind ?_
  rintro target _ ⟨low, high, rfl, -⟩
  refine .pure ?_
  rw [List.append_nil, List.length_append,
    List.length_append, hSeen, hMore]
  rfl

end Registers

end Famicom
