import Famicom.Proofs.Cpu.StackPage

/-
  Histories of a stack.

  A history is the list of the accesses by which bytes are
  pushed and pulled, a write for each push and a read for each
  pull.  The pointer is a byte and wraps around, so the places
  of a stack are told apart only as long as no more than 256
  bytes wait to be pulled.

  Key definitions include:
    * `Stack`
    * `Stack.Moves`
    * `Stack.Balanced`
    * `Stack.Nested`
    * `Stack.Keeps`

  Main declarations:
    * `Stack.Moves.keeps`
    * `Stack.exists_matching`
    * `Stack.Moves.last_in_first_out`
-/

namespace Famicom

/- An access that changes the bus. -/
def BusAccess.isWrite : BusAccess → Bool
  | read _ _ => false
  | write _ _ => true

/- The stack pointer and the bytes of page one. -/
structure Stack where
  pointer : UInt8
  cells : UInt8 → UInt8

namespace Stack

------------------------------------------------------------
-- Single Accesses
------------------------------------------------------------

/- The stack after a push. -/
def pushed
    (stack : Stack)
    (value : UInt8) : Stack where
  pointer := stack.pointer - 1
  cells := Function.update stack.cells stack.pointer value

/- The stack after a pull. -/
def pulled (stack : Stack) : Stack :=
  { stack with pointer := stack.pointer + 1 }

/- The byte that a pull is given. -/
def top (stack : Stack) : UInt8 :=
  stack.cells (stack.pointer + 1)

/- How accesses lead from one stack to another. -/
inductive Moves : Stack → List BusAccess → Stack → Prop
  | stay {stack : Stack} : Moves stack [] stack
  | push {stack last : Stack} {value : UInt8}
      {history : List BusAccess}
      (hRest : Moves (stack.pushed value) history last) :
      Moves stack
        (.write (stackAt stack.pointer) value :: history) last
  | pull {stack last : Stack} {history : List BusAccess}
      (hRest : Moves stack.pulled history last) :
      Moves stack
        (.read (stackAt (stack.pointer + 1)) stack.top ::
          history) last

variable {start stack last : Stack}
variable {history more earlier : List BusAccess}

theorem Moves.append
    (hFirst : Moves start history stack)
    (hSecond : Moves stack more last) :
    Moves start (history ++ more) last := by
  induction hFirst with
  | stay => exact hSecond
  | push _ ih => exact .push (ih hSecond)
  | pull _ ih => exact .pull (ih hSecond)

theorem Moves.split
    (hMoves : Moves start (history ++ more) last) :
    ∃ stack, Moves start history stack ∧
      Moves stack more last := by
  induction history generalizing start with
  | nil => exact ⟨start, .stay, hMoves⟩
  | cons access rest ih =>
      cases hMoves with
      | push hRest =>
          rcases ih hRest with ⟨stack, hHere, hMore⟩
          exact ⟨stack, .push hHere, hMore⟩
      | pull hRest =>
          rcases ih hRest with ⟨stack, hHere, hMore⟩
          exact ⟨stack, .pull hHere, hMore⟩

/- The place of an access, by the pointer before it. -/
def place
    (pointer : UInt8) : BusAccess → UInt16
  | .read _ _ => stackAt (pointer + 1)
  | .write _ _ => stackAt pointer

theorem Moves.address_eq
    {access : BusAccess}
    (hMoves : Moves stack (access :: more) last) :
    access.address = place stack.pointer access := by
  cases hMoves <;> rfl

/- Every place of the stack lies in page one. -/
theorem page_of_place
    (pointer : UInt8)
    (access : BusAccess) :
    (place pointer access).toNat / 256 = 1 := by
  have hPage (byte : UInt8) :
      (stackAt byte).toNat / 256 = 1 := by
    have hByte := byte.toNat_lt
    unfold stackAt
    rw [Registers.toNat_stackPlace]
    omega
  cases access <;> exact hPage _

------------------------------------------------------------
-- Outstanding Bytes
------------------------------------------------------------

/- How many bytes a history has pushed and pulled. -/
def pushes (history : List BusAccess) : Nat :=
  history.countP (·.isWrite)

def pulls (history : List BusAccess) : Nat :=
  history.countP (!·.isWrite)

/- How many bytes of a history wait to be pulled. -/
def depth (history : List BusAccess) : Nat :=
  pushes history - pulls history

/-
  At no point has more been pulled than pushed, and never do
  more than 256 bytes wait to be pulled.
-/
def Balanced (history : List BusAccess) : Prop :=
  ∀ earlier, earlier <+: history →
    pulls earlier ≤ pushes earlier ∧
      pushes earlier ≤ pulls earlier + 256

theorem Balanced.before
    (hBalanced : Balanced (history ++ more)) :
    Balanced history :=
  fun earlier hPrefix =>
    hBalanced earlier (hPrefix.trans (List.prefix_append _ _))

@[simp] theorem pushes_append
    (history more : List BusAccess) :
    pushes (history ++ more) = pushes history + pushes more :=
  List.countP_append

@[simp] theorem pulls_append
    (history more : List BusAccess) :
    pulls (history ++ more) = pulls history + pulls more :=
  List.countP_append

@[simp] theorem counts_push
    (address : UInt16)
    (value : UInt8) :
    pushes [.write address value] = 1 ∧
      pulls [.write address value] = 0 :=
  ⟨rfl, rfl⟩

@[simp] theorem counts_pull
    (address : UInt16)
    (value : UInt8) :
    pushes [.read address value] = 0 ∧
      pulls [.read address value] = 1 :=
  ⟨rfl, rfl⟩

theorem pushes_add_pulls (history : List BusAccess) :
    pushes history + pulls history = history.length := by
  induction history with
  | nil => rfl
  | cons access rest ih =>
      rw [← List.singleton_append, pushes_append, pulls_append,
        List.length_append, ← ih]
      cases access <;> simp <;> omega

/-
  The addresses and bytes of the pushes that wait to be
  pulled, the last one first.
-/
def outstanding
    (history : List BusAccess) : List (UInt16 × UInt8) :=
  history.foldl
    (fun
      | waiting, .write address value =>
          (address, value) :: waiting
      | waiting, .read _ _ => waiting.tail)
    []

@[simp] theorem outstanding_push
    (history : List BusAccess)
    (address : UInt16)
    (value : UInt8) :
    outstanding (history ++ [.write address value]) =
      (address, value) :: outstanding history :=
  List.foldl_append

@[simp] theorem outstanding_pull
    (history : List BusAccess)
    (address : UInt16)
    (value : UInt8) :
    outstanding (history ++ [.read address value]) =
      (outstanding history).tail :=
  List.foldl_append

/- What has been pulled no longer waits. -/
theorem length_outstanding_add_pulls
    (hBalanced : Balanced history) :
    (outstanding history).length + pulls history =
      pushes history := by
  induction history using List.reverseRecOn with
  | nil => rfl
  | append_singleton history access ih =>
      have hHere := ih hBalanced.before
      have hNow := (hBalanced _ List.prefix_rfl).1
      cases access with
      | write address value =>
          simp only [outstanding_push, pushes_append,
            pulls_append, counts_push, List.length_cons]
          omega
      | read address value =>
          simp only [pushes_append, pulls_append,
            counts_pull] at hNow
          simp only [outstanding_pull, pushes_append,
            pulls_append, counts_pull, List.length_tail]
          omega

/- Bytes that are pushed first can be pulled afterwards. -/
theorem balanced_append
    (hPushed : pulls history = 0)
    (hPulled : pushes more = 0)
    (hEnough : pulls more ≤ pushes history)
    (hSpace : pushes history ≤ 256) :
    Balanced (history ++ more) := by
  intro earlier hPrefix
  have hPushes : pushes earlier ≤ pushes (history ++ more) :=
    hPrefix.sublist.countP_le
  have hPulls : pulls earlier ≤ pulls (history ++ more) :=
    hPrefix.sublist.countP_le
  simp only [pushes_append, pulls_append] at hPushes hPulls
  rcases List.prefix_or_prefix_of_prefix hPrefix
    (List.prefix_append history more) with hFirst | hSecond
  · have hNone : pulls earlier ≤ pulls history :=
      hFirst.sublist.countP_le
    omega
  · have hAll : pushes history ≤ pushes earlier :=
      hSecond.sublist.countP_le
    omega

theorem length_outstanding
    (hBalanced : Balanced history) :
    (outstanding history).length = depth history :=
  Nat.eq_sub_of_add_eq
    (length_outstanding_add_pulls hBalanced)

------------------------------------------------------------
-- Kept Bytes
------------------------------------------------------------

/-
  The pointer has moved down by one place for each push that
  waits, and the bytes of those pushes lie right above it.
-/
structure Keeps
    (start : Stack)
    (waiting : List (UInt16 × UInt8))
    (stack : Stack) : Prop where
  pointer :
    stack.pointer = start.pointer - .ofNat waiting.length
  cells : ∀ depth (hDepth : depth < waiting.length),
    let place := stack.pointer + 1 + .ofNat depth
    waiting[depth] = (stackAt place, stack.cells place)

namespace Keeps

variable {waiting : List (UInt16 × UInt8)}
variable {entry : UInt16 × UInt8}

/- A push overwrites no waiting byte while there are places. -/
theorem push
    (hKeeps : Keeps start waiting stack)
    (hSpace : waiting.length < 256)
    (value : UInt8) :
    Keeps start
      ((stackAt stack.pointer, value) :: waiting)
      (stack.pushed value) := by
  constructor
  · show stack.pointer - 1 = _
    rw [hKeeps.pointer, List.length_cons, UInt8.ofNat_add,
      sub_sub]
    rfl
  · intro depth hDepth place
    have hPlace :
        place = stack.pointer + .ofNat depth :=
      congrArg (· + UInt8.ofNat depth)
        (UInt8.sub_add_cancel stack.pointer 1)
    rw [hPlace]
    cases depth with
    | zero =>
        have hHere :
            stack.pointer + UInt8.ofNat 0 = stack.pointer :=
          UInt8.add_zero _
        rw [hHere]
        exact congrArg (stackAt stack.pointer, ·)
          (Function.update_self _ _ stack.cells).symm
    | succ depth =>
        have hBelow : depth < waiting.length :=
          Nat.lt_of_succ_lt_succ hDepth
        have hAbove :
            stack.pointer + .ofNat (depth + 1) =
              stack.pointer + 1 + .ofNat depth := by
          rw [UInt8.ofNat_add, UInt8.add_assoc,
            UInt8.add_comm (.ofNat depth)]
          rfl
        have hOther :
            stack.pointer + .ofNat (depth + 1) ≠
              stack.pointer := by
          intro hSame
          have hZero := UInt8.ofNat_eq_iff_mod_eq_toNat _ _ |>.mp
            (add_eq_left.mp hSame)
          have hSmall : depth + 1 < 256 := by omega
          rw [Nat.mod_eq_of_lt hSmall] at hZero
          exact absurd hZero (Nat.succ_ne_zero depth)
        have hKept :
            (stack.pushed value).cells
                (stack.pointer + .ofNat (depth + 1)) =
              stack.cells
                (stack.pointer + .ofNat (depth + 1)) :=
          Function.update_of_ne hOther _ _
        rw [hKept, hAbove]
        exact hKeeps.cells depth hBelow

/- A pull passes the last byte that waits. -/
theorem pull
    (hKeeps : Keeps start (entry :: waiting) stack) :
    Keeps start waiting stack.pulled := by
  constructor
  · show stack.pointer + 1 = _
    rw [hKeeps.pointer, List.length_cons, UInt8.ofNat_add,
      ← sub_sub]
    exact UInt8.sub_add_cancel _ _
  · intro depth hDepth place
    have hPlace :
        place = stack.pointer + 1 + .ofNat (depth + 1) := by
      rw [UInt8.ofNat_add, UInt8.add_comm (.ofNat depth),
        ← UInt8.add_assoc]
      rfl
    rw [hPlace]
    exact hKeeps.cells (depth + 1) (Nat.succ_lt_succ hDepth)

/- The last push that waits is the one that is pulled next. -/
theorem top
    (hKeeps : Keeps start (entry :: waiting) stack) :
    entry = (stackAt (stack.pointer + 1), stack.top) := by
  have hHere := hKeeps.cells 0 (Nat.succ_pos _)
  have hPlace :
      stack.pointer + 1 + UInt8.ofNat 0 = stack.pointer + 1 :=
    UInt8.add_zero _
  rw [hPlace] at hHere
  exact hHere

end Keeps

/- Along a balanced history the waiting bytes are kept. -/
theorem Moves.keeps
    (hMoves : Moves start history last)
    (hBalanced : Balanced history) :
    Keeps start (outstanding history) last := by
  induction history using List.reverseRecOn
    generalizing last with
  | nil =>
      cases hMoves
      exact ⟨(UInt8.sub_zero _).symm, fun _ hDepth =>
        absurd hDepth (Nat.not_lt_zero _)⟩
  | append_singleton history access ih =>
      rcases hMoves.split with ⟨stack, hBefore, hNow⟩
      have hKeeps := ih hBefore hBalanced.before
      have hEarlier :=
        length_outstanding_add_pulls hBalanced.before
      have hBounds := hBalanced _ List.prefix_rfl
      cases hNow with
      | @push _ _ value _ hRest =>
          cases hRest
          rw [outstanding_push]
          apply hKeeps.push
          simp only [pushes_append, pulls_append,
            counts_push] at hBounds
          omega
      | pull hRest =>
          cases hRest
          rw [outstanding_pull]
          cases hWaiting : outstanding history with
          | nil =>
              rw [hWaiting, List.length_nil] at hEarlier
              simp only [pushes_append, pulls_append,
                counts_pull] at hBounds
              omega
          | cons entry waiting =>
              rw [hWaiting] at hKeeps
              exact hKeeps.pull

------------------------------------------------------------
-- Matching Pushes
------------------------------------------------------------

/- Accesses in which every push has its pull. -/
inductive Nested : List BusAccess → Prop
  | nil : Nested []
  | pair {inner rest : List BusAccess}
      {pushedAt pulledAt : UInt16} {value taken : UInt8}
      (hInner : Nested inner)
      (hRest : Nested rest) :
      Nested
        (.write pushedAt value ::
          (inner ++ .read pulledAt taken :: rest))

theorem Nested.append
    (hFirst : Nested history)
    (hSecond : Nested more) :
    Nested (history ++ more) := by
  induction hFirst with
  | nil => exact hSecond
  | pair hInner _ _ ih =>
      rw [List.cons_append, List.append_assoc]
      exact .pair hInner ih

/-
  The last push that waits, with what has come before it and
  what has been pushed and pulled since.
-/
theorem exists_matching
    {address : UInt16}
    {value : UInt8}
    {waiting : List (UInt16 × UInt8)}
    (hWaiting :
      outstanding earlier = (address, value) :: waiting) :
    ∃ before between,
      earlier = before ++ .write address value :: between ∧
        outstanding before = waiting ∧ Nested between := by
  induction hLength : earlier.length
    using Nat.strong_induction_on
    generalizing earlier address value waiting with
  | h length ih =>
      subst hLength
      rcases List.eq_nil_or_concat' earlier with
        rfl | ⟨history, access, rfl⟩
      · cases hWaiting
      · cases access with
        | write address value =>
            rw [outstanding_push] at hWaiting
            cases hWaiting
            exact ⟨history, [], rfl, rfl, .nil⟩
        | read pulledAt taken =>
            rw [outstanding_pull] at hWaiting
            -- The pull has a push of its own.
            cases hOwn : outstanding history with
            | nil =>
                rw [hOwn] at hWaiting
                cases hWaiting
            | cons own rest =>
                rcases own with ⟨pushedAt, pushed⟩
                rw [hOwn] at hWaiting
                subst hWaiting
                rcases ih _ (by simp) hOwn rfl with
                  ⟨middle, inner, rfl, hMiddle, hInner⟩
                rcases ih _ (by simp) hMiddle rfl with
                  ⟨before, between, rfl, hBefore, hNested⟩
                have hPair : Nested
                    (.write pushedAt pushed ::
                      (inner ++ [.read pulledAt taken])) :=
                  .pair hInner .nil
                refine ⟨before, _, ?_, hBefore,
                  hNested.append hPair⟩
                simp

------------------------------------------------------------
-- Order
------------------------------------------------------------

/-
  Along a balanced history the pointer tells how many bytes
  wait, every access goes to the place that the pointer tells,
  and every pull takes the byte of the push that matches it.
-/
theorem Moves.last_in_first_out
    (hMoves : Moves start history last)
    (hBalanced : Balanced history) :
    last.pointer = start.pointer - .ofNat (depth history) ∧
      ∀ earlier access later,
        history = earlier ++ access :: later →
          access.address =
              place (start.pointer - .ofNat (depth earlier))
                access ∧
            ∀ address value, access = .read address value →
              ∃ before between,
                earlier =
                    before ++
                      .write address value :: between ∧
                  Nested between := by
  constructor
  · rw [← length_outstanding hBalanced]
    exact (hMoves.keeps hBalanced).pointer
  · rintro earlier access later rfl
    rcases hMoves.split with ⟨stack, hEarlier, hNow⟩
    have hBefore : Balanced earlier := hBalanced.before
    have hKeeps := hEarlier.keeps hBefore
    refine ⟨?_, ?_⟩
    · rw [← length_outstanding hBefore, ← hKeeps.pointer]
      exact hNow.address_eq
    · rintro address value rfl
      -- The pull is not one too many, so a push waits for it.
      have hLength := length_outstanding_add_pulls hBefore
      have hBounds := (hBalanced
        (earlier ++ [.read address value]) (by simp)).1
      simp only [pushes_append, pulls_append,
        counts_pull] at hBounds
      cases hWaiting : outstanding earlier with
      | nil =>
          rw [hWaiting, List.length_nil] at hLength
          omega
      | cons entry waiting =>
          rw [hWaiting] at hKeeps
          have hEntry := hKeeps.top
          cases hNow
          rw [hEntry] at hWaiting
          rcases exists_matching hWaiting with
            ⟨before, between, hSplit, -, hNested⟩
          exact ⟨before, between, hSplit, hNested⟩

end Stack

end Famicom
