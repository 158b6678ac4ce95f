import Mathlib

/-
  What is seen after a history of events.

  A state shows something, and an event puts something else
  in its place or leaves it alone.  Then a history shows what
  the latest of its events have put there.

  Key definitions include:
    * `lastLeft?`

  Main declarations:
    * `lastLeft?_concat`
    * `shows_foldl`
-/

namespace Famicom

variable {α β σ : Type}

/- What a history leaves last, if it leaves anything. -/
def lastLeft?
    (leaves : α → Option β)
    (history : List α) : Option β :=
  history.reverse.findSome? leaves

theorem lastLeft?_concat
    (leaves : α → Option β)
    (history : List α)
    (event : α) :
    lastLeft? leaves (history ++ [event]) =
      (leaves event).or (lastLeft? leaves history) := by
  unfold lastLeft?
  rw [List.reverse_concat, List.findSome?_cons]
  cases leaves event <;> rfl

/- What a state shows after a history that it takes. -/
theorem shows_foldl
    (shows : σ → β)
    (Valid : σ → Prop)
    {step : σ → α → σ}
    {leaves : α → Option β}
    (hValid : ∀ state event,
      Valid state → Valid (step state event))
    (hShows : ∀ state event, Valid state →
      shows (step state event) =
        (leaves event).getD (shows state))
    {state : σ}
    (hState : Valid state)
    (history : List α) :
    Valid (history.foldl step state) ∧
      shows (history.foldl step state) =
        (lastLeft? leaves history).getD (shows state) := by
  induction history using List.reverseRecOn with
  | nil => exact ⟨hState, rfl⟩
  | append_singleton history event ih =>
      rw [List.foldl_concat, lastLeft?_concat]
      refine ⟨hValid _ _ ih.1, ?_⟩
      rw [hShows _ _ ih.1, ih.2]
      cases leaves event <;> rfl

end Famicom
