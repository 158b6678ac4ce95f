import Famicom.Proofs.Console.Clock
import Famicom.Proofs.Video.BlankInterrupt

/-
  The dots that ask for an interrupt.

  Runs of dots are given a count of those that ask.  What is
  asked for is passed on at once, and within less than a
  frame it is asked for at most once.

  Key definitions include:
    * `Scan.tally`
    * `Scan.Delivers`

  Main declarations:
    * `Scan.tally_delivers`
    * `Scan.tally_of_quietFor`
    * `Scan.tally_le_one`
-/

namespace Famicom

------------------------------------------------------------
-- Counted Dots
------------------------------------------------------------

namespace Scan

variable {σ : Type} [PixelSink σ]

/- A number of dots, and how many ask for an interrupt. -/
def tally : Nat → Scan σ → Nat × Scan σ
  | 0, scan => (0, scan)
  | count + 1, scan =>
      let (raised, after) := tally count scan.tick
      (scan.ppu.dotRaises.toNat + raised, after)

theorem tally_snd
    (count : Nat)
    (scan : Scan σ) :
    (tally count scan).2 = run count scan := by
  induction count generalizing scan with
  | zero => rfl
  | succ count ih => exact ih scan.tick

/-
  What has been asked for, before the dots or by them, is
  pending after them.
-/
structure Delivers
    (scan : Scan σ)
    (raised : Nat)
    (after : Scan σ) : Prop where
  quiet : after.ppu.nmiRequested = false
  lines :
    after.lines =
      { scan.lines with
        nmiPending :=
          scan.lines.nmiPending ||
            (scan.ppu.nmiRequested || decide (0 < raised)) }

theorem tick_nmiRequested (scan : Scan σ) :
    scan.tick.ppu.nmiRequested = false := by
  rw [tick_ppu]
  rfl

/- A single dot passes on what has been asked for. -/
theorem tally_delivers
    (scan : Scan σ)
    (hTiming : scan.ppu.timing.Standard)
    (count : Nat)
    (hDots : 0 < count ∨ scan.ppu.nmiRequested = false) :
    Delivers scan (tally count scan).1
      (tally count scan).2 := by
  induction count generalizing scan with
  | zero =>
      have hQuiet :=
        hDots.resolve_left (Nat.lt_irrefl 0)
      refine ⟨hQuiet, ?_⟩
      rw [hQuiet]
      show scan.lines =
        { scan.lines with
          nmiPending := scan.lines.nmiPending || false }
      rw [Bool.or_false]
  | succ count ih =>
      have hNext := ih scan.tick
        (scan.tick_timing ▸ hTiming)
        (Or.inr scan.tick_nmiRequested)
      refine ⟨hNext.quiet, hNext.lines.trans ?_⟩
      rw [tick_lines, tick_nmiRequested,
        Ppu.tick_nmiRequested hTiming]
      have hMore :
          decide (0 < (tally (count + 1) scan).1) =
            (scan.ppu.dotRaises ||
              decide (0 < (tally count scan.tick).1)) := by
        show decide (0 < scan.ppu.dotRaises.toNat + _) = _
        cases scan.ppu.dotRaises with
        | false => rw [Bool.toNat_false, Nat.zero_add]; rfl
        | true =>
            rw [Bool.toNat_true, Nat.add_comm]
            exact decide_eq_true (Nat.succ_pos _)
      rw [hMore, Bool.false_or, Bool.or_assoc,
        Bool.or_assoc]

------------------------------------------------------------
-- Few Dots
------------------------------------------------------------

variable {scan : Scan σ}

/- In a quiet stretch no dot asks. -/
theorem tally_of_quietFor
    (hTiming : scan.ppu.timing.Standard)
    {count : Nat}
    (hCount : count ≤ Ppu.dotsBeforeBlank)
    (hQuiet : Ppu.QuietFor count scan.ppu) :
    (tally count scan).1 = 0 := by
  induction count generalizing scan with
  | zero => rfl
  | succ count ih =>
      have hFew : count ≤ Ppu.dotsBeforeBlank :=
        Nat.le_of_succ_le hCount
      have hNext : Ppu.QuietFor count scan.tick.ppu := by
        rw [tick_ppu]
        exact hQuiet.tick hTiming hFew
      have hRest :=
        ih (scan.tick_timing ▸ hTiming) hFew hNext
      show scan.ppu.dotRaises.toNat +
        (tally count scan.tick).1 = 0
      rw [hRest, hQuiet.dotRaises]
      rfl

/- Within less than a frame at most one dot asks. -/
theorem tally_le_one
    (hTiming : scan.ppu.timing.Standard)
    {count : Nat}
    (hCount : count ≤ Ppu.dotsBeforeBlank) :
    (tally count scan).1 ≤ 1 := by
  induction count generalizing scan with
  | zero => exact Nat.zero_le 1
  | succ count ih =>
      have hFew : count ≤ Ppu.dotsBeforeBlank :=
        Nat.le_of_succ_le hCount
      have hTiming' : scan.tick.ppu.timing.Standard :=
        scan.tick_timing ▸ hTiming
      show scan.ppu.dotRaises.toNat +
        (tally count scan.tick).1 ≤ 1
      cases hRaises : scan.ppu.dotRaises with
      | false =>
          rw [Bool.toNat_false, Nat.zero_add]
          exact ih hTiming' hFew
      | true =>
          have hNext : Ppu.QuietFor count scan.tick.ppu := by
            rw [tick_ppu]
            exact Ppu.quietFor_of_dotRaises hRaises count
          rw [tally_of_quietFor hTiming' hFew hNext]
          exact Nat.le_refl 1

theorem run_blankInPlace
    (hTiming : scan.ppu.timing.Standard)
    (count : Nat)
    (hPlace : scan.ppu.BlankInPlace) :
    (run count scan).ppu.BlankInPlace := by
  induction count generalizing scan with
  | zero => exact hPlace
  | succ count ih =>
      have hNext : scan.tick.ppu.BlankInPlace := by
        rw [tick_ppu]
        exact hPlace.tick hTiming
      exact ih (scan.tick_timing ▸ hTiming) hNext

end Scan

end Famicom
