import Famicom.Console

/-
  Runs of many steps or frames, which a fault may end early.

  Key definitions include:
    * `Console.Run`
    * `Console.runSteps`
    * `Console.runFrames`
    * `Console.traceLine`
-/

namespace Famicom

namespace Console

------------------------------------------------------------
-- Runs
------------------------------------------------------------

/-
  How far a run has come: what was noted after each part of
  it, the latest first, and the fault that ended it, if any.
-/
structure Run (σ α : Type) where
  console : Console
  sink : σ
  latestFirst : List α := []
  fault : Option MachineFault := none

namespace Run

variable {σ α : Type}

/- What was noted, in order. -/
def notes (run : Run σ α) : List α :=
  run.latestFirst.reverse

end Run

section Runs

variable {σ α : Type} [PixelSink σ]

/-
  Step while a condition holds, but no more than a number of
  times.  Every step is noted by its cycles and what the
  console is like after it.
-/
def runSteps
    (go : Console → Bool)
    (note : Nat → Console → α) :
    Nat → Run σ α → Run σ α
  | 0, run => run
  | count + 1, ⟨console, sink, latestFirst, fault⟩ =>
      if go console then
        match console.step sink with
        | (.error fault, console, sink) =>
            ⟨console, sink, latestFirst, some fault⟩
        | (.ok cycles, console, sink) =>
            let noted := note cycles console
            runSteps go note count
              ⟨console, sink, noted :: latestFirst, fault⟩
      else
        ⟨console, sink, latestFirst, fault⟩

/- Run a number of frames, noting the cycles of each. -/
def runFrames : Nat → Run σ Nat → Run σ Nat
  | 0, run => run
  | count + 1, ⟨console, sink, latestFirst, fault⟩ =>
      match console.runFrame sink with
      | (.error fault, console, sink) =>
          ⟨console, sink, latestFirst, some fault⟩
      | (.ok cycles, console, sink) =>
          runFrames count
            ⟨console, sink, cycles :: latestFirst, fault⟩

end Runs

------------------------------------------------------------
-- Traces
------------------------------------------------------------

/- A step in listings: its cycles and the registers after. -/
def traceLine
    (cycles : Nat)
    (console : Console) : String :=
  let r := console.cpu.registers
  " ".intercalate
    [toString cycles, Hex.byte r.a, Hex.byte r.x,
      Hex.byte r.y, Hex.byte r.sp, Hex.word r.pc,
      r.status.render]

end Console

end Famicom
