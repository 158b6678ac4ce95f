import Famicom.Proofs.Video.RasterRun
import Famicom.Proofs.Video.ScrollPlane
import Famicom.Proofs.Video.TileStream

/-
  The background pipeline over the dots of a line.

  From the end of the pre-render line on, the unit fetches
  the tiles of one row of pixels after another, two tiles
  ahead of the pixels it outputs.  What its registers hold is
  determined by the raster position and by the scroll
  position of the frame alone.

  Key definitions include:
    * `Ppu.fetchPhase`
    * `Ppu.linePrepared`
    * `Ppu.Prepared`

  Main declarations:
    * `Ppu.Rendering.fetched`
    * `Ppu.Prepared.tick`
-/

namespace Famicom

namespace Ppu

open Pipeline TileLatch

------------------------------------------------------------
-- Fetched Tiles
------------------------------------------------------------

/- What the fetches at the current address bring. -/
structure Fetches
    (ppu : Ppu)
    (latch : TileLatch) : Prop where
  tile :
    ppu.memory.read ppu.scroll.current.tileAddress =
      latch.tile
  palette :
    (ppu.memory.read ppu.scroll.current.attributeAddress >>>
        ppu.scroll.current.attributeShift) &&& 0b11 =
      latch.palette
  low :
    ppu.memory.read
        (PatternRow.ofTile
          ppu.registers.control.backgroundTable latch.tile
          ppu.scroll.current.fineY).lowPlane =
      latch.low
  high :
    ppu.memory.read
        (PatternRow.ofTile
          ppu.registers.control.backgroundTable latch.tile
          ppu.scroll.current.fineY).highPlane =
      latch.high

theorem backgroundTable_cases (control : PpuControl) :
    control.backgroundTable = 0 ∨
      control.backgroundTable = PatternRow.tableMask := by
  unfold PpuControl.backgroundTable
  split
  · exact Or.inr rfl
  · exact Or.inl rfl

/- The fetches bring the tile at the place of the address. -/
theorem fetches_latchAt
    (ppu : Ppu)
    (hPlane : ppu.scroll.current.OnPlane) :
    ppu.Fetches
      (ScrollPlane.latchAt ppu.memory
        ppu.registers.control.backgroundTable
        ppu.scroll.current.planeColumn
        ppu.scroll.current.planeRow) where
  tile := ScrollPlane.fetchedTile_eq _ _ hPlane _
  palette := ScrollPlane.fetchedPalette_eq _ _ hPlane _
  low := ScrollPlane.fetchedLow_eq _ _ hPlane _
    (backgroundTable_cases _)
  high := ScrollPlane.fetchedHigh_eq _ _ hPlane _
    (backgroundTable_cases _)

section FetchDot

variable {ppu : Ppu} {tiles : Nat → TileLatch} {phase : Nat}

/- Dots that fetch nothing only let the phase go on. -/
theorem fetched_of_unchanged
    (hPrefetched : Prefetched tiles phase ppu.pipeline)
    (hPart : phase % 8 % 2 = 1) :
    Fetched tiles phase ppu.pipeline where
  latched := hPrefetched.latched.step
    (if_neg (by omega)).symm (if_neg (by omega)).symm
    (if_neg (by omega)).symm (if_neg (by omega)).symm
  windows := by
    have hHeld : held phase = 16 - phase % 8 :=
      if_neg (by omega)
    exact hHeld ▸ hPrefetched.windows

/- Dots that fetch a part leave the registers as they are. -/
theorem fetched_of_latched
    {latch : TileLatch}
    (hPrefetched : Prefetched tiles phase ppu.pipeline)
    (hLater : ¬phase % 8 = 0)
    (hLatched : Latched tiles (phase + 1) latch) :
    Fetched tiles phase
      { ppu.pipeline with next := latch } where
  latched := hLatched
  windows := by
    have hHeld : held phase = 16 - phase % 8 := if_neg hLater
    exact hHeld ▸ hPrefetched.windows

/-
  A fetch dot brings its part of the tile, and on the first
  dot of a tile the one before it enters the registers.
-/
theorem fetchBackground_fetched
    (hPrefetched : Prefetched tiles phase ppu.pipeline)
    (hDot : ppu.raster.dot % 8 = (phase + 1) % 8)
    (hFetches : ppu.Fetches (tiles (phase / 8))) :
    Fetched tiles phase ppu.fetchBackground.pipeline := by
  have hLatched := hPrefetched.latched
  have hRow (hPart : phase % 8 = 4 ∨ phase % 8 = 6) :
      ppu.backgroundRow =
        PatternRow.ofTile
          ppu.registers.control.backgroundTable
          (tiles (phase / 8)).tile
          ppu.scroll.current.fineY := by
    unfold backgroundRow
    rw [hLatched.tile (phase / 8) (by omega) (by omega)]
  have hCases : phase % 8 = 0 ∨ phase % 8 = 2 ∨
      phase % 8 = 4 ∨ phase % 8 = 6 ∨
      phase % 8 % 2 = 1 := by
    omega
  rcases hCases with hPart | hPart | hPart | hPart | hPart
  · have hStep : ppu.fetchBackground =
        ppu.loadShifters.fetchNametable := by
      unfold fetchBackground
      rw [show ppu.raster.dot % 8 = 1 by omega]
      rfl
    have hHeld : held phase = 8 := if_pos hPart
    rw [hStep]
    constructor
    · exact hLatched.step
        (hFetches.tile.trans (if_pos hPart).symm)
        (if_neg (by omega)).symm (if_neg (by omega)).symm
        (if_neg (by omega)).symm
    · rw [hPart]
      exact (hHeld ▸ hPrefetched.windows).load hLatched hPart
  · have hStep : ppu.fetchBackground =
        ppu.fetchAttribute := by
      unfold fetchBackground
      rw [show ppu.raster.dot % 8 = 3 by omega]
      rfl
    rw [hStep]
    apply fetched_of_latched hPrefetched (by omega)
    exact hLatched.step (if_neg (by omega)).symm
      (hFetches.palette.trans (if_pos hPart).symm)
      (if_neg (by omega)).symm (if_neg (by omega)).symm
  · have hStep : ppu.fetchBackground =
        ppu.fetchLowPlane := by
      unfold fetchBackground
      rw [show ppu.raster.dot % 8 = 5 by omega]
      rfl
    rw [hStep]
    apply fetched_of_latched hPrefetched (by omega)
    refine hLatched.step (if_neg (by omega)).symm
      (if_neg (by omega)).symm ?_ (if_neg (by omega)).symm
    rw [if_pos hPart, hRow (Or.inl hPart)]
    exact hFetches.low
  · have hStep : ppu.fetchBackground =
        ppu.fetchHighPlane := by
      unfold fetchBackground
      rw [show ppu.raster.dot % 8 = 7 by omega]
      rfl
    rw [hStep]
    apply fetched_of_latched hPrefetched (by omega)
    refine hLatched.step (if_neg (by omega)).symm
      (if_neg (by omega)).symm (if_neg (by omega)).symm ?_
    rw [if_pos hPart, hRow (Or.inr hPart)]
    exact hFetches.high
  · have hStep :
        ppu.fetchBackground.pipeline = ppu.pipeline := by
      unfold fetchBackground
      split <;> first | rfl | omega
    rw [hStep]
    exact fetched_of_unchanged hPrefetched hPart

/- The address moves on to the next tile on the last dot. -/
theorem fetchBackground_current
    (ppu : Ppu) :
    ppu.fetchBackground.scroll.current =
      if ppu.raster.dot % 8 = 0 then
        ppu.scroll.current.incrementX
      else
        ppu.scroll.current := by
  unfold fetchBackground
  split
  next h => rw [h]; rfl
  next h => rw [h]; rfl
  next h => rw [h]; rfl
  next h => rw [h]; rfl
  next h => rw [h]; rfl
  next h => rw [if_neg h]

end FetchDot

------------------------------------------------------------
-- Dots of a Line
------------------------------------------------------------

section Dots

variable {ppu : Ppu}

theorem isFetchDot_iff (dot : Nat) :
    isFetchDot dot = true ↔
      (1 ≤ dot ∧ dot ≤ 256) ∨ (321 ≤ dot ∧ dot ≤ 336) := by
  simp [isFetchDot]

/- Most dots of a fetch only fetch. -/
theorem fetch_of_fetchDot
    (hFetch : isFetchDot ppu.raster.dot = true)
    (hDot : ppu.raster.dot ≠ 256) :
    ppu.fetch = ppu.fetchBackground := by
  rw [isFetchDot_iff] at hFetch
  have hFetchDot : isFetchDot ppu.raster.dot = true :=
    (isFetchDot_iff _).mpr hFetch
  unfold fetch updateScroll
  simp only [hFetchDot, if_true, fetchBackground_raster]
  split_ifs <;> first | rfl | omega

/- The last of them also moves down by one row. -/
theorem fetch_at_lastColumn
    (hDot : ppu.raster.dot = 256) :
    ppu.fetch =
      ppu.fetchBackground.changeAddress .incrementY := by
  have hFetchDot : isFetchDot ppu.raster.dot = true := by
    rw [hDot]
    rfl
  unfold fetch updateScroll
  simp only [hFetchDot, if_true, fetchBackground_raster]
  split_ifs <;> first | rfl | omega

theorem isFetchDot_eq_false
    {dot : Nat}
    (hGap :
      dot = 0 ∨ (257 ≤ dot ∧ dot ≤ 320) ∨ 337 ≤ dot) :
    isFetchDot dot = false := by
  rw [Bool.eq_false_iff, Ne, isFetchDot_iff]
  omega

/- Behind the last column the address returns to the left. -/
theorem fetch_at_return
    (hDot : ppu.raster.dot = 257) :
    ppu.fetch =
      (ppu.changeAddress
        (·.copyHorizontal
          ppu.scroll.temporary)).evaluateSprites := by
  have hNoFetch : isFetchDot ppu.raster.dot = false := by
    rw [hDot]
    rfl
  unfold fetch updateScroll
  simp only [hNoFetch, Bool.false_eq_true, if_false]
  split_ifs <;> first | rfl | omega

/- The pre-render line restores the vertical position. -/
theorem fetch_of_verticalDot
    (hDot : 280 ≤ ppu.raster.dot ∧ ppu.raster.dot ≤ 304)
    (hLine : ppu.isPrerenderLine = true) :
    ppu.fetch =
      ppu.changeAddress
        (·.copyVertical ppu.scroll.temporary) := by
  have hNoFetch : isFetchDot ppu.raster.dot = false :=
    isFetchDot_eq_false (by omega)
  unfold fetch updateScroll
  simp only [hNoFetch, Bool.false_eq_true, if_false, hLine,
    and_true]
  split_ifs <;> first | rfl | omega

/- Two fetches at the end of a line are for nothing. -/
theorem fetch_of_spareDot
    (hDot : ppu.raster.dot = 337 ∨ ppu.raster.dot = 339) :
    ppu.fetch = ppu.fetchNametable := by
  have hNoFetch : isFetchDot ppu.raster.dot = false :=
    isFetchDot_eq_false (by omega)
  unfold fetch updateScroll
  simp only [hNoFetch, Bool.false_eq_true, if_false]
  split_ifs <;> first | rfl | omega

/- All other dots leave the unit as it is. -/
theorem fetch_of_idleDot
    (hDot :
      ppu.raster.dot = 0 ∨
        (258 ≤ ppu.raster.dot ∧ ppu.raster.dot ≤ 320) ∨
        ppu.raster.dot = 338 ∨ 340 ≤ ppu.raster.dot)
    (hLine :
      280 ≤ ppu.raster.dot → ppu.raster.dot ≤ 304 →
        ppu.isPrerenderLine = false) :
    ppu.fetch = ppu := by
  have hNoFetch : isFetchDot ppu.raster.dot = false :=
    isFetchDot_eq_false (by omega)
  unfold fetch updateScroll
  simp only [hNoFetch, Bool.false_eq_true, if_false]
  split_ifs with h₁ h₂ h₃ h₄ h₅
  · rfl
  · omega
  · omega
  · have hNot := hLine h₄.1 h₄.2.1
    rw [h₄.2.2] at hNot
    contradiction
  · omega
  · rfl

end Dots

------------------------------------------------------------
-- Preparation
------------------------------------------------------------

/-
  How far the fetches for a line have come before a dot: the
  first two tiles of a line are fetched at the end of the one
  before, and nothing is fetched between the lines.
-/
def fetchPhase (dot : Nat) : Nat :=
  if dot ≤ 256 then max dot 1 + 15
  else if dot ≤ 320 then 0
  else min (dot - 321) 16

/-
  The line of the picture that the unit works for: behind the
  last column it is the next one, which is line 0 on the
  pre-render line.
-/
def linePrepared (scanline dot : Nat) : Nat :=
  if scanline < Hardware.visibleScanlines then
    if dot ≤ 256 then scanline else scanline + 1
  else
    0

/- The tiles of a line of a picture. -/
def lineTiles
    (start : Ppu)
    (line k : Nat) : TileLatch :=
  ScrollPlane.latchAt start.memory
    start.registers.control.backgroundTable
    ((start.scroll.temporary.planeColumn + k) % 64)
    ((start.scroll.temporary.planeRow + line) % 480)

/-
  The unit is prepared for a line when its address is where
  the fetches of the line have come to, and its pipeline
  holds the tiles they have brought.  The horizontal position
  is restored on dot 257 of all lines, and the vertical one
  from dot 280 of the pre-render line on.
-/
structure Prepared
    (start : Ppu)
    (scanline dot : Nat)
    (ppu : Ppu) : Prop where
  column :
    dot ≠ 257 →
      ppu.scroll.current.planeColumn =
        (start.scroll.temporary.planeColumn +
          fetchPhase dot / 8) % 64
  onPlane :
    scanline < Hardware.visibleScanlines ∨ 281 ≤ dot →
      ppu.scroll.current.OnPlane
  row :
    scanline < Hardware.visibleScanlines ∨ 281 ≤ dot →
      ppu.scroll.current.planeRow =
        (start.scroll.temporary.planeRow +
          linePrepared scanline dot) % 480
  pipeline :
    Prefetched (lineTiles start (linePrepared scanline dot))
      (fetchPhase dot) ppu.pipeline

/- Before the first fetch nothing has to be prepared. -/
theorem prefetched_zero
    (tiles : Nat → TileLatch)
    (pipeline : Pipeline) :
    Prefetched tiles 0 pipeline where
  latched := by
    constructor <;> intro k hFrom <;> omega
  windows := by
    have hHeld : held 0 = 8 := rfl
    constructor <;> intro i hIndex hStarted <;> omega

/- Between two tiles the number of the next one is free. -/
theorem prefetched_of_newTile
    {tiles : Nat → TileLatch}
    {phase : Nat}
    {pipeline : Pipeline}
    (tile : UInt8)
    (hPrefetched : Prefetched tiles phase pipeline)
    (hBetween : phase % 8 = 0) :
    Prefetched tiles phase
      { pipeline with
        next := { pipeline.next with tile := tile } } where
  latched :=
    { tile := by
        intro k hFrom hTo
        omega
      palette := hPrefetched.latched.palette
      low := hPrefetched.latched.low
      high := hPrefetched.latched.high }
  windows := hPrefetched.windows

section Tick

variable {start ppu : Ppu}

/-
  While the unit renders a frame: what the processor has set
  is as at the start, and the line is part of the picture or
  the one before it.
-/
structure Rendering (start ppu : Ppu) : Prop where
  keeps : Keeps start ppu
  active : ppu.isRendering = true
  standard : ppu.timing.Standard
  onPlane : start.scroll.temporary.OnPlane
  place :
    ppu.raster.scanline < Hardware.visibleScanlines ∨
      (ppu.isPrerenderLine = true ∧
        Hardware.visibleScanlines ≤ ppu.raster.scanline ∧
        257 ≤ ppu.raster.dot)

theorem tick_current
    (hActive : ppu.isRendering = true) :
    ppu.tick.2.scroll.current = ppu.fetch.scroll.current := by
  rw [tick_scroll, atOutput, if_pos hActive]

/- The fetches bring the tile whose turn it is. -/
theorem Rendering.fetches
    (hRendering : Rendering start ppu)
    (hPrepared :
      Prepared start ppu.raster.scanline ppu.raster.dot ppu)
    (hFetch : isFetchDot ppu.raster.dot = true) :
    ppu.Fetches
      (lineTiles start
        (linePrepared ppu.raster.scanline ppu.raster.dot)
        (fetchPhase ppu.raster.dot / 8)) := by
  have hPlace := hRendering.place
  rw [isFetchDot_iff] at hFetch
  have hVertical :
      ppu.raster.scanline < Hardware.visibleScanlines ∨
        281 ≤ ppu.raster.dot := by
    rcases hPlace with hVisible | ⟨-, -, hBehind⟩ <;> omega
  have hFetches := ppu.fetches_latchAt
    (hPrepared.onPlane hVertical)
  rw [hPrepared.column (by omega), hPrepared.row hVertical,
    hRendering.keeps.memory, hRendering.keeps.control]
    at hFetches
  exact hFetches

/- A fetch dot completes its part of the pipeline. -/
theorem Rendering.fetched
    (hRendering : Rendering start ppu)
    (hPrepared :
      Prepared start ppu.raster.scanline ppu.raster.dot ppu)
    (hFetch : isFetchDot ppu.raster.dot = true) :
    Fetched
      (lineTiles start
        (linePrepared ppu.raster.scanline ppu.raster.dot))
      (fetchPhase ppu.raster.dot)
      ppu.fetchBackground.pipeline := by
  have hDot := (isFetchDot_iff _).mp hFetch
  apply fetchBackground_fetched hPrepared.pipeline
  · unfold fetchPhase
    split_ifs <;> omega
  · exact hRendering.fetches hPrepared hFetch

namespace Prepared

variable (hRendering : Rendering start ppu)
variable (hPrepared :
  Prepared start ppu.raster.scanline ppu.raster.dot ppu)

include hRendering hPrepared

/- A dot of a fetch. -/
theorem tick_fetchDot
    (hFetch : isFetchDot ppu.raster.dot = true)
    (hDot : ppu.raster.dot ≠ 256) :
    Prepared start ppu.raster.scanline (ppu.raster.dot + 1)
      ppu.tick.2 := by
  have hActive := hRendering.active
  have hPlace := hRendering.place
  have hStep := fetch_of_fetchDot hFetch hDot
  have hFetched := hRendering.fetched hPrepared hFetch
  have hRange := (isFetchDot_iff _).mp hFetch
  have hVertical :
      ppu.raster.scanline < Hardware.visibleScanlines ∨
        281 ≤ ppu.raster.dot := by
    rcases hPlace with hVisible | ⟨-, -, hBehind⟩ <;> omega
  have hPhase :
      fetchPhase (ppu.raster.dot + 1) =
        fetchPhase ppu.raster.dot + 1 := by
    unfold fetchPhase
    split_ifs <;> omega
  have hPart :
      ppu.raster.dot % 8 = 0 ↔
        fetchPhase ppu.raster.dot % 8 = 7 := by
    unfold fetchPhase
    split_ifs <;> omega
  have hLine :
      linePrepared ppu.raster.scanline
          (ppu.raster.dot + 1) =
        linePrepared ppu.raster.scanline ppu.raster.dot := by
    unfold linePrepared
    split_ifs <;> omega
  have hCurrent :
      ppu.tick.2.scroll.current =
        if ppu.raster.dot % 8 = 0 then
          ppu.scroll.current.incrementX
        else
          ppu.scroll.current := by
    rw [tick_current hActive, hStep, fetchBackground_current]
  have hOnPlane := hPrepared.onPlane hVertical
  constructor
  · intro _
    rw [hCurrent, hPhase]
    have hColumn := hPrepared.column (by omega)
    split
    next hLast =>
      rw [ScrollAddress.planeColumn_incrementX, hColumn]
      omega
    next hNotLast =>
      rw [hColumn]
      omega
  · intro _
    rw [hCurrent]
    split
    · exact ScrollAddress.onPlane_incrementX _ hOnPlane
    · exact hOnPlane
  · intro _
    rw [hCurrent, hLine, ← hPrepared.row hVertical]
    split
    · exact ScrollAddress.planeRow_incrementX _
    · rfl
  · rw [hLine, hPhase, tick_pipeline, hActive, hFetch,
      atOutput, if_pos hActive, hStep]
    exact hFetched.shift

/- The last dot of a line also goes down by one row. -/
theorem tick_lastColumn
    (hVisible :
      ppu.raster.scanline < Hardware.visibleScanlines)
    (hDot : ppu.raster.dot = 256) :
    Prepared start ppu.raster.scanline (ppu.raster.dot + 1)
      ppu.tick.2 := by
  have hActive := hRendering.active
  have hCurrent :
      ppu.tick.2.scroll.current =
        ppu.scroll.current.incrementX.incrementY := by
    have hMove :
        ppu.fetchBackground.scroll.current =
          ppu.scroll.current.incrementX := by
      rw [fetchBackground_current, hDot]
      rfl
    rw [tick_current hActive, fetch_at_lastColumn hDot,
      ← hMove]
    rfl
  have hOnPlane := ScrollAddress.onPlane_incrementX _
    (hPrepared.onPlane (Or.inl hVisible))
  constructor
  · intro hReturn
    omega
  · intro _
    rw [hCurrent]
    exact ScrollAddress.onPlane_incrementY _ hOnPlane
  · intro _
    have hRow := hPrepared.row (Or.inl hVisible)
    rw [hCurrent,
      ScrollAddress.planeRow_incrementY _ hOnPlane,
      ScrollAddress.planeRow_incrementX, hRow, hDot]
    unfold linePrepared
    rw [if_pos hVisible, if_pos hVisible]
    simp only [le_refl, if_true]
    rw [if_neg (by omega)]
    omega
  · have hPhase : fetchPhase (ppu.raster.dot + 1) = 0 := by
      rw [hDot]
      rfl
    rw [hPhase]
    exact prefetched_zero _ _

/- Behind the last column the unit returns to the left. -/
theorem tick_return
    (hDot : ppu.raster.dot = 257) :
    Prepared start ppu.raster.scanline (ppu.raster.dot + 1)
      ppu.tick.2 := by
  have hActive := hRendering.active
  have hCurrent :
      ppu.tick.2.scroll.current =
        ppu.scroll.current.copyHorizontal
          start.scroll.temporary := by
    rw [tick_current hActive, fetch_at_return hDot,
      evaluateSprites_scroll, ← hRendering.keeps.temporary]
    rfl
  have hVertical
      (hNew :
        ppu.raster.scanline < Hardware.visibleScanlines ∨
          281 ≤ ppu.raster.dot + 1) :
      ppu.raster.scanline < Hardware.visibleScanlines ∨
        281 ≤ ppu.raster.dot := by
    omega
  have hPhase : fetchPhase (ppu.raster.dot + 1) = 0 := by
    rw [hDot]
    rfl
  have hColumn := start.scroll.temporary.planeColumn_lt
  constructor
  · intro _
    rw [hCurrent, hPhase,
      ScrollAddress.planeColumn_copyHorizontal]
    omega
  · intro hNew
    rw [hCurrent]
    exact ScrollAddress.onPlane_copyHorizontal _ _
      (hPrepared.onPlane (hVertical hNew))
  · intro hNew
    rw [hCurrent, ScrollAddress.planeRow_copyHorizontal,
      hPrepared.row (hVertical hNew), hDot]
    rfl
  · rw [hPhase]
    exact prefetched_zero _ _

/- The vertical position is restored before a frame. -/
theorem tick_verticalDot
    (hDot : 280 ≤ ppu.raster.dot ∧ ppu.raster.dot ≤ 304)
    (hLine : ppu.isPrerenderLine = true)
    (hBelow :
      Hardware.visibleScanlines ≤ ppu.raster.scanline) :
    Prepared start ppu.raster.scanline (ppu.raster.dot + 1)
      ppu.tick.2 := by
  have hActive := hRendering.active
  have hCurrent :
      ppu.tick.2.scroll.current =
        ppu.scroll.current.copyVertical
          start.scroll.temporary := by
    rw [tick_current hActive, fetch_of_verticalDot hDot hLine,
      ← hRendering.keeps.temporary]
    rfl
  have hPhase (dot : Nat) (hFrom : 280 ≤ dot)
      (hTo : dot ≤ 305) : fetchPhase dot = 0 := by
    unfold fetchPhase
    split_ifs <;> omega
  have hFirst :
      linePrepared ppu.raster.scanline
        (ppu.raster.dot + 1) = 0 :=
    if_neg (by omega)
  have hRow :=
    start.scroll.temporary.planeRow_lt hRendering.onPlane
  constructor
  · intro _
    have hColumn := hPrepared.column (by omega)
    rw [hPhase _ (by omega) (by omega)] at hColumn
    rw [hCurrent, hPhase _ (by omega) (by omega),
      ScrollAddress.planeColumn_copyVertical, hColumn]
  · intro _
    rw [hCurrent]
    exact ScrollAddress.onPlane_copyVertical _ _
      hRendering.onPlane
  · intro _
    rw [hCurrent, hFirst,
      ScrollAddress.planeRow_copyVertical]
    omega
  · rw [hPhase _ (by omega) (by omega)]
    exact prefetched_zero _ _

omit hRendering in
/- Between the fetches nothing has to change. -/
theorem step_gap
    (hGap :
      ppu.raster.dot = 0 ∨
        (258 ≤ ppu.raster.dot ∧ ppu.raster.dot ≤ 320) ∨
        337 ≤ ppu.raster.dot)
    (hVertical :
      ppu.raster.dot = 280 →
        ppu.raster.scanline < Hardware.visibleScanlines) :
    Prepared start ppu.raster.scanline
      (ppu.raster.dot + 1) ppu := by
  have hPhase :
      fetchPhase (ppu.raster.dot + 1) =
        fetchPhase ppu.raster.dot := by
    unfold fetchPhase
    split_ifs <;> omega
  have hLine :
      linePrepared ppu.raster.scanline
          (ppu.raster.dot + 1) =
        linePrepared ppu.raster.scanline ppu.raster.dot := by
    unfold linePrepared
    split_ifs <;> omega
  have hRestored
      (hNew :
        ppu.raster.scanline < Hardware.visibleScanlines ∨
          281 ≤ ppu.raster.dot + 1) :
      ppu.raster.scanline < Hardware.visibleScanlines ∨
        281 ≤ ppu.raster.dot := by
    omega
  constructor
  · intro _
    rw [hPhase]
    exact hPrepared.column (by omega)
  · intro hNew
    exact hPrepared.onPlane (hRestored hNew)
  · intro hNew
    rw [hLine]
    exact hPrepared.row (hRestored hNew)
  · rw [hLine, hPhase]
    exact hPrepared.pipeline

omit hPrepared in
/- A dot without effect leaves the unit prepared. -/
theorem tick_unchanged
    {dot : Nat}
    (hHere : Prepared start ppu.raster.scanline dot ppu)
    (hNoFetch : isFetchDot ppu.raster.dot = false)
    (hCurrent :
      ppu.fetch.scroll.current = ppu.scroll.current)
    (hPipeline :
      ∀ tiles,
        Prefetched tiles (fetchPhase dot) ppu.pipeline →
          Prefetched tiles (fetchPhase dot)
            ppu.fetch.pipeline) :
    Prepared start ppu.raster.scanline dot ppu.tick.2 := by
  have hActive := hRendering.active
  have hMoved :
      ppu.tick.2.scroll.current = ppu.scroll.current := by
    rw [tick_current hActive, hCurrent]
  constructor
  · rw [hMoved]
    exact hHere.column
  · rw [hMoved]
    exact hHere.onPlane
  · rw [hMoved]
    exact hHere.row
  · rw [tick_pipeline, hNoFetch, Bool.and_false, atOutput,
      if_pos hActive]
    exact hPipeline _ hHere.pipeline

/- One of the two fetches that nothing uses. -/
theorem tick_spareDot
    (hDot : ppu.raster.dot = 337 ∨ ppu.raster.dot = 339) :
    Prepared start ppu.raster.scanline (ppu.raster.dot + 1)
      ppu.tick.2 := by
  have hHere := hPrepared.step_gap (by omega) (by omega)
  have hStep := fetch_of_spareDot hDot
  have hPhase : fetchPhase (ppu.raster.dot + 1) = 16 := by
    unfold fetchPhase
    split_ifs <;> omega
  apply tick_unchanged hRendering hHere
  · exact isFetchDot_eq_false (by omega)
  · rw [hStep]
    rfl
  · intro tiles hPrefetched
    rw [hPhase] at hPrefetched ⊢
    rw [hStep]
    exact prefetched_of_newTile _ hPrefetched rfl

/- A dot on which a rendering unit rests. -/
theorem tick_idleDot
    (hDot :
      ppu.raster.dot = 0 ∨
        (258 ≤ ppu.raster.dot ∧ ppu.raster.dot ≤ 320) ∨
        ppu.raster.dot = 338 ∨ 340 ≤ ppu.raster.dot)
    (hLine :
      280 ≤ ppu.raster.dot → ppu.raster.dot ≤ 304 →
        ppu.isPrerenderLine = false) :
    Prepared start ppu.raster.scanline (ppu.raster.dot + 1)
      ppu.tick.2 := by
  have hStep := fetch_of_idleDot hDot hLine
  have hVertical (h280 : ppu.raster.dot = 280) :
      ppu.raster.scanline < Hardware.visibleScanlines := by
    rcases hRendering.place with hVisible | ⟨hPre, -, -⟩
    · exact hVisible
    · rw [hLine (by omega) (by omega)] at hPre
      contradiction
  have hHere := hPrepared.step_gap (by omega) hVertical
  apply tick_unchanged hRendering hHere
  · exact isFetchDot_eq_false (by omega)
  · rw [hStep]
  · intro tiles hPrefetched
    rw [hStep]
    exact hPrefetched

/- Every dot prepares for the next one. -/
theorem tick
    (hDot : ppu.raster.dot ≤ 340) :
    Prepared start ppu.raster.scanline (ppu.raster.dot + 1)
      ppu.tick.2 := by
  rcases Bool.eq_false_or_eq_true
      (isFetchDot ppu.raster.dot) with hFetch | hNoFetch
  · by_cases hLast : ppu.raster.dot = 256
    · have hVisible :
          ppu.raster.scanline <
            Hardware.visibleScanlines := by
        rcases hRendering.place with hHere | ⟨-, -, hBehind⟩
        · exact hHere
        · omega
      exact hPrepared.tick_lastColumn hRendering hVisible
        hLast
    · exact hPrepared.tick_fetchDot hRendering hFetch hLast
  · have hRange := mt (isFetchDot_iff ppu.raster.dot).mpr
      (Bool.eq_false_iff.mp hNoFetch)
    by_cases hReturn : ppu.raster.dot = 257
    · exact hPrepared.tick_return hRendering hReturn
    · by_cases hSpare :
          ppu.raster.dot = 337 ∨ ppu.raster.dot = 339
      · exact hPrepared.tick_spareDot hRendering hSpare
      · by_cases hVertical :
            (280 ≤ ppu.raster.dot ∧ ppu.raster.dot ≤ 304) ∧
              ppu.isPrerenderLine = true
        · have hPre := isPrerenderLine_iff.mp hVertical.2
          have hBelow := hRendering.standard.picture_lt
          exact hPrepared.tick_verticalDot hRendering
            hVertical.1 hVertical.2 (hPre ▸ hBelow.le)
        · apply hPrepared.tick_idleDot hRendering (by omega)
          intro hFrom hTo
          rw [Bool.eq_false_iff]
          intro hPre
          exact hVertical ⟨⟨hFrom, hTo⟩, hPre⟩

end Prepared

end Tick

end Ppu

end Famicom
