import Famicom.Proofs.Video.PatternRows

/-
  The shift registers as windows on a stream of tiles.

  The tiles of a line form a stream of pixels, eight for each
  tile.  A register that is loaded every eight dots and moved
  on by one pixel on each of them shows sixteen pixels of the
  stream, except that its lower half is stale just before it
  is loaded.

  Key definitions include:
    * `Shifters.Carries`
    * `Pipeline.Prefetched`
    * `Pipeline.Fetched`

  Main declarations:
    * `Pipeline.Fetched.shift`
    * `Pipeline.Fetched.toNat_backgroundPixel`
-/

namespace Famicom

namespace Shifters

------------------------------------------------------------
-- Bits of Registers
------------------------------------------------------------

/- Shifting moves every bit up by one place. -/
theorem bitAt_shiftLeft
    (register : UInt16)
    (place : Nat)
    (hPlace : place + 1 < 16) :
    bitAt (register <<< 1).toNat (place + 1) =
      bitAt register.toNat place := by
  rw [bitAt_eq_testBit, bitAt_eq_testBit,
    UInt16.toNat_shiftLeft, Nat.testBit_mod_two_pow,
    Nat.testBit_shiftLeft]
  simp [hPlace]

/- Loading keeps the upper half of a register. -/
theorem bitAt_reload_upper
    (register : UInt16)
    (value : UInt8)
    (place : Nat)
    (hPlace : place < 8) :
    bitAt (reload register value).toNat (place + 8) =
      bitAt register.toNat (place + 8) := by
  have hMask : (0xFF00 : Nat).testBit (place + 8) = true := by
    interval_cases place <;> rfl
  have hValue :
      value.toNat.testBit (place + 8) = false :=
    Nat.testBit_lt_two_pow
      (Nat.lt_of_lt_of_le value.toNat_lt
        (Nat.pow_le_pow_right (by decide)
          (Nat.le_add_left 8 place)))
  rw [bitAt_eq_testBit, bitAt_eq_testBit, reload,
    UInt16.toNat_or, UInt16.toNat_and, Nat.testBit_or,
    Nat.testBit_and, UInt8.toNat_toUInt16, hValue]
  simp [hMask]

/- Loading replaces the lower half of a register. -/
theorem bitAt_reload_lower
    (register : UInt16)
    (value : UInt8)
    (place : Nat)
    (hPlace : place < 8) :
    bitAt (reload register value).toNat place =
      bitAt value.toNat place := by
  have hMask : (0xFF00 : Nat).testBit place = false := by
    interval_cases place <;> rfl
  rw [bitAt_eq_testBit, bitAt_eq_testBit, reload,
    UInt16.toNat_or, UInt16.toNat_and, Nat.testBit_or,
    Nat.testBit_and, UInt8.toNat_toUInt16]
  simp [hMask]

/- A spread bit is found in every place. -/
theorem bitAt_spread
    (value n : UInt8)
    (place : Nat)
    (hBit : n.toNat < 8)
    (hPlace : place < 8) :
    bitAt (spread value n).toNat place =
      bitAt value.toNat n.toNat := by
  have hCases := bitAt_lt value.toNat n.toNat
  have hSet :
      Bits.isSet value n = true ↔
        bitAt value.toNat n.toNat = 1 := by
    rw [Bits.isSet, beq_iff_eq, ← UInt8.toNat_inj,
      Bits.toNat_bit value n hBit]
    rfl
  unfold spread
  split
  next hOne =>
    rw [hSet.mp hOne]
    interval_cases place <;> rfl
  next hZero =>
    have hNotOne : ¬bitAt value.toNat n.toNat = 1 :=
      fun hOne => hZero (hSet.mpr hOne)
    rw [show bitAt value.toNat n.toNat = 0 by omega]
    simp [bitAt]

------------------------------------------------------------
-- Windows
------------------------------------------------------------

/-
  A register shows the pixels of a stream that follow each
  other from its top bit on, `count` of them.  After `phase`
  dots the top bit is the pixel sixteen before `phase`, and
  nothing is asked of bits that come before the stream.
-/
def Carries
    (stream : Nat → Nat)
    (phase count : Nat)
    (register : UInt16) : Prop :=
  ∀ i < count, 16 ≤ phase + i →
    bitAt register.toNat (15 - i) = stream (phase + i - 16)

namespace Carries

variable {stream : Nat → Nat} {phase count : Nat}
variable {register : UInt16}

/- A shifted register shows one pixel less of the stream. -/
theorem shift
    (hCarries : Carries stream phase (count + 1) register)
    (hCount : count < 16) :
    Carries stream (phase + 1) count (register <<< 1) := by
  intro i hIndex hStarted
  have hOld := hCarries (i + 1) (by omega) (by omega)
  have hPlace : 15 - i = 15 - (i + 1) + 1 := by omega
  rw [hPlace, bitAt_shiftLeft _ _ (by omega), hOld]
  congr 1
  omega

/- Loading the next eight pixels makes a full window. -/
theorem reload
    {value : UInt8}
    (hCarries : Carries stream phase 8 register)
    (hValue :
      ∀ j < 8, 8 ≤ phase + j →
        bitAt value.toNat (7 - j) = stream (phase + j - 8)) :
    Carries stream phase 16
      (Shifters.reload register value) := by
  intro i hIndex hStarted
  rcases Nat.lt_or_ge i 8 with hUpper | hLower
  · have hPlace : 15 - i = 7 - i + 8 := by omega
    rw [hPlace, bitAt_reload_upper _ _ _ (by omega),
      ← hPlace]
    exact hCarries i hUpper hStarted
  · have hNew := hValue (i - 8) (by omega) (by omega)
    have hPlace : 7 - (i - 8) = 15 - i := by omega
    rw [hPlace] at hNew
    rw [bitAt_reload_lower _ _ _ (by omega), hNew]
    congr 1
    omega

end Carries

end Shifters

------------------------------------------------------------
-- Streams of Tiles
------------------------------------------------------------

namespace TileLatch

/- The low bits of the pixels of a row of tiles. -/
def lowStream
    (tiles : Nat → TileLatch)
    (place : Nat) : Nat :=
  bitAt (tiles (place / 8)).low.toNat (7 - place % 8)

/- The high bits of the pixels of a row of tiles. -/
def highStream
    (tiles : Nat → TileLatch)
    (place : Nat) : Nat :=
  bitAt (tiles (place / 8)).high.toNat (7 - place % 8)

/- One bit of the palettes of the pixels of a row of tiles. -/
def paletteStream
    (tiles : Nat → TileLatch)
    (n place : Nat) : Nat :=
  bitAt (tiles (place / 8)).palette.toNat n

/-
  A latch in which the fetches of a row of tiles have come
  `phase` dots far.  A fetch takes eight dots, and each of
  its parts stays until the same part of the next tile.
-/
structure Latched
    (tiles : Nat → TileLatch)
    (phase : Nat)
    (latch : TileLatch) : Prop where
  tile :
    ∀ k, 8 * k + 1 ≤ phase → phase < 8 * k + 8 →
      latch.tile = (tiles k).tile
  palette :
    ∀ k, 8 * k + 3 ≤ phase → phase < 8 * k + 11 →
      latch.palette = (tiles k).palette
  low :
    ∀ k, 8 * k + 5 ≤ phase → phase < 8 * k + 13 →
      latch.low = (tiles k).low
  high :
    ∀ k, 8 * k + 7 ≤ phase → phase < 8 * k + 15 →
      latch.high = (tiles k).high

/-
  One dot of the fetches: four of the eight dots bring a part
  of the tile whose turn it is.
-/
theorem Latched.step
    {tiles : Nat → TileLatch}
    {phase : Nat}
    {old new : TileLatch}
    (hLatched : Latched tiles phase old)
    (hTile :
      new.tile =
        if phase % 8 = 0 then (tiles (phase / 8)).tile
        else old.tile)
    (hPalette :
      new.palette =
        if phase % 8 = 2 then (tiles (phase / 8)).palette
        else old.palette)
    (hLow :
      new.low =
        if phase % 8 = 4 then (tiles (phase / 8)).low
        else old.low)
    (hHigh :
      new.high =
        if phase % 8 = 6 then (tiles (phase / 8)).high
        else old.high) :
    Latched tiles (phase + 1) new where
  tile := by
    intro k hFrom hTo
    rw [hTile]
    split
    · rw [show phase / 8 = k by omega]
    · exact hLatched.tile k (by omega) (by omega)
  palette := by
    intro k hFrom hTo
    rw [hPalette]
    split
    · rw [show phase / 8 = k by omega]
    · exact hLatched.palette k (by omega) (by omega)
  low := by
    intro k hFrom hTo
    rw [hLow]
    split
    · rw [show phase / 8 = k by omega]
    · exact hLatched.low k (by omega) (by omega)
  high := by
    intro k hFrom hTo
    rw [hHigh]
    split
    · rw [show phase / 8 = k by omega]
    · exact hLatched.high k (by omega) (by omega)

end TileLatch

------------------------------------------------------------
-- Windows on Tiles
------------------------------------------------------------

namespace Shifters

open TileLatch

/- All four registers are windows on one row of tiles. -/
structure Windows
    (tiles : Nat → TileLatch)
    (phase count : Nat)
    (shifters : Shifters) : Prop where
  patternLow :
    Carries (lowStream tiles) phase count shifters.patternLow
  patternHigh :
    Carries (highStream tiles) phase count
      shifters.patternHigh
  paletteLow :
    Carries (paletteStream tiles 0) phase count
      shifters.paletteLow
  paletteHigh :
    Carries (paletteStream tiles 1) phase count
      shifters.paletteHigh

namespace Windows

variable {tiles : Nat → TileLatch} {phase count : Nat}
variable {shifters : Shifters}

theorem shift
    (hWindows : Windows tiles phase (count + 1) shifters)
    (hCount : count < 16) :
    Windows tiles (phase + 1) count shifters.shift where
  patternLow := hWindows.patternLow.shift hCount
  patternHigh := hWindows.patternHigh.shift hCount
  paletteLow := hWindows.paletteLow.shift hCount
  paletteHigh := hWindows.paletteHigh.shift hCount

/-
  On the first dot of a fetch the tile fetched before it
  enters the registers.
-/
theorem load
    {latch : TileLatch}
    (hWindows : Windows tiles phase 8 shifters)
    (hLatched : Latched tiles phase latch)
    (hFirst : phase % 8 = 0) :
    Windows tiles phase 16 (shifters.load latch) := by
  have hTile (j : Nat) (hIndex : j < 8)
      (hStarted : 8 ≤ phase + j) :
      (phase + j - 8) / 8 = phase / 8 - 1 ∧
        (phase + j - 8) % 8 = j ∧ 8 ≤ phase := by
    omega
  constructor
  · apply hWindows.patternLow.reload
    intro j hIndex hStarted
    rcases hTile j hIndex hStarted with
      ⟨hNumber, hColumn, hLate⟩
    rw [hLatched.low (phase / 8 - 1) (by omega) (by omega)]
    unfold lowStream
    rw [hNumber, hColumn]
  · apply hWindows.patternHigh.reload
    intro j hIndex hStarted
    rcases hTile j hIndex hStarted with
      ⟨hNumber, hColumn, hLate⟩
    rw [hLatched.high (phase / 8 - 1) (by omega) (by omega)]
    unfold highStream
    rw [hNumber, hColumn]
  · apply hWindows.paletteLow.reload
    intro j hIndex hStarted
    rcases hTile j hIndex hStarted with ⟨hNumber, -, hLate⟩
    rw [bitAt_spread _ _ _ (by decide) (by omega),
      hLatched.palette (phase / 8 - 1) (by omega)
        (by omega)]
    unfold paletteStream
    rw [hNumber]
    rfl
  · apply hWindows.paletteHigh.reload
    intro j hIndex hStarted
    rcases hTile j hIndex hStarted with ⟨hNumber, -, hLate⟩
    rw [bitAt_spread _ _ _ (by decide) (by omega),
      hLatched.palette (phase / 8 - 1) (by omega)
        (by omega)]
    unfold paletteStream
    rw [hNumber]
    rfl

end Windows

end Shifters

------------------------------------------------------------
-- Pipelines
------------------------------------------------------------

namespace Pipeline

open TileLatch Shifters

/-
  How many pixels of the stream a register holds before a dot
  of the fetches: the lower half is stale until it is loaded.
-/
def held (phase : Nat) : Nat :=
  if phase % 8 = 0 then 8 else 16 - phase % 8

/- A pipeline `phase` dots into the fetches of a line. -/
structure Prefetched
    (tiles : Nat → TileLatch)
    (phase : Nat)
    (pipeline : Pipeline) : Prop where
  latched : Latched tiles phase pipeline.next
  windows :
    Windows tiles phase (held phase) pipeline.shifters

/- The same pipeline when the dot has fetched its part. -/
structure Fetched
    (tiles : Nat → TileLatch)
    (phase : Nat)
    (pipeline : Pipeline) : Prop where
  latched : Latched tiles (phase + 1) pipeline.next
  windows :
    Windows tiles phase (16 - phase % 8) pipeline.shifters

namespace Fetched

variable {tiles : Nat → TileLatch} {phase : Nat}
variable {pipeline : Pipeline}

/- A shift completes the dot. -/
theorem shift
    (hFetched : Fetched tiles phase pipeline) :
    Prefetched tiles (phase + 1) pipeline.shift where
  latched := hFetched.latched
  windows := by
    have hCount : 16 - phase % 8 = held (phase + 1) + 1 := by
      unfold held
      split <;> omega
    have hWindows := hFetched.windows
    rw [hCount] at hWindows
    exact hWindows.shift (by
      unfold held
      split <;> omega)

/-
  The pixel under the dot is one of the stream, as far behind
  the registers' first pixel as the fine scroll says.
-/
theorem toNat_backgroundPixel
    {fineX : UInt8}
    (hFetched : Fetched tiles phase pipeline)
    (hFine : fineX.toNat < 8)
    (hStarted : 16 ≤ phase) :
    let place := phase - 16 + fineX.toNat
    (pipeline.backgroundPixel fineX).toNat =
      entryOf
        (2 * highStream tiles place + lowStream tiles place)
        (2 * paletteStream tiles 1 place +
          paletteStream tiles 0 place) := by
  intro place
  have hPlace : phase + fineX.toNat - 16 = place := by
    simp only [place]
    omega
  have hWindow {stream : Nat → Nat} {register : UInt16}
      (hCarries :
        Carries stream phase (16 - phase % 8) register) :
      bitAt register.toNat (15 - fineX.toNat) =
        stream place := by
    rw [← hPlace]
    exact hCarries fineX.toNat (by omega) (by omega)
  unfold backgroundPixel
  rw [toNat_pixel _ _ hFine,
    hWindow hFetched.windows.patternHigh,
    hWindow hFetched.windows.patternLow,
    hWindow hFetched.windows.paletteHigh,
    hWindow hFetched.windows.paletteLow]

end Fetched

end Pipeline

end Famicom
