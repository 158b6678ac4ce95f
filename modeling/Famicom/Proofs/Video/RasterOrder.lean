import Famicom.Proofs.Video.RasterRun

/-
  Pixels come in raster order.

  A position of the raster says how many pixels of its frame
  have been output.  A dot outputs the next one or moves to
  where the number is the same.

  Key definitions include:
    * `rasterOrder`
    * `placesBetween`
    * `Raster.InFrame`
    * `Raster.place`
    * `Raster.pixelsBefore`

  Main declarations:
    * `rasterOrder_drop`
    * `Ppu.tick_raster_inFrame`
    * `Ppu.tick_place`
    * `Ppu.tick_places`
-/

namespace Famicom

------------------------------------------------------------
-- Raster Order
------------------------------------------------------------

/- The column and the row of a pixel. -/
def Pixel.place (pixel : Pixel) : Nat × Nat :=
  (pixel.x.toNat, pixel.y.toNat)

/- The places of the screen, row by row from the top left. -/
def rasterOrder : List (Nat × Nat) :=
  (List.range Hardware.screenHeight).flatMap fun y =>
    (List.range Hardware.screenWidth).map fun x => (x, y)

/- The places with numbers from `first` on and below `last`. -/
def placesBetween (first last : Nat) : List (Nat × Nat) :=
  (List.range' first (last - first)).map fun n =>
    (n % Hardware.screenWidth, n / Hardware.screenWidth)

theorem placesBetween_self (n : Nat) :
    placesBetween n n = [] := by
  unfold placesBetween
  rw [Nat.sub_self]
  rfl

theorem placesBetween_succ (n : Nat) :
    placesBetween n (n + 1) =
      [(n % Hardware.screenWidth,
        n / Hardware.screenWidth)] := by
  unfold placesBetween
  rw [Nat.add_sub_cancel_left]
  rfl

theorem placesBetween_append
    {first middle last : Nat}
    (hFirst : first ≤ middle)
    (hLast : middle ≤ last) :
    placesBetween first middle ++ placesBetween middle last =
      placesBetween first last := by
  have hStart : first + (middle - first) = middle := by omega
  have hCount :
      middle - first + (last - middle) = last - first := by
    omega
  unfold placesBetween
  rw [← List.map_append, ← hCount, ← List.range'_append_1,
    hStart]

/- Raster order numbers the places row by row. -/
theorem rasterOrder_eq :
    rasterOrder = placesBetween 0 (256 * 240) := by
  have hRows (rows : Nat) :
      ((List.range rows).flatMap fun y =>
        (List.range 256).map fun x => (x, y)) =
          placesBetween 0 (256 * rows) := by
    induction rows with
    | zero => rfl
    | succ rows ih =>
        rw [@List.range_succ rows, List.flatMap_append, ih,
          ← placesBetween_append (Nat.zero_le (256 * rows))
            (Nat.mul_le_mul_left 256 (Nat.le_succ rows))]
        congr 1
        have hCount :
            256 * (rows + 1) - 256 * rows = 256 := by
          omega
        unfold placesBetween
        rw [hCount, List.flatMap_singleton,
          List.range'_eq_map_range, List.map_map]
        refine List.map_congr_left fun x hX => ?_
        have hX := List.mem_range.mp hX
        have hWidth : Hardware.screenWidth = 256 := rfl
        simp only [Function.comp_apply, hWidth,
          Prod.mk.injEq]
        omega
  exact hRows 240

theorem rasterOrder_drop (count : Nat) :
    rasterOrder.drop count =
      placesBetween count (256 * 240) := by
  rw [rasterOrder_eq]
  unfold placesBetween
  rw [← List.map_drop, List.drop_range', Nat.zero_add,
    Nat.sub_zero, Nat.mul_one]

------------------------------------------------------------
-- Positions
------------------------------------------------------------

namespace Raster

/- The raster is on a dot that frames have. -/
structure InFrame
    (timing : FrameTiming)
    (raster : Raster) : Prop where
  line : raster.scanline < timing.scanlines
  dot : raster.dot ≤ Hardware.lastDot

/- The dots from the start of the frame to a position. -/
def place (raster : Raster) : Nat :=
  raster.scanline * Hardware.dotsPerScanline + raster.dot

/- The pixels from the start of the frame to a position. -/
def pixelsBefore (raster : Raster) : Nat :=
  if raster.scanline < Hardware.visibleScanlines then
    256 * raster.scanline + min (raster.dot - 1) 256
  else
    256 * 240

end Raster

namespace Ppu

variable {ppu : Ppu}

/-
  From a dot of a frame the next one follows, the next line,
  or, from the end of the pre-render line, the next frame.
-/
theorem tick_raster_inFrame
    (hTiming : ppu.timing.Standard)
    (hIn : ppu.raster.InFrame ppu.timing) :
    (ppu.tick.2.raster =
          { ppu.raster with dot := ppu.raster.dot + 1 } ∧
        ppu.raster.dot < Hardware.lastDot) ∨
      (ppu.tick.2.raster =
          ⟨ppu.raster.scanline + 1, 0, ppu.raster.frame⟩ ∧
        ppu.raster.dot = Hardware.lastDot ∧
        ppu.raster.scanline + 1 < ppu.timing.scanlines) ∨
      (ppu.tick.2.raster = ⟨0, 0, ppu.raster.frame + 1⟩ ∧
        Hardware.lastDot - 1 ≤ ppu.raster.dot ∧
        ppu.raster.scanline =
          ppu.timing.prerenderScanline) := by
  have hLine := hIn.line
  have hDot := hIn.dot
  have hLast := hTiming.last
  have hLastDot : Hardware.lastDot = 340 := rfl
  rcases tick_raster_cases ppu with hNext | ⟨hNext, hEnd⟩
  · exact .inl hNext
  right
  rw [isPrerenderLine_iff] at hEnd
  rw [hNext]
  unfold Raster.nextLine
  by_cases hPre :
      ppu.raster.scanline + 1 = ppu.timing.scanlines
  · rw [if_pos (beq_iff_eq.mpr hPre)]
    exact .inr ⟨rfl, by omega, by omega⟩
  · rw [if_neg (mt beq_iff_eq.mp hPre)]
    exact .inl ⟨rfl, by omega, by omega⟩

theorem tick_inFrame
    (hTiming : ppu.timing.Standard)
    (hIn : ppu.raster.InFrame ppu.timing) :
    ppu.tick.2.raster.InFrame ppu.timing := by
  have hLast := hTiming.last
  rcases tick_raster_inFrame hTiming hIn with
    ⟨hNext, hBefore⟩ | ⟨hNext, -, hMore⟩ | ⟨hNext, -, -⟩
  · rw [hNext]
    exact ⟨hIn.line, hBefore⟩
  · rw [hNext]
    exact ⟨hMore, Nat.zero_le _⟩
  · rw [hNext]
    exact ⟨by dsimp only; omega, Nat.zero_le _⟩

------------------------------------------------------------
-- Pixels
------------------------------------------------------------

/- Where the pixel of a dot is. -/
theorem tick_place (ppu : Ppu) :
    ppu.tick.1.map Pixel.place =
      if ppu.raster.scanline < Hardware.visibleScanlines ∧
          1 ≤ ppu.raster.dot ∧ ppu.raster.dot ≤ 256 then
        some (ppu.raster.dot - 1, ppu.raster.scanline)
      else
        none := by
  have hVisible : Hardware.visibleScanlines = 240 := rfl
  rw [tick_pixel]
  by_cases hDot : ppu.isPixelDot = true
  · have hHere := isPixelDot_iff.mp hDot
    have hColumn : ppu.raster.dot - 1 < 2 ^ 8 := by omega
    have hRow : ppu.raster.scanline < 2 ^ 8 := by omega
    rw [if_pos hDot, if_pos hHere, Option.map_some]
    unfold Pixel.place pixelOf
    dsimp only
    rw [atOutput_raster, UInt8.toNat_ofNat_of_lt' hColumn,
      UInt8.toNat_ofNat_of_lt' hRow]
  · rw [if_neg hDot, if_neg (mt isPixelDot_iff.mpr hDot)]
    rfl

/-
  A dot outputs the pixels between its position and the next
  one, unless it ends the frame.
-/
theorem tick_places
    (hTiming : ppu.timing.Standard)
    (hIn : ppu.raster.InFrame ppu.timing) :
    (ppu.tick.2.raster.place = ppu.raster.place + 1 ∧
        ppu.raster.pixelsBefore ≤
          ppu.tick.2.raster.pixelsBefore ∧
        (ppu.tick.1.map Pixel.place).toList =
          placesBetween ppu.raster.pixelsBefore
            ppu.tick.2.raster.pixelsBefore) ∨
      (ppu.tick.2.raster = ⟨0, 0, ppu.raster.frame + 1⟩ ∧
        ppu.tick.1.map Pixel.place = none ∧
        ppu.raster.scanline =
          ppu.timing.prerenderScanline) := by
  have hPicture := hTiming.picture_lt
  have hVisible : Hardware.visibleScanlines = 240 := rfl
  have hLastDot : Hardware.lastDot = 340 := rfl
  have hPerLine : Hardware.dotsPerScanline = 341 := rfl
  have hWidth : Hardware.screenWidth = 256 := rfl
  rw [tick_place]
  rcases tick_raster_inFrame hTiming hIn with
    ⟨hNext, hBefore⟩ | ⟨hNext, hEnd, -⟩ | ⟨hNext, hEnd, hPre⟩
  · left
    rw [hNext]
    unfold Raster.place Raster.pixelsBefore
    dsimp only
    refine ⟨(Nat.add_assoc _ _ 1).symm, ?_⟩
    by_cases hHere :
        ppu.raster.scanline < Hardware.visibleScanlines ∧
          1 ≤ ppu.raster.dot ∧ ppu.raster.dot ≤ 256
    · rw [if_pos hHere, if_pos hHere.1, if_pos hHere.1,
        Nat.min_eq_left (by omega),
        Nat.min_eq_left (by omega)]
      refine ⟨by omega, ?_⟩
      have hCount : 256 * ppu.raster.scanline +
          (ppu.raster.dot + 1 - 1) =
            256 * ppu.raster.scanline +
              (ppu.raster.dot - 1) + 1 := by
        omega
      rw [hCount, placesBetween_succ, Option.toList_some,
        hWidth]
      congr 2 <;> omega
    · rw [if_neg hHere]
      have hSame :
          (if ppu.raster.scanline <
                Hardware.visibleScanlines then
              256 * ppu.raster.scanline +
                min (ppu.raster.dot + 1 - 1) 256
            else 256 * 240) =
          if ppu.raster.scanline <
              Hardware.visibleScanlines then
            256 * ppu.raster.scanline +
              min (ppu.raster.dot - 1) 256
          else 256 * 240 := by
        split <;> omega
      rw [hSame, placesBetween_self]
      exact ⟨Nat.le_refl _, rfl⟩
  · left
    rw [hNext]
    have hNone :
        ¬(ppu.raster.scanline < Hardware.visibleScanlines ∧
          1 ≤ ppu.raster.dot ∧ ppu.raster.dot ≤ 256) := by
      omega
    have hSame :
        Raster.pixelsBefore
            ⟨ppu.raster.scanline + 1, 0, ppu.raster.frame⟩ =
          ppu.raster.pixelsBefore := by
      unfold Raster.pixelsBefore
      dsimp only
      split_ifs <;> omega
    rw [if_neg hNone, hSame, placesBetween_self]
    refine ⟨?_, Nat.le_refl _, rfl⟩
    unfold Raster.place
    dsimp only
    rw [hPerLine]
    omega
  · right
    refine ⟨hNext, if_neg ?_, hPre⟩
    omega

end Ppu

end Famicom
