import Famicom.Proofs.Video.FrameProgress
import Famicom.Proofs.Video.MemoryCells
import Famicom.Video.Frame

/-
  The stream of pixels.

  Whatever is done to the unit between its dots, the pixels
  come row by row and frame by frame, without a gap and
  without a repetition, and each of them is one that a frame
  can take.

  Key definitions include:
    * `Ppu.pixels`
    * `Raster.pixelsSoFar`
    * `screenPlaces`
    * `Ppu.Shown`

  Main declarations:
    * `Ppu.OnFrame.tick_screenPlaces`
    * `Ppu.OnFrame.pixels_places`
    * `Ppu.shown_of_tick`
    * `Ppu.pixels_in_raster_order`
-/

namespace Famicom

------------------------------------------------------------
-- Places in Order
------------------------------------------------------------

/- Where the pixel with a number is, counted from power-on. -/
def screenPlace (n : Nat) : Nat × Nat :=
  (n % Hardware.screenWidth,
    n / Hardware.screenWidth % Hardware.screenHeight)

/- The places of the first pixels, frame after frame. -/
def screenPlaces (count : Nat) : List (Nat × Nat) :=
  (List.range count).map screenPlace

/- Inside of a frame they are the places of the frame. -/
theorem screenPlaces_add
    (frame : Nat)
    {first last : Nat}
    (hFirst : first ≤ last)
    (hLast : last ≤ 256 * 240) :
    screenPlaces (frame * (256 * 240) + last) =
      screenPlaces (frame * (256 * 240) + first) ++
        placesBetween first last := by
  have hCount :
      frame * (256 * 240) + last =
        frame * (256 * 240) + first + (last - first) := by
    omega
  unfold screenPlaces placesBetween
  rw [hCount, List.range_add, List.map_append, List.map_map,
    List.range'_eq_map_range, List.map_map]
  congr 1
  refine List.map_congr_left fun n hN => ?_
  have hN := List.mem_range.mp hN
  have hWidth : Hardware.screenWidth = 256 := rfl
  have hHeight : Hardware.screenHeight = 240 := rfl
  simp only [Function.comp_apply, screenPlace, hWidth,
    hHeight, Prod.mk.injEq]
  omega

namespace Raster

/- The pixels from power-on to a position. -/
def pixelsSoFar (raster : Raster) : Nat :=
  raster.frame * (256 * 240) + raster.pixelsBefore

theorem pixelsBefore_le (raster : Raster) :
    raster.pixelsBefore ≤ 256 * 240 := by
  have hVisible : Hardware.visibleScanlines = 240 := rfl
  unfold pixelsBefore
  split <;> omega

end Raster

namespace Ppu

variable {ppu : Ppu}

------------------------------------------------------------
-- Dots
------------------------------------------------------------

/- A dot that comes next in the order is in the same frame. -/
theorem OnFrame.frame_of_place
    (hFrame : ppu.OnFrame)
    (hPlace :
      ppu.tick.2.raster.place = ppu.raster.place + 1) :
    ppu.tick.2.raster.frame = ppu.raster.frame := by
  rcases tick_raster_inFrame hFrame.timing hFrame.raster with
    ⟨hNext, -⟩ | ⟨hNext, -⟩ | ⟨hNext, -⟩
  · rw [hNext]
  · rw [hNext]
  · rw [hNext, place_origin] at hPlace
    omega

/- A dot outputs the next pixel, if it outputs one at all. -/
theorem OnFrame.tick_screenPlaces
    (hFrame : ppu.OnFrame) :
    screenPlaces ppu.tick.2.raster.pixelsSoFar =
      screenPlaces ppu.raster.pixelsSoFar ++
        (ppu.tick.1.map Pixel.place).toList := by
  unfold Raster.pixelsSoFar
  rcases tick_places hFrame.timing hFrame.raster with
    ⟨hPlace, hMore, hPlaces⟩ | ⟨hNext, hNone, hPre⟩
  · rw [hFrame.frame_of_place hPlace, hPlaces]
    exact screenPlaces_add _ hMore
      (Raster.pixelsBefore_le _)
  · have hPicture := hFrame.timing.picture_lt
    have hFull : ppu.raster.pixelsBefore = 256 * 240 := by
      unfold Raster.pixelsBefore
      rw [if_neg (by omega)]
    rw [hNext, hNone, hFull, pixelsBefore_origin]
    simp [Nat.add_mul]

------------------------------------------------------------
-- Runs
------------------------------------------------------------

/- The pixel that an event outputs. -/
def emitted (ppu : Ppu) : Event → Option Pixel
  | .dot => ppu.tick.1
  | _ => none

/- The pixels of a run, in the order of their output. -/
def pixels (ppu : Ppu) : List Event → List Pixel
  | [] => []
  | event :: events =>
      (ppu.emitted event).toList ++
        (ppu.handle event).pixels events

/- An event that outputs no pixel leaves the number alone. -/
theorem OnFrame.handle_screenPlaces
    (hFrame : ppu.OnFrame)
    {event : Event}
    (hEvent : event ≠ .reset) :
    screenPlaces (ppu.handle event).raster.pixelsSoFar =
      screenPlaces ppu.raster.pixelsSoFar ++
        ((ppu.emitted event).map Pixel.place).toList := by
  by_cases hDot : event = .dot
  · rw [hDot]
    exact hFrame.tick_screenPlaces
  have hKeeps := ppu.handle_accessKeeps hDot hEvent
  have hNone : ppu.emitted event = none := by
    cases event with
    | dot => exact absurd rfl hDot
    | _ => rfl
  rw [hKeeps.raster, hNone]
  exact (List.append_nil _).symm

/- The pixels of a run continue those before it. -/
theorem OnFrame.pixels_places
    (hFrame : ppu.OnFrame)
    {events : List Event}
    (hEvents : .reset ∉ events) :
    screenPlaces (ppu.after events).raster.pixelsSoFar =
      screenPlaces ppu.raster.pixelsSoFar ++
        (ppu.pixels events).map Pixel.place := by
  induction events generalizing ppu with
  | nil => exact (List.append_nil _).symm
  | cons event events ih =>
      rw [List.mem_cons, not_or] at hEvents
      have hHead := hFrame.handle_screenPlaces (Ne.symm hEvents.1)
      have hTail := ih (hFrame.handle event) hEvents.2
      rw [after_cons, hTail, hHead]
      simp [pixels, Option.toList_map]

------------------------------------------------------------
-- Progress
------------------------------------------------------------

/- Enough dots lead to the next frame. -/
theorem OnFrame.exists_nextFrame
    (hFrame : ppu.OnFrame) :
    ∃ dots,
      (ppu.afterDots dots).OnFrame ∧
        (ppu.afterDots dots).raster.frame =
          ppu.raster.frame + 1 := by
  -- the dots that the frame still has go down
  induction hLeft :
      ppu.timing.scanlines * Hardware.dotsPerScanline -
        ppu.raster.place generalizing ppu with
  | zero =>
      have hPlace := place_lt hFrame.raster
      omega
  | succ left ih =>
      have hSame := (tick_keeps ppu).timing
      rcases tick_places hFrame.timing hFrame.raster with
        ⟨hPlace, -, -⟩ | ⟨hNext, -, -⟩
      · rcases ih hFrame.tick (by rw [hSame]; omega) with
          ⟨dots, hOn, hNumber⟩
        rw [hFrame.frame_of_place hPlace] at hNumber
        exact ⟨dots + 1, hOn, hNumber⟩
      · refine ⟨1, hFrame.tick, ?_⟩
        exact congrArg Raster.frame hNext

/- Every number of pixels is output some time. -/
theorem OnFrame.exists_pixelsSoFar
    (hFrame : ppu.OnFrame)
    (count : Nat) :
    ∃ dots,
      count ≤ (ppu.afterDots dots).raster.pixelsSoFar := by
  have hReached : ∃ dots,
      (ppu.afterDots dots).OnFrame ∧
        count ≤ (ppu.afterDots dots).raster.frame := by
    induction count with
    | zero => exact ⟨0, hFrame, Nat.zero_le _⟩
    | succ count ih =>
        rcases ih with ⟨dots, hOn, hCount⟩
        rcases hOn.exists_nextFrame with ⟨more, hNext, hNumber⟩
        refine ⟨dots + more, ?_⟩
        rw [afterDots_add]
        exact ⟨hNext, by omega⟩
  rcases hReached with ⟨dots, -, hCount⟩
  refine ⟨dots, ?_⟩
  unfold Raster.pixelsSoFar
  omega

------------------------------------------------------------
-- Single Pixels
------------------------------------------------------------

/- What a frame can take: a color, an emphasis and a place. -/
structure Shown (pixel : Pixel) : Prop where
  color : pixel.color < 0x40
  emphasis : pixel.emphasis < 8
  row : pixel.y.toNat < Hardware.screenHeight

theorem Shown.put?
    {pixel : Pixel}
    (hShown : Shown pixel)
    (frame : Frame) :
    frame.put? pixel = some (frame.put pixel) := by
  have hColumn : pixel.x.toNat < Hardware.screenWidth :=
    pixel.x.toNat_lt
  unfold Frame.put? Frame.contains
  simp [hColumn, hShown.row]

/- The last 256 addresses are the palette's. -/
theorem read_palette
    (memory : VideoMemory)
    (entry : UInt8) :
    memory.read (Hardware.paletteStart + entry.toUInt16) =
      memory.palette.read
        (Hardware.paletteStart + entry.toUInt16) := by
  have hEntry := entry.toNat_lt
  have hStart : Hardware.paletteStart.toNat = 0x3F00 := rfl
  have hPlace :
      VideoMemory.place
          (Hardware.paletteStart + entry.toUInt16) =
        0x3F00 + entry.toNat := by
    unfold VideoMemory.place
    rw [UInt16.toNat_add, hStart, UInt8.toNat_toUInt16]
    omega
  have hPart :
      VideoMemory.partOf
          (Hardware.paletteStart + entry.toUInt16) =
        .palette := by
    unfold VideoMemory.partOf
    rw [hPlace, if_neg (by omega), if_neg (by omega)]
  rw [VideoMemory.read_eq, hPart]

/- Colors have six bits, also if they are made gray. -/
theorem colorOf_lt
    (ppu : Ppu)
    (entry : UInt8) : ppu.colorOf entry < 0x40 := by
  have hRead :
      (ppu.memory.read
        (Hardware.paletteStart + entry.toUInt16)).toNat <
          0x40 := by
    rw [read_palette]
    exact UInt8.lt_iff_toNat_lt.mp (Palette.read_lt _ _)
  rw [UInt8.lt_iff_toNat_lt]
  unfold colorOf
  dsimp only
  split
  · rw [UInt8.toNat_and]
    exact Nat.lt_of_le_of_lt Nat.and_le_left hRead
  · exact hRead

theorem emphasis_lt (mask : PpuMask) : mask.emphasis < 8 := by
  have hBits := mask.bits.toNat_lt
  rw [UInt8.lt_iff_toNat_lt]
  unfold PpuMask.emphasis
  rw [UInt8.toNat_shiftRight, UInt8.toNat_and,
    Nat.shiftRight_eq_div_pow]
  have hPart :
      mask.bits.toNat &&& PpuMask.emphasisMask.toNat ≤
        mask.bits.toNat :=
    Nat.and_le_left
  have hFive : (5 : UInt8).toNat % 8 = 5 := rfl
  have hEight : (8 : UInt8).toNat = 8 := rfl
  rw [hFive, hEight]
  omega

/- Every pixel that is output can be taken. -/
theorem shown_of_tick
    {pixel : Pixel}
    (hPixel : ppu.tick.1 = some pixel) : Shown pixel := by
  have hPlace := tick_place ppu
  have hVisible :
      Hardware.visibleScanlines = Hardware.screenHeight := rfl
  rw [hPixel] at hPlace
  split at hPlace
  next hDot =>
    have hRow : pixel.y.toNat = ppu.raster.scanline :=
      (Prod.mk.inj (Option.some.inj hPlace)).2
    have hPixelOf (entry : UInt8)
        (hSame : ppu.atOutput.pixelOf entry = pixel) :
        Shown pixel := by
      subst hSame
      exact
        { color := colorOf_lt _ _
          emphasis := emphasis_lt _
          row := by omega }
    rw [tick_pixel] at hPixel
    split at hPixel
    · exact hPixelOf _ (Option.some.inj hPixel)
    · cases hPixel
  next => cases hPlace

theorem shown_of_mem_pixels
    {events : List Event}
    {pixel : Pixel}
    (hPixel : pixel ∈ ppu.pixels events) : Shown pixel := by
  induction events generalizing ppu with
  | nil => exact absurd hPixel List.not_mem_nil
  | cons event events ih =>
      rcases List.mem_append.mp hPixel with hHere | hLater
      · cases event with
        | dot => exact shown_of_tick (Option.mem_toList.mp hHere)
        | _ => exact absurd hHere List.not_mem_nil
      · exact ih hLater

------------------------------------------------------------
-- The Stream
------------------------------------------------------------

/-
  The pixels from power-on, whatever happens between dots
  except for a reset.  A dot outputs one exactly on the first
  256 dots behind the start of a line of the picture, and the
  place is that of the dot.  Together they are a start of the
  places of the screen over and over, of which the position
  tells the length, more of them always follow, and a frame
  can take each of them.
-/
theorem pixels_in_raster_order
    (memory : VideoMemory)
    (standard : VideoStandard)
    (events : List Event)
    (hEvents : .reset ∉ events) :
    let start := powerOn memory standard.timing
    let ppu := start.after events
    (ppu.tick.1.map Pixel.place =
      if ppu.raster.scanline < Hardware.visibleScanlines ∧
          1 ≤ ppu.raster.dot ∧ ppu.raster.dot ≤ 256 then
        some (ppu.raster.dot - 1, ppu.raster.scanline)
      else
        none) ∧
    (start.pixels events).map Pixel.place =
      screenPlaces ppu.raster.pixelsSoFar ∧
    (∀ count, ∃ dots,
      count ≤ (start.pixels
        (events ++ List.replicate dots .dot)).length) ∧
    ∀ pixel ∈ start.pixels events,
      pixel.color < 0x40 ∧ pixel.emphasis < 8 ∧
        ∀ frame : Frame,
          frame.put? pixel = some (frame.put pixel) := by
  intro start ppu
  have hStart : start.OnFrame := onFrame_powerOn _ _
  have hPlaces {run : List Event} (hRun : .reset ∉ run) :
      (start.pixels run).map Pixel.place =
        screenPlaces (start.after run).raster.pixelsSoFar := by
    have hAll := hStart.pixels_places hRun
    have hNone : start.raster.pixelsSoFar = 0 := by
      show 0 * (256 * 240) + Raster.pixelsBefore ⟨0, 0, 0⟩ = 0
      rw [Nat.zero_mul, pixelsBefore_origin]
    rw [hAll, hNone]
    exact (List.nil_append _).symm
  refine ⟨tick_place ppu, hPlaces hEvents, ?_, ?_⟩
  · intro count
    rcases (hStart.after events).exists_pixelsSoFar count with
      ⟨dots, hCount⟩
    have hRun :
        .reset ∉ events ++ List.replicate dots Event.dot := by
      simp [hEvents, List.mem_replicate]
    have hLength := congrArg List.length (hPlaces hRun)
    rw [after_append] at hLength
    refine ⟨dots, ?_⟩
    simp only [screenPlaces, List.length_map,
      List.length_range] at hLength
    rw [hLength]
    exact hCount
  · intro pixel hPixel
    have hShown := shown_of_mem_pixels hPixel
    exact ⟨hShown.color, hShown.emphasis, hShown.put?⟩

/- The memory around patterns of zeros. -/
def clearMemory : VideoMemory :=
  .ofPatterns ⟨Vector.replicate _ 0, true⟩ .horizontal

/- Rendering is switched on and off between four dots. -/
def togglingEvents : List Event :=
  [.write 0x2001 0x1E, .dot, .dot, .read 0x2002,
    .write 0x2001 0x01, .dot, .writeOam 0x80, .dot]

/- Three of the dots show the start of the first line. -/
theorem pixels_while_toggling :
    .reset ∉ togglingEvents ∧
      ((powerOn clearMemory VideoStandard.ntsc.timing).pixels
          togglingEvents).map Pixel.place =
        [(0, 0), (1, 0), (2, 0)] := by
  have hEvents : .reset ∉ togglingEvents := by decide
  have hRaster :
      ((powerOn clearMemory VideoStandard.ntsc.timing).after
        togglingEvents).raster = ⟨0, 4, 0⟩ := by
    decide +kernel
  have hStream := pixels_in_raster_order clearMemory .ntsc
    togglingEvents hEvents
  have hCount : Raster.pixelsSoFar ⟨0, 4, 0⟩ = 3 := by decide
  refine ⟨hEvents, hStream.2.1.trans ?_⟩
  rw [hRaster, hCount]
  decide

end Ppu

end Famicom
