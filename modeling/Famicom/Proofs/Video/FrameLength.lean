import Famicom.Proofs.Video.PixelStream

/-
  The length of frames.

  The dots of a frame pass one after the other.  None is left
  out but the last one of an odd frame, if the unit renders
  when the dot before it passes.

  Key definitions include:
    * `Raster.ofPlace`
    * `Ppu.dotsOf`
    * `Ppu.Skips`
    * `Ppu.frameLength`
    * `Ppu.Passed`

  Main declarations:
    * `Ppu.OnFrame.tick_place_cases`
    * `Ppu.Passed.tick`
    * `Ppu.Passed.exists_decisive`
    * `Ppu.frames_whole_but_for_skipped_dot`
-/

namespace Famicom

------------------------------------------------------------
-- Numbered Positions
------------------------------------------------------------

namespace Raster

/- The position with a number in a frame. -/
def ofPlace (frame place : Nat) : Raster :=
  ⟨place / Hardware.dotsPerScanline,
    place % Hardware.dotsPerScanline, frame⟩

theorem ofPlace_place
    {raster : Raster}
    (hDot : raster.dot ≤ Hardware.lastDot) :
    ofPlace raster.frame raster.place = raster := by
  have hPerLine : Hardware.dotsPerScanline = 341 := rfl
  have hLastDot : Hardware.lastDot = 340 := rfl
  rcases raster with ⟨line, dot, frame⟩
  unfold ofPlace place
  simp only [hPerLine, mk.injEq, and_true]
  dsimp only at hDot
  omega

theorem Before.irrefl (raster : Raster) :
    ¬raster.Before raster := by
  unfold Before
  omega

/- In a frame the order of drawing is that of the numbers. -/
theorem Before.place_lt
    {first second : Raster}
    (hBefore : first.Before second)
    (hFrame : first.frame = second.frame)
    (hDot : first.dot ≤ Hardware.lastDot) :
    first.place < second.place := by
  have hPerLine : Hardware.dotsPerScanline = 341 := rfl
  have hLastDot : Hardware.lastDot = 340 := rfl
  unfold Before at hBefore
  unfold place
  rw [hPerLine]
  omega

end Raster

namespace Ppu

variable {ppu : Ppu}

------------------------------------------------------------
-- Skipped Dots
------------------------------------------------------------

/- The dot that passes next is followed by the next frame. -/
def Skips (ppu : Ppu) : Prop :=
  ppu.isShortFrame = true ∧
    ppu.raster.isBeforeSkippedDot ppu.timing = true

instance : DecidablePred Skips := fun ppu => by
  unfold Skips
  infer_instance

theorem skips_iff :
    ppu.Skips ↔
      ppu.timing.oddFrameSkip = true ∧
        ppu.raster.frame % 2 = 1 ∧
        ppu.registers.mask.rendering = true ∧
        ppu.raster.scanline = ppu.timing.prerenderScanline ∧
        ppu.raster.dot = Hardware.lastDot - 1 := by
  unfold Skips isShortFrame Raster.isBeforeSkippedDot
    Raster.isPrerenderLine Raster.isOddFrame
  simp only [Bool.and_eq_true, beq_iff_eq, and_assoc]

/-
  A dot is followed by the dot with the next number.  The
  last one, and one that skips the last one, is followed by
  the next frame.
-/
theorem OnFrame.tick_place_cases
    (hFrame : ppu.OnFrame) :
    (¬ppu.Skips ∧
        ppu.tick.2.raster.frame = ppu.raster.frame ∧
        ppu.tick.2.raster.place = ppu.raster.place + 1) ∨
      (ppu.tick.2.raster = ⟨0, 0, ppu.raster.frame + 1⟩ ∧
        ppu.raster.place + 1 + (if ppu.Skips then 1 else 0) =
          ppu.timing.scanlines * Hardware.dotsPerScanline) := by
  have hPerLine : Hardware.dotsPerScanline = 341 := rfl
  have hLastDot : Hardware.lastDot = 340 := rfl
  have hLast := hFrame.timing.last
  have hLine := hFrame.raster.line
  have hDot := hFrame.raster.dot
  have hSkip :
      (ppu.isShortFrame &&
        ppu.raster.isBeforeSkippedDot ppu.timing) =
          decide ppu.Skips := by
    rw [Bool.eq_iff_iff, decide_eq_true_iff, Bool.and_eq_true]
    rfl
  rw [tick_raster]
  unfold Raster.advance Raster.nextLine Raster.place
  dsimp only
  rw [hSkip, hPerLine]
  by_cases hSkips : ppu.Skips
  · rcases skips_iff.mp hSkips with ⟨-, -, -, hPre, hHere⟩
    right
    rw [decide_eq_true hSkips, Bool.not_true, Bool.and_false,
      if_neg Bool.false_ne_true, if_pos hSkips,
      if_pos (beq_iff_eq.mpr (hPre ▸ hLast))]
    exact ⟨rfl, by omega⟩
  rw [decide_eq_false hSkips, Bool.not_false, Bool.and_true,
    if_neg hSkips]
  by_cases hInside : ppu.raster.dot < Hardware.lastDot
  · rw [if_pos (decide_eq_true hInside)]
    exact .inl ⟨hSkips, rfl, (Nat.add_assoc _ _ 1).symm⟩
  rw [if_neg (mt of_decide_eq_true hInside)]
  by_cases hMore :
      ppu.raster.scanline + 1 = ppu.timing.scanlines
  · rw [if_pos (beq_iff_eq.mpr hMore)]
    exact .inr ⟨rfl, by omega⟩
  · rw [if_neg (mt beq_iff_eq.mp hMore)]
    exact .inl ⟨hSkips, rfl, by dsimp only; omega⟩

------------------------------------------------------------
-- Dots of a Run
------------------------------------------------------------

/- The states of a run in which dots pass, in order. -/
def dotsOf (ppu : Ppu) : List Event → List Ppu
  | [] => []
  | event :: events =>
      (if event = .dot then [ppu] else []) ++
        (ppu.handle event).dotsOf events

/- Each of them is the state after what comes before it. -/
theorem exists_of_mem_dotsOf
    {past : Ppu}
    {events : List Event}
    (hPast : past ∈ ppu.dotsOf events) :
    ∃ before later,
      events = before ++ .dot :: later ∧
        past = ppu.after before := by
  induction events generalizing ppu with
  | nil => exact absurd hPast List.not_mem_nil
  | cons event events ih =>
      rcases List.mem_append.mp hPast with hHere | hLater
      · split_ifs at hHere with hDot
        · exact ⟨[], events, congrArg (· :: events) hDot,
            List.mem_singleton.mp hHere⟩
        · exact absurd hHere List.not_mem_nil
      · rcases ih hLater with ⟨before, later, rfl, rfl⟩
        exact ⟨event :: before, later, rfl, rfl⟩

/-
  The number of dots of a frame, given the states in which
  dots have passed.
-/
def frameLength
    (timing : FrameTiming)
    (dots : List Ppu)
    (frame : Nat) : Nat :=
  timing.scanlines * Hardware.dotsPerScanline -
    if ∃ past ∈ dots, past.raster.frame = frame ∧ past.Skips
    then 1 else 0

/- A dot of another frame makes no difference. -/
theorem frameLength_concat_of_ne
    {frame : Nat}
    (timing : FrameTiming)
    (dots : List Ppu)
    (hFrame : ppu.raster.frame ≠ frame) :
    frameLength timing (dots ++ [ppu]) frame =
      frameLength timing dots frame := by
  unfold frameLength
  simp [or_and_right, exists_or, hFrame]

/- The number of dots of a frame that have passed so far. -/
def passedIn
    (dots : List Ppu)
    (ppu : Ppu)
    (frame : Nat) : Nat :=
  if frame < ppu.raster.frame then
    frameLength ppu.timing dots frame
  else if frame = ppu.raster.frame then
    ppu.raster.place
  else
    0

/-
  The dots that have passed when a state is reached, without
  a reset since power-on.  Their positions ascend, those of a
  frame are numbered without a gap, and a dot that skips the
  next one is in an earlier frame.
-/
structure Passed
    (dots : List Ppu)
    (ppu : Ppu) : Prop where
  onFrame : ppu.OnFrame
  timing : ∀ past ∈ dots, past.timing = ppu.timing
  ordered :
    (dots.map raster ++ [ppu.raster]).Pairwise Raster.Before
  skips : ∀ past ∈ dots,
    past.Skips → past.raster.frame < ppu.raster.frame
  places : ∀ frame,
    (dots.filter (·.raster.frame = frame)).map raster =
      (List.range (passedIn dots ppu frame)).map
        (Raster.ofPlace frame)

namespace Passed

variable {dots : List Ppu}

/- At power-on no dot has passed. -/
theorem powerOn
    (memory : VideoMemory)
    (standard : VideoStandard) :
    Passed [] (powerOn memory standard.timing) where
  onFrame := onFrame_powerOn memory standard
  timing := fun _ hPast => absurd hPast List.not_mem_nil
  ordered := List.pairwise_singleton _ _
  skips := fun _ hPast => absurd hPast List.not_mem_nil
  places := fun frame => by
    have hNone :
        passedIn [] (Ppu.powerOn memory standard.timing)
          frame = 0 := by
      have hOrigin :
          (Ppu.powerOn memory standard.timing).raster =
            ⟨0, 0, 0⟩ := rfl
      unfold passedIn
      rw [hOrigin, place_origin, if_neg (Nat.not_lt_zero _),
        ite_self]
    rw [hNone]
    rfl

/- Between dots nothing moves. -/
theorem congr
    {other : Ppu}
    (hPassed : Passed dots ppu)
    (hTiming : other.timing = ppu.timing)
    (hRaster : other.raster = ppu.raster) :
    Passed dots other where
  onFrame := hPassed.onFrame.congr hTiming hRaster
  timing := hTiming.symm ▸ hPassed.timing
  ordered := hRaster.symm ▸ hPassed.ordered
  skips := hRaster.symm ▸ hPassed.skips
  places := fun frame => by
    have hSame :
        passedIn dots other frame =
          passedIn dots ppu frame := by
      unfold passedIn
      rw [hTiming, hRaster]
    rw [hSame]
    exact hPassed.places frame

/- The present dot has the number of its position. -/
theorem passedIn_here :
    passedIn dots ppu ppu.raster.frame =
      ppu.raster.place := by
  unfold passedIn
  rw [if_neg (Nat.lt_irrefl _), if_pos rfl]

/-
  With a dot the number of its frame goes up by one, and the
  numbers of all other frames stay.
-/
theorem passedIn_tick
    (hPassed : Passed dots ppu)
    (frame : Nat) :
    passedIn (dots ++ [ppu]) ppu.tick.2 frame =
      passedIn dots ppu frame +
        if ppu.raster.frame = frame then 1 else 0 := by
  have hTiming := (tick_keeps ppu).timing
  have hNoSkip : ¬∃ past ∈ dots,
      past.raster.frame = ppu.raster.frame ∧ past.Skips := by
    rintro ⟨past, hPast, hHere, hSkips⟩
    have hBefore := hPassed.skips past hPast hSkips
    omega
  by_cases hHere : ppu.raster.frame = frame
  · subst hHere
    rw [passedIn_here, if_pos rfl]
    rcases hPassed.onFrame.tick_place_cases with
      ⟨-, hSame, hPlace⟩ | ⟨hNext, hEnd⟩
    · rw [← hPlace, ← hSame]
      exact passedIn_here
    · have hLength :
          frameLength ppu.timing (dots ++ [ppu])
              ppu.raster.frame =
            ppu.timing.scanlines * Hardware.dotsPerScanline -
              if ppu.Skips then 1 else 0 := by
        unfold frameLength
        simp only [List.mem_append, List.mem_singleton,
          or_and_right, exists_or, hNoSkip, false_or,
          exists_eq_left, true_and]
      unfold passedIn
      rw [hNext, if_pos (Nat.lt_succ_self _), hTiming, hLength,
        ← hEnd, Nat.add_sub_cancel]
  · rw [if_neg hHere, Nat.add_zero]
    unfold passedIn
    rw [hTiming, frameLength_concat_of_ne _ _ hHere]
    rcases hPassed.onFrame.tick_place_cases with
      ⟨-, hSame, -⟩ | ⟨hNext, -⟩
    · rw [hSame, if_neg (Ne.symm hHere),
        if_neg (Ne.symm hHere)]
    · rw [hNext, place_origin, ite_self,
        if_neg (Ne.symm hHere)]
      dsimp only
      split_ifs <;> omega

/- One more dot passes. -/
theorem tick
    (hPassed : Passed dots ppu) :
    Passed (dots ++ [ppu]) ppu.tick.2 where
  onFrame := hPassed.onFrame.tick
  timing := by
    intro past hPast
    rw [(tick_keeps ppu).timing]
    rcases List.mem_append.mp hPast with hEarlier | hHere
    · exact hPassed.timing past hEarlier
    · rw [List.mem_singleton.mp hHere]
  ordered := by
    have hNext := tick_raster_before ppu
    rw [List.map_append, List.map_singleton]
    refine List.pairwise_append.mpr
      ⟨hPassed.ordered, List.pairwise_singleton _ _, ?_⟩
    intro place hPlace last hLast
    rw [List.mem_singleton.mp hLast]
    rcases List.mem_append.mp hPlace with hEarlier | hHere
    · have hBefore := (List.pairwise_append.mp
        hPassed.ordered).2.2 place hEarlier ppu.raster
          (List.mem_singleton_self _)
      exact hBefore.trans hNext
    · rw [List.mem_singleton.mp hHere]
      exact hNext
  skips := by
    intro past hPast hSkips
    rcases List.mem_append.mp hPast with hEarlier | hHere
    · have hBefore := hPassed.skips past hEarlier hSkips
      rcases hPassed.onFrame.tick_place_cases with
        ⟨-, hSame, -⟩ | ⟨hNext, -⟩
      · rw [hSame]
        exact hBefore
      · rw [hNext]
        exact Nat.lt_succ_of_lt hBefore
    · rw [List.mem_singleton.mp hHere] at hSkips ⊢
      rcases hPassed.onFrame.tick_place_cases with
        ⟨hStays, -⟩ | ⟨hNext, -⟩
      · exact absurd hSkips hStays
      · rw [hNext]
        exact Nat.lt_succ_self _
  places := fun frame => by
    rw [hPassed.passedIn_tick, List.filter_append,
      List.map_append, hPassed.places]
    by_cases hHere : ppu.raster.frame = frame
    · subst hHere
      rw [if_pos rfl, passedIn_here, List.range_succ,
        List.map_append, List.map_singleton,
        Raster.ofPlace_place hPassed.onFrame.raster.dot]
      simp
    · rw [if_neg hHere]
      simp [hHere]

/- Whatever a run does, its dots have passed at its end. -/
theorem after
    (hPassed : Passed dots ppu)
    {events : List Event}
    (hEvents : .reset ∉ events) :
    Passed (dots ++ ppu.dotsOf events) (ppu.after events) := by
  induction events generalizing dots ppu with
  | nil =>
      rw [dotsOf, List.append_nil]
      exact hPassed
  | cons event events ih =>
      rw [List.mem_cons, not_or] at hEvents
      rw [after_cons, dotsOf, ← List.append_assoc]
      refine ih ?_ hEvents.2
      by_cases hDot : event = .dot
      · rw [hDot, if_pos rfl]
        exact hPassed.tick
      · rw [if_neg hDot, List.append_nil]
        have hKeeps :=
          ppu.handle_accessKeeps hDot (Ne.symm hEvents.1)
        exact hPassed.congr hKeeps.timing hKeeps.raster

/- No two dots have passed at one position. -/
theorem filter_raster
    (hPassed : Passed dots ppu)
    {past : Ppu}
    (hPast : past ∈ dots) :
    dots.filter (·.raster = past.raster) = [past] := by
  have hOrdered : dots.Pairwise fun first second =>
      first.raster.Before second.raster :=
    List.pairwise_map.mp
      (List.pairwise_append.mp hPassed.ordered).1
  have hHere (other : Ppu)
      (hOther : other ∈ dots.filter (·.raster = past.raster)) :
      other.raster = past.raster :=
    of_decide_eq_true (List.mem_filter.mp hOther).2
  have hMember : past ∈ dots.filter (·.raster = past.raster) :=
    List.mem_filter.mpr ⟨hPast, decide_eq_true rfl⟩
  have hFound := hOrdered.filter (·.raster = past.raster)
  revert hFound hHere hMember
  generalize dots.filter (·.raster = past.raster) = found
  intro hHere hMember hFound
  rcases found with _ | ⟨first, _ | ⟨second, others⟩⟩
  · exact absurd hMember List.not_mem_nil
  · rw [List.mem_singleton.mp hMember]
  · have hBefore : first.raster.Before second.raster :=
      (List.pairwise_cons.mp hFound).1 second
        List.mem_cons_self
    rw [hHere first List.mem_cons_self,
      hHere second
        (List.mem_cons_of_mem _ List.mem_cons_self)]
      at hBefore
    exact absurd hBefore (Raster.Before.irrefl _)

theorem eq_of_raster
    (hPassed : Passed dots ppu)
    {first second : Ppu}
    (hFirst : first ∈ dots)
    (hSecond : second ∈ dots)
    (hRaster : first.raster = second.raster) :
    first = second := by
  have hMember :
      first ∈ dots.filter (·.raster = second.raster) :=
    List.mem_filter.mpr ⟨hFirst, decide_eq_true hRaster⟩
  rw [hPassed.filter_raster hSecond] at hMember
  exact List.mem_singleton.mp hMember

/- Every number up to that of its frame has passed. -/
theorem exists_of_place_lt
    (hPassed : Passed dots ppu)
    {frame place : Nat}
    (hPlace : place < passedIn dots ppu frame) :
    ∃ past ∈ dots,
      past.raster = Raster.ofPlace frame place := by
  have hMember : Raster.ofPlace frame place ∈
      (dots.filter (·.raster.frame = frame)).map raster := by
    rw [hPassed.places]
    exact List.mem_map_of_mem (List.mem_range.mpr hPlace)
  rcases List.mem_map.mp hMember with ⟨past, hPast, hRaster⟩
  exact ⟨past, (List.mem_filter.mp hPast).1, hRaster⟩

/- A frame that has ended has passed in its full length. -/
theorem length_of_lt
    (hPassed : Passed dots ppu)
    {frame : Nat}
    (hFrame : frame < ppu.raster.frame) :
    (dots.filter (·.raster.frame = frame)).length =
      frameLength ppu.timing dots frame := by
  have hPlaces :=
    congrArg List.length (hPassed.places frame)
  rw [List.length_map, List.length_map, List.length_range]
    at hPlaces
  rw [hPlaces]
  exact if_pos hFrame

end Passed

------------------------------------------------------------
-- Frames
------------------------------------------------------------

section Frames

variable {standard : VideoStandard}
variable {dots : List Ppu}

/- Only NTSC skips dots, and all of them at one place. -/
theorem skips_iff_of_standard
    (hTiming : ppu.timing = standard.timing) :
    ppu.Skips ↔
      ppu.raster = ⟨261, 339, ppu.raster.frame⟩ ∧
        standard = .ntsc ∧
        ppu.raster.frame % 2 = 1 ∧
        ppu.registers.mask.rendering = true := by
  rw [skips_iff, hTiming]
  rcases ppu.raster with ⟨line, dot, frame⟩
  cases standard with
  | ntsc =>
      have hPre :
          VideoStandard.ntsc.timing.prerenderScanline = 261 :=
        rfl
      have hSkip :
          VideoStandard.ntsc.timing.oddFrameSkip = true := rfl
      simp only [hPre, hSkip, Raster.mk.injEq]
      tauto
  | pal =>
      have hSkip :
          VideoStandard.pal.timing.oddFrameSkip = false := rfl
      simp [hSkip]

/-
  One state decides how long a frame is: the one in which the
  last dot but one of line 261 passes.
-/
theorem Passed.exists_decisive
    (hPassed : Passed dots ppu)
    (hTiming : ppu.timing = standard.timing)
    {frame : Nat}
    (hFrame : frame < ppu.raster.frame) :
    ∃ decisive,
      dots.filter (·.raster = ⟨261, 339, frame⟩) =
          [decisive] ∧
        frameLength ppu.timing dots frame =
          341 * standard.timing.scanlines -
            if standard = .ntsc ∧ frame % 2 = 1 ∧
              decisive.registers.mask.rendering = true
            then 1 else 0 := by
  have hFull :
      ppu.timing.scanlines * Hardware.dotsPerScanline =
        341 * standard.timing.scanlines := by
    rw [hTiming]
    exact Nat.mul_comm _ _
  have hMany : 341 * 262 ≤ 341 * standard.timing.scanlines := by
    cases standard <;> decide
  have hPlace :
      261 * 341 + 339 < passedIn dots ppu frame := by
    unfold passedIn frameLength
    rw [if_pos hFrame, hFull]
    split_ifs <;> omega
  rcases hPassed.exists_of_place_lt hPlace with
    ⟨decisive, hMember, hPosition⟩
  have hRaster : decisive.raster = ⟨261, 339, frame⟩ :=
    hPosition
  refine ⟨decisive, ?_, ?_⟩
  · rw [← hRaster]
    exact hPassed.filter_raster hMember
  · have hSkipped :
        (∃ past ∈ dots,
          past.raster.frame = frame ∧ past.Skips) ↔
          standard = .ntsc ∧ frame % 2 = 1 ∧
            decisive.registers.mask.rendering = true := by
      constructor
      · rintro ⟨past, hPast, rfl, hSkips⟩
        have hPastTiming :=
          (hPassed.timing past hPast).trans hTiming
        rcases (skips_iff_of_standard hPastTiming).mp hSkips
          with ⟨hHere, hRest⟩
        have hSame := hPassed.eq_of_raster hPast hMember
          (hHere.trans hRaster.symm)
        rw [← hSame]
        exact hRest
      · intro hShort
        have hPastTiming :=
          (hPassed.timing decisive hMember).trans hTiming
        refine ⟨decisive, hMember, by rw [hRaster], ?_⟩
        rw [skips_iff_of_standard hPastTiming, hRaster]
        exact ⟨rfl, hShort⟩
    unfold frameLength
    simp only [hSkipped, hFull]

/-
  Whatever is done to the unit from power-on, except for a
  reset, every dot passes on a line and a dot that frames
  have, and behind all dots before it.  A frame that has
  ended was as long as all its lines, less one dot exactly if
  the standard is NTSC, the frame is odd, and the unit was
  rendering when the dot 339 of line 261 passed.  No dot but
  the one behind that is ever left out.
-/
theorem frames_whole_but_for_skipped_dot
    (memory : VideoMemory)
    (standard : VideoStandard)
    (events : List Event)
    (hEvents : .reset ∉ events) :
    let start := powerOn memory standard.timing
    let ppu := start.after events
    let dots := start.dotsOf events
    let scanlines := standard.timing.scanlines
    ppu.raster.dot ≤ 340 ∧
    ppu.raster.scanline < scanlines ∧
    (dots.map raster ++ [ppu.raster]).Pairwise
      Raster.Before ∧
    (∀ frame < ppu.raster.frame, ∃ decisive,
      dots.filter (·.raster = ⟨261, 339, frame⟩) =
          [decisive] ∧
        (dots.filter (·.raster.frame = frame)).length =
          341 * scanlines -
            if standard = .ntsc ∧ frame % 2 = 1 ∧
              decisive.registers.mask.rendering = true
            then 1 else 0) ∧
    ∀ place : Raster,
      place.InFrame standard.timing →
      place.Before ppu.raster →
        (∃ past ∈ dots, past.raster = place) ∨
          (place = ⟨261, 340, place.frame⟩ ∧
            standard = .ntsc ∧ place.frame % 2 = 1 ∧
            ∃ past ∈ dots,
              past.raster = ⟨261, 339, place.frame⟩ ∧
                past.registers.mask.rendering = true) := by
  intro start ppu dots scanlines
  have hPassed : Passed dots ppu :=
    (Passed.powerOn memory standard).after hEvents
  have hTiming : ppu.timing = standard.timing :=
    after_timing start events
  have hLine := hPassed.onFrame.raster.line
  rw [hTiming] at hLine
  refine ⟨hPassed.onFrame.raster.dot, hLine, hPassed.ordered,
    ?_, ?_⟩
  · intro frame hFrame
    rcases hPassed.exists_decisive hTiming hFrame with
      ⟨decisive, hDecisive, hLength⟩
    refine ⟨decisive, hDecisive, ?_⟩
    rw [hPassed.length_of_lt hFrame, hLength]
  · intro place hIn hBefore
    have hSelf := Raster.ofPlace_place hIn.dot
    by_cases hHere :
        place.place < passedIn dots ppu place.frame
    · left
      rcases hPassed.exists_of_place_lt hHere with
        ⟨past, hPast, hRaster⟩
      exact ⟨past, hPast, hRaster.trans hSelf⟩
    right
    have hFrame : place.frame < ppu.raster.frame := by
      by_contra hLate
      have hSame : place.frame = ppu.raster.frame := by
        unfold Raster.Before at hBefore
        omega
      rw [hSame, Passed.passedIn_here] at hHere
      exact hHere (hBefore.place_lt hSame hIn.dot)
    rcases hPassed.exists_decisive hTiming hFrame with
      ⟨decisive, hDecisive, hLength⟩
    have hMember : decisive ∈ dots.filter
        (·.raster = ⟨261, 339, place.frame⟩) := by
      rw [hDecisive]
      exact List.mem_singleton_self _
    rcases List.mem_filter.mp hMember with ⟨hPast, hRaster⟩
    have hNumber : place.place =
        place.scanline * 341 + place.dot := rfl
    have hInLine := hIn.line
    have hInDot : place.dot ≤ 340 := hIn.dot
    unfold passedIn at hHere
    rw [if_pos hFrame, hLength] at hHere
    by_cases hShort :
        standard = .ntsc ∧ place.frame % 2 = 1 ∧
          decisive.registers.mask.rendering = true
    · rw [if_pos hShort] at hHere
      have hLines : standard.timing.scanlines = 262 := by
        rw [hShort.1]
        rfl
      have hEnd : place = ⟨261, 340, place.frame⟩ := by
        rcases place with ⟨line, dot, frame⟩
        dsimp only at hNumber hInLine hInDot hHere ⊢
        rw [Raster.mk.injEq]
        omega
      exact ⟨hEnd, hShort.1, hShort.2.1, decisive, hPast,
        of_decide_eq_true hRaster, hShort.2.2⟩
    · rw [if_neg hShort] at hHere
      omega

/-
  While everything is shown, frame 1 is one dot shorter than
  frame 0, of which no dot is left out.
-/
theorem shown_frames_alternate :
    let start := powerOn clearMemory VideoStandard.ntsc.timing
    ∃ count,
      let events :=
        .write 0x2001 0x1E :: List.replicate count Event.dot
      let dots := start.dotsOf events
      .reset ∉ events ∧
        1 < (start.after events).raster.frame ∧
        (dots.filter (·.raster.frame = 0)).length =
          341 * 262 ∧
        (dots.filter (·.raster.frame = 1)).length =
          341 * 262 - 1 ∧
        ∃ past ∈ dots, past.raster = ⟨261, 340, 0⟩ := by
  intro start
  let shown := start.write 0x2001 0x1E
  have hShown : shown.OnFrame :=
    (onFrame_powerOn clearMemory .ntsc).handle
      (.write 0x2001 0x1E)
  rcases hShown.exists_nextFrame with ⟨first, hFirst, hOne⟩
  rcases hFirst.exists_nextFrame with ⟨second, -, hTwo⟩
  refine ⟨first + second, ?_⟩
  intro events dots
  have hEvents : .reset ∉ events := by
    simp [events, List.mem_replicate]
  have hAfter :
      start.after events =
        (shown.afterDots first).afterDots second :=
    (start.after_cons _ _).trans
      (shown.afterDots_add first second)
  have hFrame : (start.after events).raster.frame = 2 := by
    rw [hAfter, hTwo, hOne]
    rfl
  -- the mask is written before the first dot, and dots keep it
  have hMask : ∀ past ∈ dots,
      past.registers.mask.rendering = true := by
    intro past hPast
    have hLater :
        past ∈ shown.dotsOf
          (List.replicate (first + second) .dot) := hPast
    rcases exists_of_mem_dotsOf hLater with
      ⟨before, later, hRun, rfl⟩
    have hQuiet : AllQuiet before := fun event hEvent =>
      allQuiet_dots (first + second) event
        (hRun ▸ List.mem_append_left _ hEvent)
    rw [(after_keeps hQuiet).mask]
    decide
  rcases frames_whole_but_for_skipped_dot clearMemory .ntsc
    events hEvents with ⟨-, -, -, hLengths, hNone⟩
  have hLength (frame : Nat) (hEnded : frame < 2) :
      (dots.filter (·.raster.frame = frame)).length =
        341 * 262 - if frame % 2 = 1 then 1 else 0 := by
    rcases hLengths frame (hFrame.symm ▸ hEnded) with
      ⟨decisive, hDecisive, hHere⟩
    have hMember : decisive ∈ dots.filter
        (·.raster = ⟨261, 339, frame⟩) := by
      rw [hDecisive]
      exact List.mem_singleton_self _
    have hRendering :=
      hMask decisive (List.mem_of_mem_filter hMember)
    rw [hHere, hRendering]
    simp only [true_and, and_true]
    rfl
  refine ⟨hEvents, hFrame.symm ▸ Nat.lt_succ_self 1,
    hLength 0 (by decide), hLength 1 (by decide), ?_⟩
  have hIn : Raster.InFrame VideoStandard.ntsc.timing
      ⟨261, 340, 0⟩ :=
    ⟨by decide, by decide⟩
  have hBefore : Raster.Before ⟨261, 340, 0⟩
      (start.after events).raster :=
    .inl (hFrame.symm ▸ Nat.zero_lt_succ 1)
  rcases hNone ⟨261, 340, 0⟩ hIn hBefore with
    hPassed | ⟨-, -, hOdd, -⟩
  · exact hPassed
  · exact absurd hOdd (by decide)

end Frames

end Ppu

end Famicom
