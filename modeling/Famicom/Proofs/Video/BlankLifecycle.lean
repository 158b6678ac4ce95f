import Famicom.Proofs.Video.IdleDots
import Famicom.Proofs.Video.SpriteZeroHit

/-
  How the flag of vertical blank comes and goes, and when an
  interrupt is asked for.

  One dot of a frame sets the flag, and it is set at most
  until a dot of the pre-render line.  A read of the status
  ends it, so that no two reads return the same one.

  Key definitions include:
    * `Ppu.inBlank`
    * `Ppu.EndsBlank`
    * `Ppu.BlankSince`
    * `Ppu.AsksForNmi`
    * `Ppu.countAlong`

  Main declarations:
    * `Ppu.handle_inBlank`
    * `Ppu.blankSince_tracedBack`
    * `Ppu.handle_nmiRequested`
    * `Ppu.returns_add_inBlank_le`
    * `Ppu.blank_lifecycle`
-/

namespace Famicom

------------------------------------------------------------
-- Addresses and Bytes
------------------------------------------------------------

theorem PpuRegister.ofAddress_eq_status
    {address : UInt16} :
    ofAddress address = .status ↔ address.toNat % 8 = 2 := by
  unfold ofAddress
  split <;> simp_all

theorem PpuRegister.ofAddress_eq_control
    {address : UInt16} :
    ofAddress address = .control ↔ address.toNat % 8 = 0 := by
  unfold ofAddress
  split <;> simp_all

/- The top bit of the status is the flag. -/
theorem PpuRegisters.statusByte_verticalBlank
    (registers : PpuRegisters) :
    Bits.meets registers.statusByte
        PpuStatus.verticalBlankMask =
      registers.status.verticalBlank := by
  have hParts (flags low mask : UInt8) :
      (flags ||| low) &&& mask =
        flags &&& mask ||| low &&& mask :=
    UInt8.toBitVec_inj.mp BitVec.and_or_distrib_right
  have hLow :
      registers.openBus &&& 0x1F &&&
        PpuStatus.verticalBlankMask = 0 := by
    rw [UInt8.and_assoc]
    exact UInt8.and_zero
  unfold Bits.meets statusByte
  rw [hParts, hLow, UInt8.or_zero]
  rcases registers.status with ⟨blank, hit, overflow⟩
  cases blank <;> cases hit <;> cases overflow <;> rfl

------------------------------------------------------------
-- Changes of Signals
------------------------------------------------------------

section Signals

variable {old new : Bool}
variable {rises ends : Prop}

/- When a signal rises, from when it is high afterwards. -/
theorem rises_iff
    (hNew : new = true ↔ rises ∨ old = true ∧ ¬ends) :
    (old = false ∧ new = true) ↔ old = false ∧ rises := by
  refine and_congr_right fun hLow => ?_
  simp [hNew, hLow]

/- When it falls. -/
theorem falls_iff
    (hApart : rises → ¬ends)
    (hNew : new = true ↔ rises ∨ old = true ∧ ¬ends) :
    (old = true ∧ new = false) ↔ old = true ∧ ends := by
  refine and_congr_right fun hHigh => ?_
  rw [← Bool.not_eq_true, hNew]
  constructor
  · intro hNeither
    by_contra hStays
    exact hNeither (.inr ⟨hHigh, hStays⟩)
  · rintro hEnds (hRises | ⟨-, hStays⟩)
    · exact hApart hRises hEnds
    · exact hStays hEnds

end Signals

namespace Ppu

variable {ppu : Ppu}

------------------------------------------------------------
-- The Flag
------------------------------------------------------------

/- Whether the flag of vertical blank is set. -/
def inBlank (ppu : Ppu) : Bool :=
  ppu.registers.status.verticalBlank

/- What ends the flag if it is set. -/
def EndsBlank (ppu : Ppu) : Event → Prop
  | .dot => ppu.AtStatusEnd
  | .read address => address.toNat % 8 = 2
  | .reset => True
  | _ => False

/- Vertical blank does not start where the flags end. -/
theorem AtBlankStart.not_atStatusEnd
    (hTiming : ppu.timing.Standard)
    (hStart : ppu.AtBlankStart) :
    ¬ppu.AtStatusEnd := by
  intro hEnd
  have hBelow := hTiming.below
  rw [← hEnd.1, hStart.1] at hBelow
  exact Nat.lt_irrefl _ hBelow

/- A dot starts the flag, ends it or leaves it alone. -/
theorem tick_inBlank
    (hTiming : ppu.timing.Standard) :
    ppu.tick.2.inBlank = true ↔
      ppu.AtBlankStart ∨
        ppu.inBlank = true ∧ ¬ppu.AtStatusEnd := by
  refine ⟨tick_verticalBlank hTiming, ?_⟩
  have hKeeps := drawn_keeps ppu
  have hRaster := drawn_raster ppu
  have hTiming' : ppu.drawn.timing.Standard :=
    hKeeps.timing.symm ▸ hTiming
  have hTick :
      ppu.tick.2.inBlank = ppu.drawn.updateFlags.inBlank :=
    rfl
  rw [hTick]
  by_cases hStart : ppu.AtBlankStart
  · have hHere : ppu.drawn.AtBlankStart := by
      unfold AtBlankStart
      rw [hRaster]
      exact hStart
    rw [updateFlags_of_blankStart hTiming' hHere]
    exact fun _ => rfl
  · rintro (hHere | ⟨hBlank, hElsewhere⟩)
    · exact absurd hHere hStart
    · have hDrawn : ppu.drawn.inBlank = true :=
        (drawn_signals ppu).verticalBlank.trans hBlank
      unfold updateFlags
      split_ifs with hDot hLine hPre
      · rfl
      · rw [isPrerenderLine_iff, hRaster, hKeeps.timing] at hPre
        rw [hRaster] at hDot
        exact absurd ⟨hPre, hDot⟩ hElsewhere
      · exact hDrawn
      · exact hDrawn

theorem read_inBlank
    (address : UInt16) :
    (ppu.read address).2.inBlank = true ↔
      ppu.inBlank = true ∧ ¬address.toNat % 8 = 2 := by
  rw [← PpuRegister.ofAddress_eq_status]
  unfold read
  split
  next hStatus => simp [hStatus, readStatus, inBlank,
    PpuRegisters.setVerticalBlank]
  next hData => simp [hData]
  next hData => simp [hData, readData, advanceAddress, inBlank]
  next hStatus _ _ =>
    exact (and_iff_left hStatus).symm

theorem write_inBlank
    (address : UInt16)
    (value : UInt8) :
    (ppu.write address value).inBlank = ppu.inBlank := by
  unfold inBlank write
  dsimp only
  split <;> rfl

/- What an event does to the flag. -/
theorem handle_inBlank
    (event : Event)
    (hTiming : ppu.timing.Standard) :
    (ppu.handle event).inBlank = true ↔
      event = .dot ∧ ppu.AtBlankStart ∨
        ppu.inBlank = true ∧ ¬ppu.EndsBlank event := by
  unfold EndsBlank
  cases event with
  | dot => simp [handle, tick_inBlank hTiming]
  | read address => simp [handle, read_inBlank]
  | write address value => simp [handle, write_inBlank]
  | writeOam value => simp [handle, writeOam, inBlank]
  | acceptNmi => simp [handle, acceptNmi, inBlank]
  | acceptFrame => simp [handle, acceptFrame, inBlank]
  | reset => simp [handle, reset, inBlank]

------------------------------------------------------------
-- Where the Flag Is Set
------------------------------------------------------------

/-
  The flag was set by a dot of the same frame, and the place
  is behind that one and up to where the flags end.
-/
structure BlankSince (past ppu : Ppu) : Prop where
  start : past.AtBlankStart
  behind : past.raster.Before ppu.raster
  upToEnd :
    ¬Raster.Before
      ⟨ppu.timing.prerenderScanline, 1, past.raster.frame⟩
      ppu.raster

/- The dot that sets the flag. -/
theorem AtBlankStart.blankSince
    (hTiming : ppu.timing.Standard)
    (hStart : ppu.AtBlankStart) :
    BlankSince ppu ppu.tick.2 where
  start := hStart
  behind := tick_raster_before ppu
  upToEnd := by
    have hBelow := hTiming.below
    unfold Raster.Before
    rw [tick_raster_of_blankStart hStart,
      (tick_keeps ppu).timing]
    dsimp only
    omega

/- A dot on which the flags do not end. -/
theorem BlankSince.tick
    {past : Ppu}
    (hFrame : ppu.OnFrame)
    (hElsewhere : ¬ppu.AtStatusEnd)
    (hSince : BlankSince past ppu) :
    BlankSince past ppu.tick.2 where
  start := hSince.start
  behind := hSince.behind.trans (tick_raster_before ppu)
  upToEnd := by
    have hLastDot : Hardware.lastDot = 340 := rfl
    have hLast := hFrame.timing.last
    have hStart := hSince.start
    have hBehind := hSince.behind
    have hUpTo := hSince.upToEnd
    unfold AtStatusEnd at hElsewhere
    unfold AtBlankStart at hStart
    unfold Raster.Before at *
    rw [(tick_keeps ppu).timing]
    rcases tick_raster_inFrame hFrame.timing
        hFrame.raster with
      ⟨hNext, hDot⟩ | ⟨hNext, hDot, hLine⟩ |
        ⟨hNext, hDot, hLine⟩
    all_goals
      rw [hNext]
      dsimp only at hUpTo ⊢
      omega

/- A flag that is set was set by a dot of the run. -/
theorem blankSince_tracedBack :
    TracedBack OnFrame (·.inBlank = true) BlankSince where
  reset := fun ppu => Bool.false_ne_true
  dot := by
    intro ppu hFrame hBlank
    rcases (tick_inBlank hFrame.timing).mp hBlank with
      hStart | ⟨hBefore, hElsewhere⟩
    · exact .inl (hStart.blankSince hFrame.timing)
    · exact .inr ⟨hBefore, fun past hSince =>
        hSince.tick hFrame hElsewhere⟩
  access := by
    intro ppu event hDot hReset hBlank
    have hKeeps := ppu.handle_accessKeeps hDot hReset
    refine ⟨hKeeps.verticalBlank hBlank, ?_⟩
    intro past hSince
    refine ⟨hSince.start, ?_, ?_⟩
    · rw [hKeeps.raster]
      exact hSince.behind
    · rw [hKeeps.raster, hKeeps.timing]
      exact hSince.upToEnd

------------------------------------------------------------
-- Requests
------------------------------------------------------------

/-
  What asks for an interrupt: the start of vertical blank if
  the interrupt is enabled, and a write that enables it while
  the flag is set.
-/
def AsksForNmi (ppu : Ppu) : Event → Prop
  | .dot =>
      ppu.AtBlankStart ∧
        ppu.registers.control.nmiEnabled = true
  | .write address value =>
      address.toNat % 8 = 0 ∧
        ppu.registers.control.nmiEnabled = false ∧
        (PpuControl.mk value).nmiEnabled = true ∧
        ppu.inBlank = true
  | _ => False

/- What an event does to the request. -/
theorem handle_nmiRequested
    (event : Event)
    (hTiming : ppu.timing.Standard) :
    (ppu.handle event).nmiRequested = true ↔
      ppu.AsksForNmi event ∨
        ppu.nmiRequested = true ∧
          ¬(event = .acceptNmi ∨ event = .reset) := by
  unfold AsksForNmi
  cases event with
  | dot =>
      simp [handle, tick_nmiRequested hTiming, dotRaises,
        or_comm]
  | read address => simp [handle]
  | write address value =>
      simp [handle, write_nmiRequested, writeRaises, inBlank,
        PpuRegister.ofAddress_eq_control, and_assoc, or_comm]
  | writeOam value => simp [handle, writeOam]
  | acceptNmi => simp [handle, acceptNmi]
  | acceptFrame => simp [handle, acceptFrame]
  | reset => simp [handle, reset]

------------------------------------------------------------
-- Reads of the Flag
------------------------------------------------------------

/- How often events of a run pass a test as they happen. -/
def countAlong
    (test : Ppu → Event → Bool)
    (ppu : Ppu) : List Event → Nat
  | [] => 0
  | event :: events =>
      (test ppu event).toNat +
        (ppu.handle event).countAlong test events

/- A dot that starts vertical blank. -/
def startsBlank (ppu : Ppu) : Event → Bool
  | .dot => decide ppu.AtBlankStart
  | _ => false

/- A read of the status that returns the flag. -/
def returnsBlank (ppu : Ppu) : Event → Bool
  | .read address =>
      decide (address.toNat % 8 = 2) &&
        Bits.meets (ppu.read address).1
          PpuStatus.verticalBlankMask
  | _ => false

/- The status is returned with the flag as it was. -/
theorem read_status_verticalBlank
    {address : UInt16}
    (hStatus : address.toNat % 8 = 2) :
    Bits.meets (ppu.read address).1
        PpuStatus.verticalBlankMask =
      ppu.inBlank := by
  unfold read
  rw [PpuRegister.ofAddress_eq_status.mpr hStatus]
  exact ppu.registers.statusByte_verticalBlank

/- A read that returns the flag takes it away. -/
theorem inBlank_of_returnsBlank
    {event : Event}
    (hReturns : ppu.returnsBlank event = true) :
    ppu.inBlank = true ∧
      (ppu.handle event).inBlank = false := by
  cases event with
  | read address =>
      unfold returnsBlank at hReturns
      rw [Bool.and_eq_true, decide_eq_true_eq] at hReturns
      rcases hReturns with ⟨hStatus, hFlag⟩
      rw [read_status_verticalBlank hStatus] at hFlag
      refine ⟨hFlag, ?_⟩
      simp [handle, ← Bool.not_eq_true, read_inBlank, hStatus]
  | _ => exact absurd hReturns Bool.false_ne_true

theorem handle_returns_le
    (event : Event)
    (hTiming : ppu.timing.Standard) :
    (ppu.returnsBlank event).toNat +
        (ppu.handle event).inBlank.toNat ≤
      ppu.inBlank.toNat + (ppu.startsBlank event).toNat := by
  cases hReturns : ppu.returnsBlank event with
  | true =>
      rcases inBlank_of_returnsBlank hReturns with
        ⟨hBefore, hAfter⟩
      simp [hBefore, hAfter]
  | false =>
      cases hAfter : (ppu.handle event).inBlank with
      | false => simp
      | true =>
          rcases (handle_inBlank event hTiming).mp hAfter with
            ⟨hDot, hStart⟩ | ⟨hBefore, -⟩
          · simp [hDot, startsBlank, hStart]
          · simp [hBefore]

/- Reads return the flag no more often than it is set. -/
theorem returns_add_inBlank_le
    (events : List Event)
    (hTiming : ppu.timing.Standard) :
    ppu.countAlong returnsBlank events +
        (ppu.after events).inBlank.toNat ≤
      ppu.inBlank.toNat +
        ppu.countAlong startsBlank events := by
  induction events generalizing ppu with
  | nil => simp [countAlong, after]
  | cons event events ih =>
      have hNext := handle_returns_le event hTiming
      have hTiming' : (ppu.handle event).timing.Standard :=
        (handle_timing ppu event).symm ▸ hTiming
      have hLater := ih hTiming'
      unfold countAlong
      rw [after_cons]
      omega

------------------------------------------------------------
-- Runs
------------------------------------------------------------

/-
  The flag of vertical blank and the wish for an interrupt in
  any run from power-on.  The flag is set by one dot of a
  frame, and from there on until at most the second dot of
  the pre-render line.  A read of the status ends it.  There
  is a new wish exactly if that dot or a write asks for an
  interrupt.  A read of the status returns the flag, and as
  long as no dot starts vertical blank again no second one
  does.
-/
theorem blank_lifecycle
    (memory : VideoMemory)
    (standard : VideoStandard)
    (events : List Event)
    (event : Event) :
    let start := powerOn memory standard.timing
    let ppu := start.after events
    let next := ppu.handle event
    ((ppu.inBlank = false ∧ next.inBlank = true) ↔
      ppu.inBlank = false ∧
        event = .dot ∧ ppu.AtBlankStart) ∧
    ((ppu.inBlank = true ∧ next.inBlank = false) ↔
      ppu.inBlank = true ∧ ppu.EndsBlank event) ∧
    (ppu.inBlank = true →
      ∃ past,
        PastDot start events past ∧ BlankSince past ppu) ∧
    ((ppu.nmiRequested = false ∧ next.nmiRequested = true) ↔
      ppu.nmiRequested = false ∧ ppu.AsksForNmi event) ∧
    (∀ address : UInt16, address.toNat % 8 = 2 →
      Bits.meets (ppu.read address).1
        PpuStatus.verticalBlankMask = ppu.inBlank) ∧
    ∀ later, ppu.countAlong startsBlank later = 0 →
      ppu.countAlong returnsBlank later ≤ 1 := by
  intro start ppu next
  have hStart : start.OnFrame := onFrame_powerOn _ _
  have hTiming : ppu.timing.Standard :=
    (hStart.after events).timing
  have hBlank := handle_inBlank event hTiming
  have hRequest := handle_nmiRequested event hTiming
  refine ⟨rises_iff hBlank, falls_iff ?_ hBlank, ?_,
    rises_iff hRequest, ?_, ?_⟩
  · rintro ⟨hDot, hHere⟩ hEnds
    rw [hDot] at hEnds
    exact hHere.not_atStatusEnd hTiming hEnds
  · exact blankSince_tracedBack.exists_pastDot hStart.after
      Bool.false_ne_true
  · exact fun address => read_status_verticalBlank
  · intro later hNone
    have hCount := returns_add_inBlank_le later hTiming
    have hFlag := ppu.inBlank.toNat_le
    omega

/- The dots up to vertical blank, with the interrupt enabled. -/
def blankEvents : List Event :=
  .write 0x2000 0x80 :: .replicate (dotsBeforeBlank + 1) .dot

theorem after_blankEvents :
    solidStart.after blankEvents =
      ((solidStart.write 0x2000 0x80).enterVerticalBlank
        |>.movedTo (dotsBeforeBlank + 1)) := by
  have hFacts :
      (solidStart.write 0x2000 0x80).registers.mask.rendering =
          false ∧
        (solidStart.write 0x2000 0x80).raster = {} := by
    decide +kernel
  have hTiming :
      (solidStart.write 0x2000 0x80).timing.Standard :=
    (write_accessKeeps solidStart _ _).timing.symm ▸
      VideoStandard.ntsc.standard
  generalize hEnabled :
    solidStart.write 0x2000 0x80 = enabled at *
  have hHere : enabled.movedTo 0 = enabled :=
    movedTo_of_raster hFacts.2
  have hRun := afterDots_to_blank hTiming hFacts.1
    (Nat.zero_le _)
  rw [hHere, Nat.sub_zero] at hRun
  unfold blankEvents
  rw [after_cons, ← hRun, ← hEnabled]
  rfl

/- Of two reads of the status the first returns the flag. -/
theorem read_once_of_blankEvents :
    let ppu := solidStart.after blankEvents
    ppu.inBlank = true ∧
      (ppu.handle (.read 0x2002)).inBlank = false ∧
      ppu.countAlong startsBlank
        [.read 0x2002, .read 0x3FFA] = 0 ∧
      ppu.countAlong returnsBlank
        [.read 0x2002, .read 0x3FFA] = 1 := by
  intro ppu
  have hLife := blank_lifecycle
    (.ofPatterns ⟨.replicate _ 0xFF, false⟩ .horizontal)
    .ntsc blankEvents (.read 0x2002)
  have hBlank : ppu.inBlank = true :=
    congrArg inBlank after_blankEvents
  have hFlag :
      Bits.meets (ppu.read 0x2002).1
        PpuStatus.verticalBlankMask = ppu.inBlank :=
    hLife.2.2.2.2.1 0x2002 rfl
  have hFirst : ppu.returnsBlank (.read 0x2002) = true := by
    unfold returnsBlank
    dsimp only
    rw [hFlag, hBlank]
    rfl
  refine ⟨hBlank, (hLife.2.1.mpr ⟨hBlank, rfl⟩).2, rfl, ?_⟩
  refine Nat.le_antisymm (hLife.2.2.2.2.2 _ rfl) ?_
  unfold countAlong
  rw [hFirst]
  exact Nat.le_add_right 1 _

end Ppu

end Famicom
