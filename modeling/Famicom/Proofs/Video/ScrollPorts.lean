import Famicom.Proofs.Video.AccessScripts
import Famicom.Proofs.Video.ScrollBounds
import Famicom.Proofs.Words

/-
  The protocol of the scroll registers.

  Two registers are written in two halves each, and they
  share the latch that tells the halves apart.  A read of the
  status starts over, whatever was written before.

  Key definitions include:
    * `Ppu.Event.resetsLatch`
    * `Ppu.Event.togglesLatch`
    * `Ppu.halfWrites`
    * `Scroll.Setting`
    * `Ppu.positionScript`

  Main declarations:
    * `Ppu.latch_eq_first_iff`
    * `Ppu.after_of_setsPosition`
    * `Ppu.writeAddress_twice`
    * `Ppu.scroll_registers_protocol`
-/

namespace Famicom

------------------------------------------------------------
-- The Latch
------------------------------------------------------------

/- The other half. -/
def WriteLatch.flip : WriteLatch → WriteLatch
  | .first => .second
  | .second => .first

namespace Ppu

/- Whether the next half is the first one in any case. -/
def Event.resetsLatch : Event → Bool
  | .read address => PpuRegister.ofAddress address == .status
  | .reset => true
  | _ => false

/- Whether half of a double register is written. -/
def Event.togglesLatch : Event → Bool
  | .write address _ =>
      PpuRegister.ofAddress address == .scroll ||
        PpuRegister.ofAddress address == .address
  | _ => false

/- The halves written since the protocol last started over. -/
def halfWrites (events : List Event) : Nat :=
  (events.rtakeWhile fun event => !event.resetsLatch).countP
    Event.togglesLatch

theorem latch_writeScroll
    (scroll : Scroll)
    (value : UInt8) :
    (scroll.writeScroll value).latch = scroll.latch.flip := by
  unfold Scroll.writeScroll
  cases scroll.latch <;> rfl

theorem latch_writeAddress
    (scroll : Scroll)
    (value : UInt8) :
    (scroll.writeAddress value).latch = scroll.latch.flip := by
  unfold Scroll.writeAddress
  cases scroll.latch <;> rfl

/- What an event does to the latch. -/
theorem handle_latch
    (ppu : Ppu)
    (event : Event) :
    (ppu.handle event).scroll.latch =
      bif event.resetsLatch then .first
      else bif event.togglesLatch then ppu.scroll.latch.flip
      else ppu.scroll.latch := by
  cases event with
  | dot => exact (tick_keeps ppu).latch
  | read address =>
      show (ppu.read address).2.scroll.latch = _
      rw [read_scroll]
      unfold Event.resetsLatch Event.togglesLatch
      dsimp only
      cases PpuRegister.ofAddress address <;> rfl
  | write address value =>
      show (ppu.write address value).scroll.latch = _
      rw [write_scroll]
      unfold Event.resetsLatch Event.togglesLatch
      dsimp only
      cases PpuRegister.ofAddress address with
      | scroll => exact latch_writeScroll ppu.scroll value
      | address => exact latch_writeAddress ppu.scroll value
      | _ => rfl
  | writeOam value => rfl
  | acceptNmi => rfl
  | acceptFrame => rfl
  | reset => rfl

theorem latch_flip_eq_first_iff (latch : WriteLatch) :
    latch.flip = .first ↔ ¬latch = .first := by
  cases latch <;> decide

/- The first half is next after every second one. -/
theorem latch_eq_first_iff
    {start : Ppu}
    (hStart : start.scroll.latch = .first)
    (events : List Event) :
    (start.after events).scroll.latch = .first ↔
      Even (halfWrites events) := by
  induction events using List.reverseRecOn with
  | nil => exact iff_of_true hStart Even.zero
  | append_singleton events event ih =>
      have hLast :
          start.after (events ++ [event]) =
            (start.after events).handle event :=
        after_append _ _ _
      rw [hLast, handle_latch]
      unfold halfWrites
      rw [List.rtakeWhile_concat]
      cases hResets : event.resetsLatch with
      | true => simp
      | false =>
          have hCount :
              ((events.rtakeWhile
                  (fun event => !event.resetsLatch) ++
                [event]).countP Event.togglesLatch) =
                halfWrites events +
                  if event.togglesLatch then 1 else 0 := by
            rw [List.countP_append, List.countP_singleton]
            rfl
          simp only [Bool.not_false, if_true, hCount,
            cond_false]
          cases event.togglesLatch with
          | true =>
              simp only [if_true, cond_true]
              rw [latch_flip_eq_first_iff, ih,
                Nat.even_add_one]
          | false => exact ih

end Ppu

------------------------------------------------------------
-- Positions
------------------------------------------------------------

/-
  What has been written so far, as numbers: the position of
  the picture by tiles, nametable and pixels, and the half
  that is written next.
-/
@[ext] structure Scroll.Setting where
  coarseX : Nat
  coarseY : Nat
  nametable : Nat
  fineX : Nat
  fineY : Nat
  latch : WriteLatch

namespace Scroll

open ScrollAddress

variable (scroll : Scroll)

def setting : Setting where
  coarseX := scroll.temporary.coarseX.toNat
  coarseY := scroll.temporary.coarseY.toNat
  nametable := scroll.temporary.nametable.toNat
  fineX := scroll.fineX.toNat
  fineY := scroll.temporary.fineY.toNat
  latch := scroll.latch

/- A position is its tile and its place in the tile. -/
theorem toNat_x :
    scroll.x.toNat =
      scroll.setting.coarseX * 8 + scroll.setting.fineX := by
  have hTile : scroll.temporary.coarseX.toNat < 32 :=
    scroll.temporary.digits_lt.1
  have hFine : scroll.fineX.toNat < 256 :=
    scroll.fineX.toNat_lt
  unfold x setting
  simp only [UInt16.toNat_add, UInt16.toNat_mul,
    UInt8.toNat_toUInt16, UInt16.reduceToNat]
  omega

theorem toNat_y :
    scroll.y.toNat =
      scroll.setting.coarseY * 8 + scroll.setting.fineY := by
  have hTile : scroll.temporary.coarseY.toNat < 32 :=
    scroll.temporary.digits_lt.2.1
  have hFine : scroll.temporary.fineY.toNat < 8 :=
    scroll.temporary.digits_lt.2.2.2.2
  unfold y setting
  simp only [UInt16.toNat_add, UInt16.toNat_mul,
    UInt16.reduceToNat]
  omega

/- The control register sets the nametable and no more. -/
theorem setting_writeControl (control : PpuControl) :
    (scroll.writeControl control.nametable).setting =
      { scroll.setting with
        nametable := control.bits.toNat % 4 } := by
  have hLow : control.nametable.toNat =
      control.bits.toNat % 4 := by
    unfold PpuControl.nametable
    rw [UInt8.toNat_and]
    exact Nat.and_two_pow_sub_one_eq_mod _ 2
  ext <;> simp (disch := decide) only [setting, writeControl,
    withNametable, coarseX, coarseY, nametable, fineY,
    digit_setDigit_self, digit_setDigit_above,
    digit_setDigit_below, UInt16.reduceToNat,
    UInt8.toNat_toUInt16, hLow, Nat.mod_mod]

theorem setting_writeScroll_first
    (hLatch : scroll.latch = .first)
    (value : UInt8) :
    (scroll.writeScroll value).setting =
      { scroll.setting with
        coarseX := value.toNat / 8
        fineX := value.toNat % 8
        latch := .second } := by
  have hValue : value.toNat < 256 := value.toNat_lt
  have hTile : value.toNat / 8 % 32 = value.toNat / 8 := by
    omega
  unfold writeScroll
  rw [hLatch]
  ext <;> simp (disch := decide) only [setting, withCoarseX,
    coarseX, coarseY, nametable, fineY, digit_setDigit_self,
    digit_setDigit_above, UInt16.reduceToNat,
    UInt8.reduceToNat, UInt8.toNat_toUInt16, UInt8.toNat_div,
    UInt8.toNat_mod, hTile]

theorem setting_writeScroll_second
    (hLatch : scroll.latch = .second)
    (value : UInt8) :
    (scroll.writeScroll value).setting =
      { scroll.setting with
        coarseY := value.toNat / 8
        fineY := value.toNat % 8
        latch := .first } := by
  have hValue : value.toNat < 256 := value.toNat_lt
  have hTile : value.toNat / 8 % 32 = value.toNat / 8 := by
    omega
  unfold writeScroll
  rw [hLatch]
  ext <;> simp (disch := decide) only [setting, withCoarseY,
    withFineY, coarseX, coarseY, nametable, fineY,
    digit_setDigit_self, digit_setDigit_above,
    digit_setDigit_below, UInt16.reduceToNat,
    UInt8.reduceToNat, UInt8.toNat_toUInt16, UInt8.toNat_div,
    UInt8.toNat_mod, Nat.mod_mod, hTile]

end Scroll

------------------------------------------------------------
-- Scripts of Positions
------------------------------------------------------------

/- Accesses that set a position and nothing else. -/
def RegisterAccess.setsPosition : RegisterAccess → Bool
  | .read .status => true
  | .write .control _ => true
  | .write .scroll _ => true
  | _ => false

/- What such an access sets. -/
def Scroll.Setting.perform
    (setting : Scroll.Setting) :
    RegisterAccess → Scroll.Setting
  | .read .status => { setting with latch := .first }
  | .write .control value =>
      { setting with nametable := value.toNat % 4 }
  | .write .scroll value =>
      match setting.latch with
      | .first =>
          { setting with
            coarseX := value.toNat / 8
            fineX := value.toNat % 8
            latch := .second }
      | .second =>
          { setting with
            coarseY := value.toNat / 8
            fineY := value.toNat % 8
            latch := .first }
  | _ => setting

theorem Scroll.setting_writeScroll
    (scroll : Scroll)
    (value : UInt8) :
    (scroll.writeScroll value).setting =
      scroll.setting.perform (.write .scroll value) := by
  cases hLatch : scroll.latch with
  | first =>
      have hSetting : scroll.setting.latch = .first := hLatch
      unfold Setting.perform
      rw [setting_writeScroll_first scroll hLatch, hSetting]
  | second =>
      have hSetting : scroll.setting.latch = .second := hLatch
      unfold Setting.perform
      rw [setting_writeScroll_second scroll hLatch, hSetting]

theorem Scroll.current_writeScroll
    (scroll : Scroll)
    (value : UInt8) :
    (scroll.writeScroll value).current = scroll.current := by
  unfold writeScroll
  cases scroll.latch <;> rfl

/- Of writes to the control register only the last counts. -/
theorem Scroll.Setting.foldl_controls
    (setting : Scroll.Setting)
    (values : List UInt8) :
    (values.map (RegisterAccess.write .control)).foldl
        perform setting =
      { setting with
        nametable :=
          (values.getLast?.map (·.toNat % 4)).getD
            setting.nametable } := by
  induction values using List.reverseRecOn with
  | nil => rfl
  | append_singleton values value ih =>
      rw [List.map_append, List.foldl_append, ih]
      simp [perform]

namespace Ppu

variable (ppu : Ppu)

/- Dots leave alone what has been written. -/
theorem setting_after_quiet
    {events : List Event}
    (hQuiet : AllQuiet events) :
    (ppu.after events).scroll.setting = ppu.scroll.setting := by
  have hKeeps : Keeps ppu (ppu.after events) :=
    after_keeps hQuiet
  unfold Scroll.setting
  rw [hKeeps.temporary, hKeeps.fineX, hKeeps.latch]

/- Without dots they leave alone the current address. -/
theorem current_after_quiet
    {events : List Event}
    (hQuiet : AllQuiet events)
    (hStill : .dot ∉ events) :
    (ppu.after events).scroll.current =
      ppu.scroll.current := by
  induction events generalizing ppu with
  | nil => rfl
  | cons event events ih =>
      rw [List.mem_cons, not_or] at hStill
      have hTail : AllQuiet events := fun e hMember =>
        hQuiet e (List.mem_cons_of_mem event hMember)
      have hHead := hQuiet event List.mem_cons_self
      rw [after_cons, ih _ hTail hStill.2]
      cases event with
      | dot => exact absurd rfl hStill.1
      | acceptNmi | acceptFrame => rfl
      | read _ | write _ _ | writeOam _ | reset =>
          cases hHead

/- One access of a script of positions. -/
theorem handle_of_setsPosition
    {event : Event}
    {access : RegisterAccess}
    (hAccess : event.access? = some access)
    (hSets : access.setsPosition = true) :
    (ppu.handle event).scroll.setting =
        ppu.scroll.setting.perform access ∧
      (ppu.handle event).scroll.current =
        ppu.scroll.current := by
  cases access with
  | read register =>
      rcases Event.eq_read_of_access? hAccess with
        ⟨address, rfl, hRegister⟩
      have hScroll := ppu.read_scroll address
      rw [hRegister] at hScroll
      cases register with
      | status =>
          show (ppu.read address).2.scroll.setting = _ ∧
            (ppu.read address).2.scroll.current = _
          rw [hScroll]
          exact ⟨rfl, rfl⟩
      | _ => cases hSets
  | write register value =>
      rcases Event.eq_write_of_access? hAccess with
        ⟨address, rfl, hRegister⟩
      have hScroll := ppu.write_scroll address value
      rw [hRegister] at hScroll
      cases register with
      | control =>
          show (ppu.write address value).scroll.setting = _ ∧
            (ppu.write address value).scroll.current = _
          rw [hScroll]
          exact ⟨ppu.scroll.setting_writeControl ⟨value⟩, rfl⟩
      | scroll =>
          show (ppu.write address value).scroll.setting = _ ∧
            (ppu.write address value).scroll.current = _
          rw [hScroll]
          exact ⟨ppu.scroll.setting_writeScroll value,
            ppu.scroll.current_writeScroll value⟩
      | _ => cases hSets

theorem after_of_setsPosition
    {script : List RegisterAccess}
    {events : List Event}
    (hPerforms : Performs script events)
    (hSets : ∀ access ∈ script, access.setsPosition = true) :
    (ppu.after events).scroll.setting =
        script.foldl Scroll.Setting.perform
          ppu.scroll.setting ∧
      (.dot ∉ events →
        (ppu.after events).scroll.current =
          ppu.scroll.current) := by
  induction script generalizing ppu events with
  | nil =>
      exact ⟨setting_after_quiet ppu hPerforms.allQuiet,
        current_after_quiet ppu hPerforms.allQuiet⟩
  | cons access script ih =>
      rcases hPerforms.exists_of_cons with
        ⟨gap, event, later, rfl, hGap, hAccess, hLater⟩
      have hRest := ih ((ppu.after gap).handle event)
        hLater fun other hMember =>
          hSets other (List.mem_cons_of_mem access hMember)
      have hHere := handle_of_setsPosition (ppu.after gap)
        hAccess (hSets access List.mem_cons_self)
      rw [after_append, after_cons, List.foldl_cons,
        hRest.1, hHere.1, setting_after_quiet ppu hGap]
      refine ⟨rfl, fun hStill => ?_⟩
      rw [List.mem_append, not_or, List.mem_cons,
        not_or] at hStill
      rw [hRest.2 hStill.2.2, hHere.2,
        current_after_quiet ppu hGap hStill.1]

end Ppu

------------------------------------------------------------
-- Scripts of Addresses
------------------------------------------------------------

namespace Scroll

variable {scroll : Scroll}

/- The first half is the upper one, of which six bits stay. -/
theorem toNat_writeAddress_first
    (hLatch : scroll.latch = .first)
    (value : UInt8) :
    (scroll.writeAddress value).temporary.bits.toNat =
      256 * (value.toNat % 64) +
        scroll.temporary.bits.toNat % 256 := by
  have hHigh : (value &&& 0x3F).toNat = value.toNat % 64 := by
    rw [UInt8.toNat_and]
    exact Nat.and_two_pow_sub_one_eq_mod _ 6
  have hLow : (scroll.temporary.bits &&& 0x00FF).toNat =
      scroll.temporary.bits.toNat % 256 := by
    rw [UInt16.toNat_and]
    exact Nat.and_two_pow_sub_one_eq_mod _ 8
  have hShift := Bits.toNat_shiftLeft_byte (value &&& 0x3F)
  unfold writeAddress
  rw [hLatch]
  dsimp only
  rw [ScrollAddress.toNat_ofWord,
    Bits.toNat_or_below (by omega) (by omega), hShift, hHigh,
    hLow]
  omega

/- The second half is the lower one and makes it current. -/
theorem writeAddress_second
    (hLatch : scroll.latch = .second)
    (hFits : scroll.temporary.Fits)
    (value : UInt8) :
    (scroll.writeAddress value).current =
        (scroll.writeAddress value).temporary ∧
      (scroll.writeAddress value).temporary.bits.toNat =
        256 * (scroll.temporary.bits.toNat / 256) +
          value.toNat := by
  have hPage := Bits.toNat_page scroll.temporary.bits
  have hValue : value.toUInt16.toNat < 256 := value.toNat_lt
  have hByte : value.toUInt16.toNat = value.toNat := rfl
  unfold ScrollAddress.Fits at hFits
  unfold writeAddress
  rw [hLatch]
  refine ⟨rfl, ?_⟩
  dsimp only
  rw [ScrollAddress.toNat_ofWord,
    Bits.toNat_or_below (by omega) hValue, hPage, hByte]
  omega

end Scroll

namespace Ppu

variable {ppu : Ppu}

/- After a status read the first half is awaited. -/
theorem latch_after_status
    {events : List Event}
    (hPerforms : Performs [.read .status] events) :
    (ppu.after events).scroll.latch = .first := by
  have hSetting := (after_of_setsPosition ppu hPerforms
    (by simp [RegisterAccess.setsPosition])).1
  exact congrArg Scroll.Setting.latch hSetting

/- Half of an address with dots around it. -/
theorem after_firstHalf
    (hLatch : ppu.scroll.latch = .first)
    {high : UInt8}
    {events : List Event}
    (hPerforms : Performs [.write .address high] events) :
    (ppu.after events).scroll.latch = .second ∧
      (ppu.after events).scroll.temporary.bits.toNat / 256 =
        high.toNat % 64 := by
  rcases hPerforms.exists_of_cons with
    ⟨gap, event, later, rfl, hGap, hAccess, hLater⟩
  rcases Event.eq_write_of_access? hAccess with
    ⟨address, rfl, hRegister⟩
  have hBefore : Keeps ppu (ppu.after gap) :=
    after_keeps hGap
  have hAfter :
      Keeps ((ppu.after gap).write address high)
        (((ppu.after gap).write address high).after later) :=
    after_keeps hLater.allQuiet
  have hScroll := (ppu.after gap).write_scroll address high
  rw [hRegister] at hScroll
  have hWaiting := hBefore.latch.trans hLatch
  have hTemporary :=
    Scroll.toNat_writeAddress_first hWaiting high
  rw [after_append, after_cons]
  constructor
  · refine hAfter.latch.trans ?_
    rw [hScroll, latch_writeAddress, hWaiting]
    rfl
  · refine (congrArg (·.bits.toNat / 256)
      hAfter.temporary).trans ?_
    rw [hScroll, hTemporary]
    omega

/-
  After a status read two halves make one address, which is
  current from then on.
-/
theorem writeAddress_twice
    (hFits : ppu.scroll.Fits)
    {high : UInt8}
    {events : List Event}
    (hPerforms :
      Performs [.read .status, .write .address high] events)
    {address : UInt16}
    (hRegister : PpuRegister.ofAddress address = .address)
    (low : UInt8) :
    let scroll := ((ppu.after events).write address low).scroll
    scroll.current = scroll.temporary ∧
      scroll.temporary.bits.toNat =
        256 * (high.toNat % 64) + low.toNat := by
  have hParts :
      Performs ([.read .status] ++ [.write .address high])
        events :=
    hPerforms
  rcases hParts.exists_of_append with
    ⟨before, later, rfl, hStatus, hHigh⟩
  rcases after_firstHalf (latch_after_status hStatus)
      hHigh with
    ⟨hLatch, hTemporary⟩
  rw [← after_append] at hLatch hTemporary
  have hScroll :=
    (ppu.after (before ++ later)).write_scroll address low
  rw [hRegister] at hScroll
  intro scroll
  have hLast : scroll = _ := hScroll
  rw [hLast, ← hTemporary]
  exact Scroll.writeAddress_second hLatch
    (fits_after _ hFits).temporary low

------------------------------------------------------------
-- Protocol
------------------------------------------------------------

/-
  The script that sets a position, with writes to the control
  register before and after the first half.
-/
def positionScript
    (first second : List UInt8)
    (x y : UInt8) : List RegisterAccess :=
  .read .status ::
    first.map (.write .control) ++
      .write .scroll x ::
        second.map (.write .control) ++ [.write .scroll y]

theorem setsPosition_of_mem_positionScript
    {first second : List UInt8}
    {x y : UInt8}
    {access : RegisterAccess}
    (hMember : access ∈ positionScript first second x y) :
    access.setsPosition = true := by
  simp only [positionScript, List.cons_append,
    List.append_assoc, List.mem_cons, List.mem_append,
    List.mem_map, List.not_mem_nil, or_false] at hMember
  rcases hMember with rfl | ⟨_, -, rfl⟩ | rfl |
    ⟨_, -, rfl⟩ | rfl <;> rfl

/- What that script leaves behind. -/
theorem foldl_positionScript
    (setting : Scroll.Setting)
    (first second : List UInt8)
    (x y : UInt8) :
    (positionScript first second x y).foldl
        Scroll.Setting.perform setting =
      { coarseX := x.toNat / 8
        coarseY := y.toNat / 8
        nametable :=
          ((first ++ second).getLast?.map (·.toNat % 4)).getD
            setting.nametable
        fineX := x.toNat % 8
        fineY := y.toNat % 8
        latch := .first } := by
  unfold positionScript
  simp only [List.foldl_append, List.foldl_cons,
    List.foldl_nil, Scroll.Setting.foldl_controls,
    Scroll.Setting.perform, List.getLast?_append]
  cases second.getLast? <;> rfl

/-
  The scroll registers after any events from power-on.  Both
  addresses have fifteen bits and the fine column three.  The
  first half is next if and only if the number of halves
  written since the last status read or reset is even.
  Whatever happened before, a status read and the two halves
  of a position set that position, and the nametable is that
  of the last write to the control register between them, if
  there is one; the current address is left to the dots.  A
  status read and the two halves of an address make it both
  the current and the temporary one, of which bit 14 is zero.
-/
theorem scroll_registers_protocol
    (memory : VideoMemory)
    (timing : FrameTiming)
    (history : List Event) :
    let ppu := (powerOn memory timing).after history
    (ppu.scroll.current.bits.toNat < 2 ^ 15 ∧
      ppu.scroll.temporary.bits.toNat < 2 ^ 15 ∧
      ppu.scroll.fineX < 8) ∧
    (ppu.scroll.latch = .first ↔
      Even (halfWrites history)) ∧
    (∀ first second x y events,
      Performs (positionScript first second x y) events →
        let scroll := (ppu.after events).scroll
        scroll.x.toNat = x.toNat ∧
          scroll.y.toNat = y.toNat ∧
          scroll.temporary.nametable.toNat =
            ((first ++ second).getLast?.map
              (·.toNat % 4)).getD
                ppu.scroll.temporary.nametable.toNat ∧
          (.dot ∉ events →
            scroll.current = ppu.scroll.current)) ∧
    (∀ high low events address,
      Performs [.read .status, .write .address high] events →
        PpuRegister.ofAddress address = .address →
          let scroll :=
            ((ppu.after events).write address low).scroll
          scroll.current = scroll.temporary ∧
            scroll.temporary.bits.toNat =
              256 * (high.toNat % 64) + low.toNat ∧
            scroll.temporary.bits.toNat.testBit 14 =
              false) := by
  intro ppu
  have hFits : ppu.scroll.Fits :=
    fits_after history Scroll.fits_default
  refine ⟨⟨hFits.current, hFits.temporary,
    fineX_lt memory timing history⟩,
    latch_eq_first_iff rfl history, ?_, ?_⟩
  · intro first second x y events hPerforms scroll
    rcases after_of_setsPosition ppu hPerforms
        fun _ => setsPosition_of_mem_positionScript with
      ⟨hSetting, hCurrent⟩
    rw [foldl_positionScript] at hSetting
    refine ⟨?_, ?_, ?_, hCurrent⟩
    · rw [Scroll.toNat_x, hSetting]
      exact Nat.div_add_mod' _ _
    · rw [Scroll.toNat_y, hSetting]
      exact Nat.div_add_mod' _ _
    · exact congrArg Scroll.Setting.nametable hSetting
  · intro high low events address hPerforms hRegister scroll
    rcases writeAddress_twice hFits hPerforms hRegister low with
      ⟨hCurrent, hTemporary⟩
    refine ⟨hCurrent, hTemporary, ?_⟩
    apply Nat.testBit_lt_two_pow
    have hLow : low.toNat < 256 := low.toNat_lt
    rw [hTemporary]
    omega

/-
  After half of an address and a dot, the next half is the
  second one.  A status read forgets it, and positions and
  addresses can be written through mirrored registers.
-/
theorem protocol_after_half_write :
    let start := powerOn
      (.ofPatterns ⟨.replicate _ 0, true⟩ .horizontal)
      VideoStandard.ntsc.timing
    let ppu := start.after [.write 0x2006 0x21, .dot]
    let moved := ppu.after
      [.read 0x2002, .write 0x2000 0x03, .write 0x3FFD 0x7D,
        .dot, .write 0x2008 0x02, .write 0x2005 0x5E]
    let aimed := (ppu.after
      [.read 0x200A, .write 0x2006 0x7F, .dot]).write 0x3FFE
        0x10
    ¬ppu.scroll.latch = .first ∧
      moved.scroll.x.toNat = 0x7D ∧
      moved.scroll.y.toNat = 0x5E ∧
      moved.scroll.temporary.nametable.toNat = 2 ∧
      aimed.scroll.current.bits.toNat = 0x3F10 := by
  intro start ppu moved aimed
  rcases scroll_registers_protocol start.memory start.timing
      [.write 0x2006 0x21, .dot] with
    ⟨-, hLatch, hPosition, hAddress⟩
  have hMoved := hPosition [0x03] [0x02] 0x7D 0x5E
    [.read 0x2002, .write 0x2000 0x03, .write 0x3FFD 0x7D,
      .dot, .write 0x2008 0x02, .write 0x2005 0x5E]
    ⟨rfl, by decide⟩
  have hAimed := hAddress 0x7F 0x10
    [.read 0x200A, .write 0x2006 0x7F, .dot] 0x3FFE
    ⟨rfl, by decide⟩ rfl
  refine ⟨?_, hMoved.1, hMoved.2.1, hMoved.2.2.1, ?_⟩
  · intro hFirst
    exact absurd (hLatch.mp hFirst) (by decide)
  · exact (congrArg (·.bits.toNat) hAimed.1).trans hAimed.2.1

end Ppu

end Famicom
