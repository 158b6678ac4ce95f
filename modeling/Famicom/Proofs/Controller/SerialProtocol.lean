import Famicom.Proofs.Controller.Events
import Famicom.Proofs.Histories

/-
  The serial protocol of the pads.

  The falling edge of the strobe line latches the buttons, and
  every read until the line rises again takes the next bit of
  what has been latched.  Ones move in behind it, so that they
  are all there is to read after eight bits.

  Key definitions include:
    * `Controller.refill`
    * `Controller.serialBit`
    * `Pads.Event.strobed?`
    * `Pads.Event.reads`

  Main declarations:
    * `Controller.bit_refill`
    * `Controller.run_low`
    * `Pads.serial_protocol`
-/

namespace Famicom

variable {χ : Type} [Channel χ]

------------------------------------------------------------
-- The Shift Register
------------------------------------------------------------

namespace Controller

/- Move a register up by one place, and a one in behind it. -/
def refill (register : UInt8) : UInt8 :=
  (register <<< 1) ||| 1

/- What a read finds after some reads of latched buttons. -/
def serialBit
    (buttons : Buttons)
    (reads : Nat) : UInt8 :=
  if reads < 8 then
    Bits.bit buttons (7 - .ofNat reads)
  else
    1

theorem toNat_refill (register : UInt8) :
    (refill register).toNat =
      (2 * register.toNat + 1) % 256 := by
  have hMoved :
      (register <<< 1).toNat =
        2 ^ 1 * (register.toNat % 128) := by
    simp only [UInt8.toNat_shiftLeft, UInt8.reduceToNat,
      Nat.reduceMod, Nat.shiftLeft_eq]
    omega
  unfold refill
  rw [UInt8.toNat_or, hMoved]
  refine (Nat.two_pow_add_eq_or_of_lt (b := 1)
    (by decide) _).symm.trans ?_
  omega

/- After some moves the places below are all ones. -/
theorem toNat_refill_iterate
    (register : UInt8)
    (count : Nat) :
    (refill^[count] register).toNat =
      (2 ^ count * (register.toNat + 1) - 1) % 256 := by
  induction count with
  | zero => simp
  | succ count ih =>
      have hPositive :
          0 < 2 ^ count * (register.toNat + 1) := by
        positivity
      rw [Function.iterate_succ_apply', toNat_refill, ih,
        Nat.pow_succ', Nat.mul_assoc]
      omega

/- The bits of a register leave it from the highest one on. -/
theorem bit_refill
    (buttons : Buttons)
    (reads : Nat) :
    Bits.bit (refill^[reads] buttons) 7 =
      serialBit buttons reads := by
  have hButtons : buttons.toNat < 256 := buttons.toNat_lt
  have hTop :
      (Bits.bit (refill^[reads] buttons) 7).toNat =
        (2 ^ reads * (buttons.toNat + 1) - 1) % 256 /
          128 % 2 := by
    rw [← toNat_refill_iterate]
    exact Bits.toNat_bit _ 7 (by decide)
  apply UInt8.toNat_inj.mp
  unfold serialBit
  split
  next hFew =>
      have hPlace :
          (7 - UInt8.ofNat reads).toNat = 7 - reads := by
        interval_cases reads <;> rfl
      rw [hTop, Bits.toNat_bit _ _ (by omega), hPlace]
      unfold bitAt
      interval_cases reads <;> omega
  next hMany =>
      -- Eight ones have moved in.
      have hPower : 2 ^ reads = 256 * 2 ^ (reads - 8) := by
        rw [← Nat.pow_add 2 8, Nat.add_sub_cancel' (by omega)]
      have hPositive :
          0 < 2 ^ (reads - 8) * (buttons.toNat + 1) := by
        positivity
      rw [hTop, hPower, Nat.mul_assoc]
      show _ = 1
      omega

------------------------------------------------------------
-- One Pad
------------------------------------------------------------

/- What an event drives the strobe line to, if it does. -/
def Event.strobed? : Event χ → Option Bool
  | .strobe high => some high
  | _ => none

/- Whether an event reads the pad. -/
def Event.isRead : Event χ → Bool
  | .read => true
  | _ => false

variable {pad : Controller χ}

/- Only the strobe line itself moves the strobe line. -/
theorem strobeHigh_handle (event : Event χ) :
    (pad.handle event).strobeHigh =
      event.strobed?.getD pad.strobeHigh := by
  cases event with
  | strobe high => rfl
  | read =>
      show pad.readBit.2.strobeHigh = pad.strobeHigh
      unfold readBit
      split
      · exact strobeHigh_poll
      · rfl
  | host event => exact (handleHost_serial event).1

/-
  While the line is low, each read moves the register by one
  place, and nothing else touches it.
-/
theorem handle_low
    {event : Event χ}
    (hLow : pad.strobeHigh = false)
    (hStays : event.strobed? ≠ some true) :
    (pad.handle event).strobeHigh = false ∧
      (pad.handle event).shifter =
        refill^[if event.isRead then 1 else 0]
          pad.shifter := by
  cases event with
  | strobe high =>
      cases high with
      | true => exact absurd rfl hStays
      | false =>
          unfold handle strobe
          rw [hLow]
          exact ⟨rfl, rfl⟩
  | read =>
      show pad.readBit.2.strobeHigh = false ∧
        pad.readBit.2.shifter = refill pad.shifter
      unfold readBit
      rw [if_neg (by simp [hLow])]
      exact ⟨hLow, rfl⟩
  | host event =>
      rcases pad.handleHost_serial event with
        ⟨hLine, hRegister⟩
      exact ⟨hLine.trans hLow, hRegister⟩

/- After a run with a low line the register has moved. -/
theorem run_low
    {events : List (Event χ)}
    (hLow : pad.strobeHigh = false)
    (hStays : ∀ event ∈ events,
      event.strobed? ≠ some true) :
    (pad.run events).strobeHigh = false ∧
      (pad.run events).shifter =
        refill^[events.countP (·.isRead)] pad.shifter := by
  induction events generalizing pad with
  | nil => exact ⟨hLow, rfl⟩
  | cons event events ih =>
      rw [List.forall_mem_cons] at hStays
      rcases handle_low hLow hStays.1 with ⟨hLine, hMoved⟩
      rcases ih hLine hStays.2 with ⟨hEnd, hRegister⟩
      refine ⟨hEnd, ?_⟩
      rw [run_cons, hRegister, hMoved,
        ← Function.iterate_add_apply, List.countP_cons]

/- The falling edge latches what has been polled. -/
theorem strobe_falls
    (hHigh : pad.strobeHigh = true) :
    (pad.strobe false).strobeHigh = false ∧
      (pad.strobe false).shifter = pad.poll.buttons := by
  unfold strobe
  rw [hHigh]
  exact ⟨rfl, rfl⟩

/- A read while the line is high only polls. -/
theorem readBit_of_high
    (hHigh : pad.strobeHigh = true) :
    pad.readBit = (Bits.bit pad.poll.buttons 7, pad.poll) := by
  unfold readBit
  rw [if_pos hHigh]

theorem readBit_of_low
    (hLow : pad.strobeHigh = false) :
    pad.readBit.1 = Bits.bit pad.shifter 7 := by
  unfold readBit
  rw [if_neg (by simp [hLow])]

end Controller

------------------------------------------------------------
-- Both Pads
------------------------------------------------------------

namespace Pads

/- What an event drives the strobe line to, if it does. -/
def Event.strobed? : Event χ → Option Bool
  | .write address value =>
      if isFirst address then
        some (Bits.isSet value 0)
      else
        none
  | _ => none

/- Whether an event reads the first or the second pad. -/
def Event.reads
    (first : Bool) : Event χ → Bool
  | .read address => isFirst address == first
  | _ => false

variable {pads : Pads χ}

omit [Channel χ] in
theorem strobed?_seenBy
    (first : Bool)
    (event : Event χ) :
    (event.seenBy first).bind (·.strobed?) =
      event.strobed? := by
  cases event <;>
  · simp only [Event.seenBy, Event.strobed?]
    split <;> rfl

omit [Channel χ] in
theorem isRead_seenBy
    (first : Bool)
    (event : Event χ) :
    ((event.seenBy first).map (·.isRead)).getD false =
      event.reads first := by
  cases event with
  | read address =>
      simp only [Event.seenBy, Event.reads]
      cases first <;> cases isFirst address <;> rfl
  | write address value | host other event =>
      simp only [Event.seenBy, Event.reads]
      split <;> rfl

theorem strobeHigh_handle
    (first : Bool)
    (event : Event χ) :
    ((pads.handle event).pad first).strobeHigh =
      event.strobed?.getD (pads.pad first).strobeHigh := by
  rw [pad_handle, ← strobed?_seenBy first]
  cases event.seenBy first with
  | none => rfl
  | some seen => exact Controller.strobeHigh_handle seen

/-
  From the falling edge on, the line stays low and the reads
  of the pad move what has been latched.
-/
theorem run_of_falling
    {first : Bool}
    {edge : Event χ}
    {events : List (Event χ)}
    (hHigh : (pads.pad first).strobeHigh = true)
    (hEdge : edge.strobed? = some false)
    (hStays : ∀ event ∈ events,
      event.strobed? ≠ some true) :
    let later := (pads.run (edge :: events)).pad first
    later.strobeHigh = false ∧
      later.shifter =
        Controller.refill^[events.countP (·.reads first)]
          (pads.pad first).poll.buttons := by
  intro later
  let seen := events.filterMap (·.seenBy first)
  let latched := (pads.pad first).strobe false
  have hSeen : edge.seenBy first = some (.strobe false) := by
    have hSame := strobed?_seenBy first edge
    rw [hEdge] at hSame
    rcases Option.bind_eq_some_iff.mp hSame with
      ⟨event, hEvent, hFalls⟩
    cases event with
    | strobe high =>
        cases hFalls
        exact hEvent
    | read | host _ => cases hFalls
  have hLater : later = latched.run seen := by
    show (pads.run (edge :: events)).pad first = _
    rw [pad_run, List.filterMap_cons, hSeen]
    rfl
  have hQuiet : ∀ event ∈ seen,
      event.strobed? ≠ some true := by
    intro event hEvent
    rcases List.mem_filterMap.mp hEvent with
      ⟨whole, hWhole, hPart⟩
    have hSame := strobed?_seenBy first whole
    rw [hPart] at hSame
    rw [show event.strobed? = whole.strobed? from hSame]
    exact hStays whole hWhole
  have hReads :
      seen.countP (·.isRead) =
        events.countP (·.reads first) := by
    rw [List.countP_filterMap]
    simp only [isRead_seenBy]
  rcases Controller.strobe_falls hHigh with
    ⟨hLow, hLatched⟩
  rcases Controller.run_low hLow hQuiet with
    ⟨hLine, hRegister⟩
  rw [hLater, ← hReads, ← hLatched]
  exact ⟨hLine, hRegister⟩

/-
  The protocol of each pad.  The strobe line of a pad is bit 0
  of what was last written to the first address.  From a write
  on that clears it, a read after a number of others gives the
  next bit of the buttons that were polled then, whatever else
  goes on as long as nothing sets the line again.  While it is
  set, a read gives the button that is A now, and leaves the
  register alone.
-/
theorem serial_protocol
    (pads : Pads χ)
    (first : Bool) :
    (∀ events : List (Event χ),
      ((pads.run events).pad first).strobeHigh =
        (lastLeft? Event.strobed? events).getD
          (pads.pad first).strobeHigh) ∧
    (∀ address value events address',
      (pads.pad first).strobeHigh = true →
      isFirst address = true →
      Bits.isSet value 0 = false →
      (∀ event ∈ events, event.strobed? ≠ some true) →
      isFirst address' = first →
        ((pads.run (.write address value :: events)).read
            address').1 =
          0x40 + Controller.serialBit
            (pads.pad first).poll.buttons
            (events.countP (·.reads first))) ∧
    (∀ address,
      (pads.pad first).strobeHigh = true →
      isFirst address = first →
        let after := (pads.read address).2.pad first
        (pads.read address).1 =
            0x40 + Bits.bit after.buttons 7 ∧
          after.buttons = (pads.pad first).poll.buttons ∧
          after.shifter = (pads.pad first).shifter) := by
  refine ⟨?_, ?_, ?_⟩
  · intro events
    exact (shows_foldl
      (fun pads : Pads χ => (pads.pad first).strobeHigh)
      (fun _ => True) (fun _ _ _ => trivial)
      (fun pads event _ => strobeHigh_handle first event)
      trivial events).2
  · rintro address value events address' hHigh hFirst hClear
      hStays rfl
    have hEdge :
        (Event.write (χ := χ) address value).strobed? =
          some false := by
      simp only [Event.strobed?, hFirst, hClear, if_true]
    rcases run_of_falling hHigh hEdge hStays with
      ⟨hLow, hRegister⟩
    rw [read_eq, Controller.readBit_of_low hLow, hRegister,
      Controller.bit_refill]
  · rintro address hHigh rfl
    have hRead := Controller.readBit_of_high hHigh
    have hSeen :
        (Event.read (χ := χ) address).seenBy
          (isFirst address) = some .read :=
      if_pos rfl
    have hPolled :
        (pads.read address).2.pad (isFirst address) =
          (pads.pad (isFirst address)).poll := by
      refine (pad_handle _ (.read address)).trans ?_
      rw [hSeen]
      exact congrArg Prod.snd hRead
    have hValue : (pads.read address).1 = _ := read_eq address
    rw [hRead] at hValue
    rw [hPolled]
    exact ⟨hValue, rfl, Controller.shifter_poll⟩

/- The two addresses as programs know them. -/
example : isFirst 0x4016 = true ∧ isFirst 0x4017 = false := by
  decide

/-
  A and Start were down at the edge.  Later changes and the
  other pad do not keep the fourth bit from being read.
-/
theorem fourth_bit_is_start :
    let pad : Controller :=
      { buttons := Buttons.a ||| Buttons.start
        strobeHigh := true }
    let pads : Pads := { one := pad }
    let events : List (Event Feed) :=
      [.read 0x4016, .host true (.setButtons 0),
        .read 0x4017, .write 0x4017 1, .read 0x4016,
        .host false (.attach {}), .write 0x4016 0,
        .read 0x4016]
    (pads.pad true).strobeHigh = true ∧
      (∀ event ∈ events, event.strobed? ≠ some true) ∧
      ((pads.run (.write 0x4016 0 :: events)).read
        0x4016).1 = 0x41 := by
  intro pad pads events
  have hStays :
      ∀ event ∈ events, event.strobed? ≠ some true := by
    simp only [events, List.forall_mem_cons, Event.strobed?]
    decide
  have hRead := (pads.serial_protocol true).2.1 0x4016 0
    events 0x4016 rfl rfl rfl hStays rfl
  have hCount : events.countP (·.reads true) = 3 := by
    decide
  have hBit :
      0x40 + Controller.serialBit
        (Buttons.a ||| Buttons.start) 3 = 0x41 := by
    decide
  rw [hCount] at hRead
  exact ⟨rfl, hStays, hRead.trans hBit⟩

end Pads

end Famicom
