import Famicom.Proofs.Video.Dot

/-
  The byte on the bus of the picture unit.

  Every write of the processor is kept on the bus, and a
  transfer to sprite memory is not.  What is on the bus has
  no effect on pictures or memories.  It is seen where no
  register can be read, and below the status flags, until the
  next write replaces it.

  Key definitions include:
    * `Ppu.ReadsAlike`
    * `Ppu.Event.drives`

  Main declarations:
    * `Ppu.tick_driveBus`
    * `Ppu.after_driveBus`
    * `Ppu.after_writes`
    * `Ppu.transfer_leaves_openBus`
-/

namespace Famicom

namespace Ppu

variable (ppu : Ppu) (value : UInt8)

------------------------------------------------------------
-- Dots
------------------------------------------------------------

@[simp] theorem driveBus_raster :
    (ppu.driveBus value).raster = ppu.raster := rfl

@[simp] theorem driveBus_timing :
    (ppu.driveBus value).timing = ppu.timing := rfl

@[simp] theorem driveBus_mask :
    (ppu.driveBus value).registers.mask =
      ppu.registers.mask := rfl

@[simp] theorem driveBus_isPrerenderLine :
    (ppu.driveBus value).isPrerenderLine =
      ppu.isPrerenderLine := rfl

@[simp] theorem driveBus_isRendering :
    (ppu.driveBus value).isRendering = ppu.isRendering := rfl

@[simp] theorem driveBus_isPixelDot :
    (ppu.driveBus value).isPixelDot = ppu.isPixelDot := rfl

@[simp] theorem driveBus_layersAt (x : Nat) :
    (ppu.driveBus value).layersAt x = ppu.layersAt x := rfl

/- No phase of a dot looks at the bus. -/
theorem fetchBackground_driveBus :
    (ppu.driveBus value).fetchBackground =
      ppu.fetchBackground.driveBus value := by
  unfold fetchBackground
  rw [driveBus_raster]
  split <;> rfl

theorem evaluateSprites_driveBus :
    (ppu.driveBus value).evaluateSprites =
      ppu.evaluateSprites.driveBus value := by
  have hFound :
      (ppu.driveBus value).spritesFound = ppu.spritesFound :=
    rfl
  unfold evaluateSprites
  dsimp only
  rw [driveBus_isPrerenderLine, hFound]
  split_ifs <;> rfl

theorem updateScroll_driveBus :
    (ppu.driveBus value).updateScroll =
      ppu.updateScroll.driveBus value := by
  unfold updateScroll
  dsimp only
  rw [driveBus_raster, driveBus_isPrerenderLine]
  split_ifs
  · rfl
  · rfl
  · exact evaluateSprites_driveBus
      (ppu.changeAddress
        (·.copyHorizontal ppu.scroll.temporary)) value
  · rfl
  · rfl
  · rfl

theorem atOutput_driveBus :
    (ppu.driveBus value).atOutput =
      ppu.atOutput.driveBus value := by
  unfold atOutput fetch
  dsimp only
  rw [driveBus_isRendering, driveBus_raster]
  split_ifs
  · rw [fetchBackground_driveBus, updateScroll_driveBus]
  · exact updateScroll_driveBus ppu value
  · rfl

/- The pixel is the same one. -/
theorem outputPixel_driveBus :
    (ppu.driveBus value).outputPixel =
      ppu.outputPixel.map id (·.driveBus value) := by
  unfold outputPixel
  dsimp only
  rw [driveBus_mask, driveBus_raster, driveBus_layersAt]
  split_ifs <;> rfl

theorem output_driveBus :
    (ppu.driveBus value).output =
      ppu.output.map id (·.driveBus value) := by
  unfold output
  dsimp only
  rw [driveBus_isPixelDot, outputPixel_driveBus]
  split_ifs <;> rfl

theorem shift_driveBus :
    (ppu.driveBus value).shift =
      ppu.shift.driveBus value := by
  unfold shift
  rw [driveBus_raster]
  split_ifs <;> rfl

theorem updateFlags_driveBus :
    (ppu.driveBus value).updateFlags =
      ppu.updateFlags.driveBus value := by
  unfold updateFlags
  rw [driveBus_raster, driveBus_timing,
    driveBus_isPrerenderLine]
  split_ifs <;> rfl

/- A dot is the same, whatever is on the bus. -/
theorem tick_driveBus :
    (ppu.driveBus value).tick =
      ppu.tick.map id (·.driveBus value) := by
  have hOutput :
      (ppu.driveBus value).atOutput.output =
        ppu.atOutput.output.map id (·.driveBus value) := by
    rw [atOutput_driveBus, output_driveBus]
  have hDrawn :
      (ppu.driveBus value).drawn =
        ppu.drawn.driveBus value := by
    unfold drawn
    rw [driveBus_isRendering, hOutput]
    split_ifs
    · exact shift_driveBus _ value
    · rfl
  refine Prod.ext ?_ ?_
  · rw [tick_fst, hOutput]
    rfl
  · rw [tick_snd, hDrawn, updateFlags_driveBus]
    rfl

------------------------------------------------------------
-- Accesses
------------------------------------------------------------

theorem driveBus_openBus :
    ppu.driveBus ppu.registers.openBus = ppu := rfl

theorem driveBus_eq_iff :
    ppu.driveBus value = ppu ↔
      value = ppu.registers.openBus := by
  constructor
  · intro hSame
    exact congrArg (·.registers.openBus) hSame
  · rintro rfl
    exact ppu.driveBus_openBus

/- Reading does not change what is on the bus. -/
theorem read_driveBus (address : UInt16) :
    ((ppu.driveBus value).read address).2 =
      (ppu.read address).2.driveBus value := by
  unfold read
  cases PpuRegister.ofAddress address with
  | data =>
      show (ppu.driveBus value).readData.2 =
        ppu.readData.2.driveBus value
      unfold readData
      rfl
  | _ => rfl

/-
  An address is read alike in two states: in a register that
  can be read the bytes are the same, in the status the flags
  are, and elsewhere each byte is the one on the bus.
-/
def ReadsAlike
    (address : UInt16)
    (first second : Ppu) : Prop :=
  match PpuRegister.ofAddress address with
  | .oamData | .data =>
      (first.read address).1 = (second.read address).1
  | .status =>
      (first.read address).1 &&& 0xE0 =
        (second.read address).1 &&& 0xE0
  | _ =>
      (first.read address).1 = first.registers.openBus ∧
        (second.read address).1 = second.registers.openBus

/- The flags are above what is on the bus. -/
theorem statusByte_flags (registers : PpuRegisters) :
    registers.statusByte &&& 0xE0 =
      registers.status.toByte &&& 0xE0 := by
  have hBelow : (0x1F : Nat) &&& 0xE0 = 0 := rfl
  apply UInt8.toNat_inj.mp
  unfold PpuRegisters.statusByte
  simp only [UInt8.toNat_and, UInt8.toNat_or,
    UInt8.reduceToNat]
  rw [Nat.and_or_distrib_right, Nat.and_assoc, hBelow,
    Nat.and_zero, Nat.or_zero]

theorem readsAlike_driveBus (address : UInt16) :
    ReadsAlike address (ppu.driveBus value) ppu := by
  unfold ReadsAlike read
  cases PpuRegister.ofAddress address with
  | status =>
      show (ppu.driveBus value).registers.statusByte &&& 0xE0 =
        ppu.registers.statusByte &&& 0xE0
      rw [statusByte_flags, statusByte_flags]
      rfl
  | data =>
      show (ppu.driveBus value).readData.1 = ppu.readData.1
      unfold readData
      rfl
  | oamData => rfl
  | _ => exact ⟨rfl, rfl⟩

/- A write puts its own byte there. -/
theorem write_driveBus
    (address : UInt16)
    (written : UInt8) :
    (ppu.driveBus value).write address written =
      ppu.write address written := rfl

/- Whether an event decides what is on the bus. -/
def Event.drives : Event → Bool
  | write _ _ | reset => true
  | _ => false

theorem handle_of_drives
    {event : Event}
    (hDrives : event.drives = true) :
    (ppu.driveBus value).handle event =
      ppu.handle event := by
  cases event with
  | write address written =>
      exact ppu.write_driveBus value address written
  | reset => rfl
  | _ => cases hDrives

theorem handle_driveBus
    {event : Event}
    (hDrives : event.drives = false) :
    (ppu.driveBus value).handle event =
      (ppu.handle event).driveBus value := by
  cases event with
  | dot => exact congrArg Prod.snd (ppu.tick_driveBus value)
  | read address => exact ppu.read_driveBus value address
  | writeOam _ => rfl
  | acceptNmi => rfl
  | acceptFrame => rfl
  | write _ _ => cases hDrives
  | reset => cases hDrives

/-
  What was on the bus stays the only difference, until an
  event decides what is.
-/
theorem after_driveBus (events : List Event) :
    (ppu.driveBus value).after events =
      if events.any Event.drives then
        ppu.after events
      else
        (ppu.after events).driveBus value := by
  induction events generalizing ppu with
  | nil => rfl
  | cons event events ih =>
      rw [after_cons, after_cons, List.any_cons]
      cases hDrives : event.drives with
      | true => rw [handle_of_drives ppu value hDrives]; rfl
      | false =>
          rw [handle_driveBus ppu value hDrives, ih]
          rfl

------------------------------------------------------------
-- Transfers
------------------------------------------------------------

/- A write is a transferred byte that drives the bus. -/
theorem write_oamData :
    ppu.write 0x2004 value =
      (ppu.writeOam value).driveBus value := rfl

/-
  Bytes that are written leave the unit as a transfer does,
  with the last of them on the bus.
-/
theorem after_writes (bytes : List UInt8) :
    ppu.after (bytes.map (.write 0x2004)) =
      (ppu.after (bytes.map .writeOam)).driveBus
        (bytes.getLast?.getD ppu.registers.openBus) := by
  induction bytes using List.reverseRecOn with
  | nil => rfl
  | append_singleton bytes last ih =>
      rw [List.map_append, after_append, ih, List.map_append,
        after_append, List.getLast?_concat]
      let moved := ppu.after (bytes.map .writeOam)
      show (moved.driveBus _).write 0x2004 last = _
      rw [write_driveBus, write_oamData]
      rfl

/- A transfer leaves on the bus what was there. -/
theorem after_transfer_openBus (bytes : List UInt8) :
    (ppu.after (bytes.map .writeOam)).registers.openBus =
      ppu.registers.openBus := by
  induction bytes generalizing ppu with
  | nil => rfl
  | cons byte bytes ih => exact ih (ppu.writeOam byte)

/-
  Writing bytes to the sprite data register is not the same
  as transferring them: the last byte that is written is on
  the bus, and a transfer leaves there what was there.  After
  any events the two units differ in this at most, and not
  any more once something has been written or the unit has
  been reset.  So they output the same pixels and give the
  same bytes, except for what is read where no register can
  be read, and for the bits below the status flags.
-/
theorem transfer_leaves_openBus
    (ppu : Ppu)
    (bytes : List UInt8)
    (events : List Event) :
    let last := bytes.getLast?.getD ppu.registers.openBus
    let moved := ppu.after (bytes.map .writeOam)
    let written := ppu.after (bytes.map (.write 0x2004))
    let later := moved.after events
    let other := written.after events
    written = moved.driveBus last ∧
      (written = moved ↔ last = ppu.registers.openBus) ∧
      (if events.any Event.drives then
        other = later
      else
        other = later.driveBus last) ∧
      other.tick.1 = later.tick.1 ∧
      ∀ address,
        ReadsAlike address other later := by
  intro last moved written later other
  have hWritten : written = moved.driveBus last :=
    ppu.after_writes bytes
  have hBus : moved.registers.openBus = ppu.registers.openBus :=
    ppu.after_transfer_openBus bytes
  have hAfter :
      other =
        if events.any Event.drives then
          later
        else
          later.driveBus last := by
    show written.after events = _
    rw [hWritten]
    exact moved.after_driveBus last events
  have hOther : ∃ byte, other = later.driveBus byte := by
    rw [hAfter]
    split_ifs
    · exact ⟨_, later.driveBus_openBus.symm⟩
    · exact ⟨last, rfl⟩
  refine ⟨hWritten, ?_, ?_, ?_, ?_⟩
  · rw [hWritten, driveBus_eq_iff, hBus]
  · rw [hAfter]
    split_ifs <;> rfl
  · rcases hOther with ⟨byte, hByte⟩
    rw [hByte, tick_driveBus]
    rfl
  · intro address
    rcases hOther with ⟨byte, hByte⟩
    rw [hByte]
    exact later.readsAlike_driveBus byte address

/- A unit whose memories are full of zeros. -/
def clearStart : Ppu :=
  powerOn
    (.ofPatterns ⟨Vector.replicate _ 0, true⟩ .horizontal)
    VideoStandard.ntsc.timing

/-
  After a byte has been transferred at power-on, the control
  register reads as zero.  If the same byte is written it
  reads as that byte.
-/
theorem openBus_tells_transfer_from_write :
    let moved := clearStart.after [.writeOam 0x42]
    let written := clearStart.after [.write 0x2004 0x42]
    moved ≠ written ∧
      (moved.read 0x2000).1 = 0x00 ∧
      (written.read 0x2000).1 = 0x42 := by
  intro moved written
  have hMoved : (moved.read 0x2000).1 = 0x00 := rfl
  have hWritten : (written.read 0x2000).1 = 0x42 := rfl
  refine ⟨?_, hMoved, hWritten⟩
  intro hSame
  rw [hSame, hWritten] at hMoved
  cases hMoved

end Ppu

end Famicom
