import Famicom.Proofs.Video.MemoryCells
import Famicom.Proofs.Video.ScrollPorts

/-
  The data port of the picture unit by itself.

  The port depends on little of the unit: on memory, on the
  scroll registers, on two registers and on the buffer.  As
  long as nothing is shown, no dot touches any of it, so a
  script of accesses can be followed on the port alone.

  Key definitions include:
    * `DataPort`
    * `DataPort.perform`
    * `DataPort.transfers`
    * `Ppu.dataPort`
    * `Ppu.transfers`

  Main declarations:
    * `Ppu.dataPort_after_quiet`
    * `Ppu.handle_of_usesDataPort`
    * `Ppu.run_of_usesDataPort`
-/

namespace Famicom

open VideoMemory (decoded place partOf)

------------------------------------------------------------
-- The Port
------------------------------------------------------------

/- A byte that goes through the data port, and its address. -/
inductive Transfer where
  | stored (address : UInt16) (value : UInt8)
  | fetched (address : UInt16) (value : UInt8)
deriving DecidableEq

/- All that the data port depends on. -/
structure DataPort where
  memory : VideoMemory
  scroll : Scroll
  control : PpuControl
  mask : PpuMask
  buffer : UInt8

namespace DataPort

/- The address of the next access. -/
def address (port : DataPort) : UInt16 :=
  port.scroll.current.bits

/- Go on to the next address. -/
def advance (port : DataPort) : DataPort :=
  { port with
    scroll :=
      { port.scroll with
        current :=
          port.scroll.current.increment
            port.control.addressIncrement } }

/- Store a byte. -/
def store
    (port : DataPort)
    (value : UInt8) : DataPort :=
  advance
    { port with
      memory := port.memory.write port.address value }

/- What a fetch returns, and what it leaves in the buffer. -/
def fetched (port : DataPort) : UInt8 × UInt8 :=
  if partOf port.address = .palette then
    (port.memory.read port.address,
      port.memory.read (decoded port.address - 0x1000))
  else
    (port.buffer, port.memory.read port.address)

def fetch (port : DataPort) : DataPort :=
  advance { port with buffer := port.fetched.2 }

end DataPort

/- Accesses that only concern the data port. -/
def RegisterAccess.usesDataPort : RegisterAccess → Bool
  | .read .status => true
  | .read .data => true
  | .write .address _ => true
  | .write .data _ => true
  | _ => false

namespace DataPort

/- The port after such an access. -/
def perform
    (port : DataPort) : RegisterAccess → DataPort
  | .read .status =>
      { port with scroll := port.scroll.resetLatch }
  | .write .address value =>
      { port with scroll := port.scroll.writeAddress value }
  | .write .data value => port.store value
  | .read .data => port.fetch
  | _ => port

theorem mask_perform
    (port : DataPort)
    (access : RegisterAccess) :
    (port.perform access).mask = port.mask := by
  cases access with
  | read register => cases register <;> rfl
  | write register value => cases register <;> rfl

/- The byte that goes through the port, if one does. -/
def transfer?
    (port : DataPort) : RegisterAccess → Option Transfer
  | .write .data value => some (.stored port.address value)
  | .read .data =>
      some (.fetched port.address port.fetched.1)
  | _ => none

/- The bytes of a script in order. -/
def transfers
    (port : DataPort) :
    List RegisterAccess → List Transfer
  | [] => []
  | access :: script =>
      (port.transfer? access).toList ++
        (port.perform access).transfers script

theorem transfers_append
    (port : DataPort)
    (first second : List RegisterAccess) :
    port.transfers (first ++ second) =
      port.transfers first ++
        (first.foldl perform port).transfers second := by
  induction first generalizing port with
  | nil => rfl
  | cons access first ih =>
      simp only [List.cons_append, transfers, ih,
        List.append_assoc, List.foldl_cons]

end DataPort

------------------------------------------------------------
-- Runs of the Port
------------------------------------------------------------

namespace Ppu

variable {ppu : Ppu}

/- The data port of the unit. -/
def dataPort (ppu : Ppu) : DataPort where
  memory := ppu.memory
  scroll := ppu.scroll
  control := ppu.registers.control
  mask := ppu.registers.mask
  buffer := ppu.registers.dataBuffer

/- The byte that an event moves through the port. -/
def transfer? (ppu : Ppu) : Event → Option Transfer
  | .read address =>
      if PpuRegister.ofAddress address = .data then
        some (.fetched ppu.scroll.current.bits
          (ppu.read address).1)
      else
        none
  | .write address value =>
      if PpuRegister.ofAddress address = .data then
        some (.stored ppu.scroll.current.bits value)
      else
        none
  | _ => none

/- The bytes of a run in order. -/
def transfers (ppu : Ppu) : List Event → List Transfer
  | [] => []
  | event :: events =>
      (ppu.transfer? event).toList ++
        (ppu.handle event).transfers events

theorem transfers_append
    (ppu : Ppu)
    (first second : List Event) :
    ppu.transfers (first ++ second) =
      ppu.transfers first ++
        (ppu.after first).transfers second := by
  induction first generalizing ppu with
  | nil => rfl
  | cons event first ih =>
      simp only [List.cons_append, transfers, ih,
        List.append_assoc, after_cons]

theorem transfers_of_quiet
    {events : List Event}
    (hQuiet : AllQuiet events) :
    ppu.transfers events = [] := by
  induction events generalizing ppu with
  | nil => rfl
  | cons event events ih =>
      have hTail : AllQuiet events := fun e hMember =>
        hQuiet e (List.mem_cons_of_mem event hMember)
      have hHead := hQuiet event List.mem_cons_self
      unfold transfers
      rw [ih hTail]
      cases event with
      | dot | acceptNmi | acceptFrame => rfl
      | read _ | write _ _ | writeOam _ | reset =>
          cases hHead

section Idle

variable (hIdle : ppu.registers.mask.rendering = false)

include hIdle

theorem isRendering_of_idle : ppu.isRendering = false := by
  unfold isRendering
  rw [hIdle, Bool.and_false]

/- While nothing is shown, dots do not touch the port. -/
theorem dataPort_tick :
    ppu.tick.2.dataPort = ppu.dataPort := by
  have hKeeps := tick_keeps ppu
  have hScroll : ppu.tick.2.scroll = ppu.scroll := by
    rw [tick_scroll]
    unfold atOutput
    rw [isRendering_of_idle hIdle]
    rfl
  unfold dataPort
  rw [hKeeps.memory, hScroll, hKeeps.control, hKeeps.mask,
    hKeeps.dataBuffer]

theorem dataPort_after_quiet
    {events : List Event}
    (hQuiet : AllQuiet events) :
    (ppu.after events).dataPort = ppu.dataPort := by
  apply after_induction
    (motive := fun later => later.dataPort = ppu.dataPort)
    hQuiet rfl
  · intro later hSame
    have hStill : later.registers.mask.rendering = false :=
      (congrArg (·.mask.rendering) hSame).trans hIdle
    exact (dataPort_tick hStill).trans hSame
  · exact fun _ hSame => hSame
  · exact fun _ hSame => hSame

theorem dataPort_advanceAddress :
    ppu.advanceAddress.dataPort = ppu.dataPort.advance := by
  unfold advanceAddress
  rw [isRendering_of_idle hIdle]
  rfl

theorem dataPort_writeData
    (value : UInt8) :
    (ppu.writeData value).dataPort =
      ppu.dataPort.store value := by
  let written : Ppu :=
    { ppu with
      memory := ppu.memory.write ppu.dataAddress value }
  have hWritten :
      written.dataPort =
        { ppu.dataPort with
          memory :=
            ppu.memory.write ppu.dataPort.address value } :=
    congrArg
      (fun memory => { ppu.dataPort with memory := memory })
      (ppu.memory.write_decoded _ value)
  show written.advanceAddress.dataPort = _
  rw [@dataPort_advanceAddress written hIdle, hWritten]
  rfl

end Idle

/- The last addresses that are decoded are the palette's. -/
theorem paletteStart_le_iff (ppu : Ppu) :
    Hardware.paletteStart ≤ ppu.dataAddress ↔
      partOf ppu.dataPort.address = .palette := by
  have hStart : Hardware.paletteStart.toNat = 0x3F00 := rfl
  have hPlace :
      ppu.dataAddress.toNat = place ppu.dataPort.address :=
    VideoMemory.toNat_decoded _
  rw [UInt16.le_iff_toNat_le, hStart, hPlace]
  unfold partOf
  split_ifs <;> simp <;> omega

theorem readData_fst (ppu : Ppu) :
    ppu.readData.1 = ppu.dataPort.fetched.1 := by
  have hPalette := ppu.paletteStart_le_iff
  unfold readData DataPort.fetched
  dsimp only
  by_cases hPart : partOf ppu.dataPort.address = .palette
  · rw [if_pos hPart, if_pos (hPalette.mpr hPart)]
    exact ppu.memory.read_decoded _
  · rw [if_neg hPart, if_neg (mt hPalette.mp hPart)]
    rfl

/- The buffer takes what is under the palette, or the byte. -/
theorem readData_buffer (ppu : Ppu) :
    ppu.readData.2.registers.dataBuffer =
      ppu.dataPort.fetched.2 := by
  have hPalette := ppu.paletteStart_le_iff
  unfold readData DataPort.fetched
  dsimp only [advanceAddress]
  by_cases hPart : partOf ppu.dataPort.address = .palette
  · rw [if_pos hPart, if_pos (hPalette.mpr hPart)]
    rfl
  · rw [if_neg hPart, if_neg (mt hPalette.mp hPart)]
    exact ppu.memory.read_decoded _

theorem dataPort_readData
    (hIdle : ppu.registers.mask.rendering = false) :
    ppu.readData.2.dataPort = ppu.dataPort.fetch := by
  let buffered : Ppu :=
    { ppu with
      registers :=
        { ppu.registers with
          dataBuffer := ppu.readData.2.registers.dataBuffer } }
  have hBuffered :
      buffered.dataPort =
        { ppu.dataPort with
          buffer := ppu.dataPort.fetched.2 } :=
    congrArg
      (fun buffer => { ppu.dataPort with buffer := buffer })
      ppu.readData_buffer
  show buffered.advanceAddress.dataPort = _
  rw [@dataPort_advanceAddress buffered hIdle, hBuffered]
  rfl

/- One access of a script for the port. -/
theorem handle_of_usesDataPort
    (hIdle : ppu.registers.mask.rendering = false)
    {event : Event}
    {access : RegisterAccess}
    (hAccess : event.access? = some access)
    (hUses : access.usesDataPort = true) :
    (ppu.handle event).dataPort = ppu.dataPort.perform access ∧
      ppu.transfer? event = ppu.dataPort.transfer? access := by
  cases access with
  | read register =>
      rcases Event.eq_read_of_access? hAccess with
        ⟨address, rfl, hRegister⟩
      unfold handle read transfer?
      dsimp only
      rw [hRegister]
      cases register with
      | status => exact ⟨rfl, rfl⟩
      | data =>
          have hRead : ppu.read address = ppu.readData := by
            unfold read
            rw [hRegister]
          refine ⟨dataPort_readData hIdle, ?_⟩
          rw [if_pos rfl, hRead, readData_fst]
          rfl
      | _ => cases hUses
  | write register value =>
      rcases Event.eq_write_of_access? hAccess with
        ⟨address, rfl, hRegister⟩
      unfold handle write transfer?
      dsimp only
      rw [hRegister]
      cases register with
      | address => exact ⟨rfl, rfl⟩
      | data =>
          exact ⟨@dataPort_writeData (ppu.driveBus value)
            hIdle value, rfl⟩
      | _ => cases hUses

/-
  While nothing is shown, a script moves the same bytes and
  leaves the same port behind whatever passes in between.
-/
theorem run_of_usesDataPort
    (hIdle : ppu.registers.mask.rendering = false)
    {script : List RegisterAccess}
    {events : List Event}
    (hPerforms : Performs script events)
    (hUses : ∀ access ∈ script, access.usesDataPort = true) :
    (ppu.after events).dataPort =
        script.foldl DataPort.perform ppu.dataPort ∧
      ppu.transfers events = ppu.dataPort.transfers script := by
  induction script generalizing ppu events with
  | nil =>
      exact ⟨dataPort_after_quiet hIdle hPerforms.allQuiet,
        transfers_of_quiet hPerforms.allQuiet⟩
  | cons access script ih =>
      rcases hPerforms.exists_of_cons with
        ⟨gap, event, later, rfl, hGap, hAccess, hLater⟩
      have hGapPort := dataPort_after_quiet hIdle hGap
      have hGapIdle :
          (ppu.after gap).registers.mask.rendering = false :=
        (congrArg (·.mask.rendering) hGapPort).trans hIdle
      have hHere := handle_of_usesDataPort hGapIdle hAccess
        (hUses access List.mem_cons_self)
      rw [hGapPort] at hHere
      have hNextIdle :
          ((ppu.after gap).handle event).dataPort.mask.rendering =
            false := by
        rw [hHere.1, DataPort.mask_perform]
        exact hIdle
      have hRest := ih hNextIdle hLater fun other hMember =>
        hUses other (List.mem_cons_of_mem access hMember)
      rw [hHere.1] at hRest
      rw [after_append, after_cons, transfers_append,
        transfers_of_quiet hGap]
      unfold transfers DataPort.transfers
      rw [hHere.2, hRest.2]
      exact ⟨hRest.1, rfl⟩

end Ppu

end Famicom
