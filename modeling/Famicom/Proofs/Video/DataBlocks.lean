import Famicom.Proofs.Video.DataPort
import Famicom.Proofs.Video.MemoryAliases

/-
  Blocks of bytes through the data port.

  A block that is stored from an address on is fetched again
  from there, one read behind, as long as its addresses lie
  before the palette and no two of them share a cell.

  Key definitions include:
    * `strided`
    * `VideoMemory.fill`
    * `DataPort.roundTrip`
    * `stepsBehind`

  Main declarations:
    * `VideoMemory.Suits.read_fill`
    * `DataPort.store_block`
    * `DataPort.fetch_block`
    * `DataPort.transfers_roundTrip`
    * `Ppu.data_port_round_trip`
-/

namespace Famicom

open VideoMemory (Aliases decoded place partOf shown)

------------------------------------------------------------
-- Blocks
------------------------------------------------------------

/- The addresses that are some steps behind a first one. -/
def strided
    (base stride count : Nat) : UInt16 :=
  .ofNat ((base + count * stride) % 2 ^ 15)

theorem toNat_strided (base stride count : Nat) :
    (strided base stride count).toNat =
      (base + count * stride) % 2 ^ 15 := by
  unfold strided
  rw [UInt16.toNat_ofNat']
  omega

/- The first of some values and the ones behind it. -/
theorem map_range_succ
    {α : Type}
    (value : Nat → α)
    (count : Nat) :
    (List.range (count + 1)).map value =
      value 0 ::
        (List.range count).map fun i => value (i + 1) := by
  rw [List.range_succ_eq_map, List.map_cons, List.map_map]
  rfl

namespace VideoMemory

/- Store bytes at a sequence of addresses. -/
def fill
    (memory : VideoMemory)
    (cursor : Nat → UInt16) : List UInt8 → VideoMemory
  | [] => memory
  | value :: bytes =>
      (memory.write (cursor 0) value).fill
        (fun count => cursor (count + 1)) bytes

namespace Suits

variable {image : CartridgeImage}
variable {memory : VideoMemory}
variable {cursor : Nat → UInt16}
variable {bytes : List UInt8}

/- Addresses apart from all of them keep their bytes. -/
theorem read_fill_of_apart
    (hSuits : memory.Suits image)
    {address : UInt16}
    (hApart : ∀ i < bytes.length,
      ¬Aliases image.mirroring (cursor i) address) :
    (memory.fill cursor bytes).read address =
      memory.read address := by
  induction bytes generalizing memory cursor with
  | nil => rfl
  | cons value bytes ih =>
      have hFirst := hApart 0 (Nat.succ_pos _)
      unfold fill
      rw [ih (hSuits.write _ _) fun i hIndex =>
          hApart (i + 1) (Nat.succ_lt_succ hIndex),
        hSuits.read_write,
        if_neg fun hBoth => hFirst hBoth.2]

/- Addresses apart from each other hold the bytes. -/
theorem read_fill
    (hSuits : memory.Suits image)
    (hOpen : ∀ i < bytes.length, ¬image.IsReadOnly (cursor i))
    (hApart : ∀ i j, i < j → j < bytes.length →
      ¬Aliases image.mirroring (cursor i) (cursor j))
    {i : Nat}
    (hIndex : i < bytes.length) :
    (memory.fill cursor bytes).read (cursor i) =
      shown (cursor i) bytes[i] := by
  induction bytes generalizing memory cursor i with
  | nil => cases hIndex
  | cons value bytes ih =>
      have hNext := hSuits.write (cursor 0) value
      unfold fill
      cases i with
      | zero =>
          rw [hNext.read_fill_of_apart, hSuits.read_write,
            if_pos ⟨hOpen 0 hIndex, rfl⟩]
          · rfl
          · intro j hLater hAliases
            exact hApart 0 (j + 1) (Nat.succ_pos j)
              (Nat.succ_lt_succ hLater) hAliases.symm
      | succ i =>
          exact ih hNext
            (fun j hLater => hOpen (j + 1)
              (Nat.succ_lt_succ hLater))
            (fun j k hOrder hLater =>
              hApart (j + 1) (k + 1)
                (Nat.succ_lt_succ hOrder)
                (Nat.succ_lt_succ hLater))
            (Nat.lt_of_succ_lt_succ hIndex)

end Suits

end VideoMemory

namespace DataPort

variable {port : DataPort}

/- The address of a later access. -/
def cursor (port : DataPort) : Nat → UInt16 :=
  strided port.address.toNat port.control.addressIncrement.toNat

theorem fits_cursor
    (port : DataPort)
    (count : Nat) :
    (ScrollAddress.mk (port.cursor count)).Fits := by
  show (strided _ _ _).toNat < 2 ^ 15
  rw [toNat_strided]
  exact Nat.mod_lt _ (Nat.two_pow_pos 15)

theorem cursor_zero (hFits : port.scroll.current.Fits) :
    port.cursor 0 = port.address := by
  apply UInt16.toNat_inj.mp
  unfold cursor
  rw [toNat_strided, Nat.zero_mul, Nat.add_zero]
  exact Nat.mod_eq_of_lt hFits

theorem cursor_advance (port : DataPort) (count : Nat) :
    port.advance.cursor count = port.cursor (count + 1) := by
  have hMoved :
      port.advance.address.toNat =
        (port.address +
          port.control.addressIncrement).toNat % 2 ^ 15 :=
    ScrollAddress.toNat_ofWord _
  apply UInt16.toNat_inj.mp
  unfold cursor
  rw [toNat_strided, toNat_strided, hMoved, UInt16.toNat_add,
    Nat.succ_mul]
  show (_ + count * port.control.addressIncrement.toNat) % _ = _
  omega

/- The accesses that store a block. -/
def stores (bytes : List UInt8) : List RegisterAccess :=
  bytes.map (.write .data)

/- The accesses that fetch a number of bytes. -/
def fetches (count : Nat) : List RegisterAccess :=
  .replicate count (.read .data)

/- The rest of a block starts one address further on. -/
theorem cursor_store
    (port : DataPort)
    (value : UInt8) :
    (port.store value).cursor =
      fun count => port.cursor (count + 1) := by
  funext count
  exact cursor_advance
    { port with
      memory := port.memory.write port.address value } count

theorem cursor_fetch (port : DataPort) :
    port.fetch.cursor =
      fun count => port.cursor (count + 1) := by
  funext count
  exact cursor_advance
    { port with buffer := port.fetched.2 } count

/- The port after a block has been stored. -/
theorem foldl_stores
    (hFits : port.scroll.current.Fits)
    (bytes : List UInt8) :
    (stores bytes).foldl perform port =
      { port with
        memory := port.memory.fill port.cursor bytes
        scroll :=
          { port.scroll with
            current := ⟨port.cursor bytes.length⟩ } } := by
  induction bytes generalizing port with
  | nil =>
      show port = _
      rw [List.length_nil, cursor_zero hFits]
      rfl
  | cons value bytes ih =>
      have hFill :
          port.memory.fill port.cursor (value :: bytes) =
            (port.memory.write port.address value).fill
              (fun count => port.cursor (count + 1)) bytes := by
        rw [← cursor_zero hFits]
        rfl
      show (stores bytes).foldl perform (port.store value) = _
      rw [ih (ScrollAddress.fits_ofWord _), cursor_store, hFill]
      rfl

theorem transfers_stores
    (hFits : port.scroll.current.Fits)
    (bytes : List UInt8) :
    port.transfers (stores bytes) =
      List.zipWith .stored
        ((List.range bytes.length).map port.cursor) bytes := by
  induction bytes generalizing port with
  | nil => rfl
  | cons value bytes ih =>
      have hRest :=
        @ih (port.store value) (ScrollAddress.fits_ofWord _)
      show .stored port.address value ::
        (port.store value).transfers (stores bytes) = _
      rw [hRest, cursor_store, List.length_cons,
        map_range_succ, List.zipWith_cons_cons,
        cursor_zero hFits]

/- Before the palette, bytes go through the buffer. -/
theorem fetched_eq
    (hFits : port.scroll.current.Fits)
    (hPart : partOf (port.cursor 0) ≠ .palette) :
    port.fetched =
      (port.buffer, port.memory.read (port.cursor 0)) := by
  rw [cursor_zero hFits] at hPart ⊢
  exact if_neg hPart

/- What comes out, one byte behind what is in memory. -/
theorem transfers_fetches
    (hFits : port.scroll.current.Fits)
    {count : Nat}
    (hParts : ∀ i ≤ count, partOf (port.cursor i) ≠ .palette) :
    port.transfers (fetches (count + 1)) =
      List.zipWith .fetched
        ((List.range (count + 1)).map port.cursor)
        (port.buffer ::
          (List.range count).map fun i =>
            port.memory.read (port.cursor i)) := by
  induction count generalizing port with
  | zero =>
      have hFetched :=
        fetched_eq hFits (hParts 0 (Nat.le_refl 0))
      show [Transfer.fetched port.address port.fetched.1] = _
      rw [hFetched, ← cursor_zero hFits]
      rfl
  | succ count ih =>
      have hFetched :=
        fetched_eq hFits (hParts 0 (Nat.zero_le _))
      have hBuffer :
          port.fetch.buffer =
            port.memory.read (port.cursor 0) :=
        congrArg Prod.snd hFetched
      have hRest := @ih port.fetch
        (ScrollAddress.fits_ofWord _) (by
          intro i hIndex
          rw [cursor_fetch]
          exact hParts (i + 1) (Nat.succ_le_succ hIndex))
      show .fetched port.address port.fetched.1 ::
        port.fetch.transfers (fetches (count + 1)) = _
      rw [hRest, hFetched, hBuffer, cursor_fetch,
        ← cursor_zero hFits, map_range_succ port.cursor,
        map_range_succ fun i => port.memory.read (port.cursor i)]
      rfl

/- The address that fetches leave behind. -/
theorem address_foldl_fetches
    (hFits : port.scroll.current.Fits)
    (count : Nat) :
    ((fetches count).foldl perform port).address =
      port.cursor count := by
  induction count generalizing port with
  | zero => exact (cursor_zero hFits).symm
  | succ count ih =>
      show ((fetches count).foldl perform port.fetch).address = _
      rw [ih (ScrollAddress.fits_ofWord _), cursor_fetch]

/- The accesses that set an address. -/
def aim (start : UInt16) : List RegisterAccess :=
  [.write .address (Bits.highByte start),
    .write .address (Bits.lowByte start)]

/- They start a block at the bits of it that are decoded. -/
theorem foldl_aim
    (hFits : port.scroll.Fits)
    (hLatch : port.scroll.latch = .first)
    (start : UInt16) :
    ∃ scroll : Scroll,
      (aim start).foldl perform port =
          { port with scroll := scroll } ∧
        cursor { port with scroll := scroll } =
          strided (place start)
            port.control.addressIncrement.toNat ∧
        scroll.latch = .first ∧
        scroll.Fits := by
  let half := port.scroll.writeAddress (Bits.highByte start)
  have hHalfFits : half.Fits := hFits.writeAddress _
  have hHalfLatch : half.latch = .second :=
    (Ppu.latch_writeAddress _ _).trans
      (congrArg WriteLatch.flip hLatch)
  have hHalf :=
    Scroll.toNat_writeAddress_first hLatch (Bits.highByte start)
  have hWhole := Scroll.writeAddress_second hHalfLatch
    hHalfFits.temporary (Bits.lowByte start)
  have hStart :
      (half.writeAddress (Bits.lowByte start)).current.bits.toNat =
        place start := by
    have hBound := start.toNat_lt
    rw [hWhole.1, hWhole.2, hHalf, Bits.toNat_highByte,
      Bits.toNat_lowByte]
    unfold place
    omega
  refine ⟨half.writeAddress (Bits.lowByte start), rfl, ?_, ?_,
    hHalfFits.writeAddress _⟩
  · rw [← hStart]
    rfl
  · exact (Ppu.latch_writeAddress _ _).trans
      (congrArg WriteLatch.flip hHalfLatch)

/- No byte goes through the port while it is aimed. -/
theorem transfers_aim_append
    (port : DataPort)
    (start : UInt16)
    (script : List RegisterAccess) :
    port.transfers (aim start ++ script) =
      ((aim start).foldl perform port).transfers script :=
  rfl

section Block

variable (port)
variable {start : UInt16}
variable {cursor : Nat → UInt16}
variable (hFits : port.scroll.Fits)
variable (hLatch : port.scroll.latch = .first)
variable
  (hCursor :
    cursor = strided (place start)
      port.control.addressIncrement.toNat)

include hFits hLatch hCursor

/- Store a block from an address on. -/
theorem store_block (bytes : List UInt8) :
    port.transfers (aim start ++ stores bytes) =
        List.zipWith .stored
          ((List.range bytes.length).map cursor) bytes ∧
      ∃ scroll : Scroll,
        (aim start ++ stores bytes).foldl perform port =
            { port with
              memory := port.memory.fill cursor bytes
              scroll := scroll } ∧
          scroll.latch = .first ∧
          scroll.Fits := by
  rcases foldl_aim hFits hLatch start with
    ⟨there, hAim, hThere, hFirst, hThereFits⟩
  rw [← hCursor] at hThere
  rw [transfers_aim_append, List.foldl_append, hAim,
    transfers_stores hThereFits.current,
    foldl_stores hThereFits.current, hThere]
  refine ⟨rfl, _, rfl, hFirst, ?_, hThereFits.temporary⟩
  rw [← hThere]
  exact fits_cursor _ _

/- Fetch a block from an address on. -/
theorem fetch_block
    {count : Nat}
    (hParts : ∀ i ≤ count, partOf (cursor i) ≠ .palette) :
    port.transfers (aim start ++ fetches (count + 1)) =
        List.zipWith .fetched
          ((List.range (count + 1)).map cursor)
          (port.buffer ::
            (List.range count).map fun i =>
              port.memory.read (cursor i)) ∧
      ((aim start ++ fetches (count + 1)).foldl perform
        port).address = cursor (count + 1) := by
  rcases foldl_aim hFits hLatch start with
    ⟨there, hAim, hThere, -, hThereFits⟩
  rw [← hCursor] at hThere
  rw [transfers_aim_append, List.foldl_append, hAim,
    address_foldl_fetches hThereFits.current,
    transfers_fetches hThereFits.current (by
      rw [hThere]
      exact hParts),
    hThere]
  exact ⟨rfl, rfl⟩

end Block

/-
  The script that stores a block and fetches it again.  The
  first byte that is fetched is not part of the block.
-/
def roundTrip
    (start : UInt16)
    (bytes : List UInt8) : List RegisterAccess :=
  .read .status ::
    (aim start ++ stores bytes) ++
      (aim start ++ fetches (bytes.length + 1))

theorem usesDataPort_of_mem_roundTrip
    {start : UInt16}
    {bytes : List UInt8}
    {access : RegisterAccess}
    (hMember : access ∈ roundTrip start bytes) :
    access.usesDataPort = true := by
  simp only [roundTrip, aim, stores, fetches,
    List.cons_append, List.nil_append, List.mem_cons,
    List.mem_append, List.mem_map,
    List.mem_replicate] at hMember
  rcases hMember with rfl | rfl | rfl | ⟨_, -, rfl⟩ | rfl |
    rfl | ⟨-, rfl⟩ <;> rfl

variable {image : CartridgeImage}

/- What is read where a block was stored. -/
theorem reads_of_fill
    (hSuits : port.memory.Suits image)
    (hRam : image.graphics.isRom = false)
    {cursor : Nat → UInt16}
    {bytes : List UInt8}
    (hParts : ∀ i < bytes.length,
      partOf (cursor i) ≠ .palette)
    (hApart : ∀ i j, i < j → j < bytes.length →
      ¬Aliases image.mirroring (cursor i) (cursor j)) :
    (List.range bytes.length).map
        (fun i => (port.memory.fill cursor bytes).read
          (cursor i)) = bytes := by
  have hOpen (address : UInt16) :
      ¬image.IsReadOnly address := by
    rintro ⟨-, hRom⟩
    rw [hRam] at hRom
    cases hRom
  apply List.ext_getElem
  · simp
  · intro i _ hIndex
    rw [List.getElem_map, List.getElem_range,
      hSuits.read_fill (fun j _ => hOpen (cursor j)) hApart
        hIndex,
      VideoMemory.shown_of_ne_palette (hParts i hIndex)]

/- What goes through the port on the way there and back. -/
theorem transfers_roundTrip
    (port : DataPort)
    (hSuits : port.memory.Suits image)
    (hRam : image.graphics.isRom = false)
    (hFits : port.scroll.Fits)
    {start : UInt16}
    {bytes : List UInt8}
    {cursor : Nat → UInt16}
    (hCursor :
      cursor = strided (place start)
        port.control.addressIncrement.toNat)
    (hParts : ∀ i ≤ bytes.length,
      partOf (cursor i) ≠ .palette)
    (hApart : ∀ i j, i < j → j < bytes.length →
      ¬Aliases image.mirroring (cursor i) (cursor j)) :
    port.transfers (roundTrip start bytes) =
        List.zipWith .stored
            ((List.range bytes.length).map cursor) bytes ++
          List.zipWith .fetched
            ((List.range (bytes.length + 1)).map cursor)
            (port.buffer :: bytes) ∧
      ((roundTrip start bytes).foldl perform port).address =
        cursor (bytes.length + 1) := by
  let fresh : DataPort :=
    { port with scroll := port.scroll.resetLatch }
  have hFresh : fresh.scroll.Fits :=
    ⟨hFits.current, hFits.temporary⟩
  rcases store_block fresh hFresh rfl hCursor bytes with
    ⟨hStored, there, hThere, hLatch, hThereFits⟩
  let filled : DataPort :=
    { fresh with
      memory := fresh.memory.fill cursor bytes
      scroll := there }
  have hFilled :
      (aim start ++ stores bytes).foldl perform fresh = filled :=
    hThere
  have hReads :
      (List.range bytes.length).map
        (fun i => filled.memory.read (cursor i)) = bytes :=
    reads_of_fill hSuits hRam
      (fun i hIndex => hParts i (Nat.le_of_lt hIndex)) hApart
  rcases fetch_block filled hThereFits hLatch hCursor
      hParts with
    ⟨hFetched, hAddress⟩
  rw [hReads] at hFetched
  constructor
  · show fresh.transfers
      ((aim start ++ stores bytes) ++
        (aim start ++ fetches (bytes.length + 1))) = _
    rw [transfers_append, hStored, hFilled, hFetched]
  · show (((aim start ++ stores bytes) ++
      (aim start ++ fetches (bytes.length + 1))).foldl perform
        fresh).address = _
    rw [List.foldl_append, hFilled]
    exact hAddress

end DataPort

------------------------------------------------------------
-- Round Trips
------------------------------------------------------------

/- An address some steps behind a first one. -/
def stepsBehind
    (start : UInt16)
    (stride count : Nat) : UInt16 :=
  start + .ofNat (count * stride)

/- It is where the port comes to from the first one. -/
theorem place_stepsBehind
    (start : UInt16)
    (stride count : Nat) :
    place (stepsBehind start stride count) =
      place (strided (place start) stride count) := by
  unfold stepsBehind place
  rw [toNat_strided, UInt16.toNat_add, UInt16.toNat_ofNat']
  generalize count * stride = distance
  omega

namespace Ppu

variable {ppu : Ppu}
variable {image : CartridgeImage}

/- No event puts memory into another shape. -/
theorem suits_handle
    (event : Event)
    (hSuits : ppu.memory.Suits image) :
    (ppu.handle event).memory.Suits image := by
  cases event with
  | dot =>
      show ppu.tick.2.memory.Suits image
      rw [(tick_keeps ppu).memory]
      exact hSuits
  | read address =>
      show (ppu.read address).2.memory.Suits image
      unfold read
      split <;> exact hSuits
  | write address value =>
      show (ppu.write address value).memory.Suits image
      unfold write
      dsimp only
      split <;> first
        | exact hSuits
        | exact hSuits.write _ _
  | writeOam _ | acceptNmi | acceptFrame | reset => exact hSuits

theorem suits_after
    (events : List Event)
    (hSuits : ppu.memory.Suits image) :
    (ppu.after events).memory.Suits image :=
  after_invariant (motive := fun now => now.memory.Suits image)
    (fun _ => suits_handle) hSuits events

/- A read from the palette is not a read behind. -/
theorem read_of_palette
    {address : UInt16}
    (hRegister : PpuRegister.ofAddress address = .data)
    (hPart : partOf ppu.scroll.current.bits = .palette) :
    (ppu.read address).1 =
        ppu.memory.palette.read ppu.scroll.current.bits ∧
      (ppu.read address).2.registers.dataBuffer =
        ppu.memory.read
          (ppu.scroll.current.bits - 0x1000) := by
  have hRead : ppu.read address = ppu.readData := by
    unfold read
    rw [hRegister]
  have hFetched :
      ppu.dataPort.fetched =
        (ppu.memory.read ppu.scroll.current.bits,
          ppu.memory.read
            (decoded ppu.scroll.current.bits - 0x1000)) :=
    if_pos hPart
  have hValue :
      ppu.memory.read ppu.scroll.current.bits =
        ppu.memory.palette.read ppu.scroll.current.bits := by
    rw [VideoMemory.read_eq, hPart]
  have hUnder :
      place (decoded ppu.scroll.current.bits - 0x1000) =
        place (ppu.scroll.current.bits - 0x1000) := by
    have hBits := ppu.scroll.current.bits.toNat_lt
    unfold place
    simp only [UInt16.toNat_sub, VideoMemory.toNat_decoded,
      place, UInt16.reduceToNat]
    omega
  rw [hRead, readData_fst, readData_buffer, hFetched]
  refine ⟨hValue, ?_⟩
  dsimp only
  rw [← VideoMemory.read_decoded,
    VideoMemory.decoded_of_place hUnder,
    VideoMemory.read_decoded]

/-
  A cartridge with pattern memory that can be written, and
  any history.  While nothing is shown, a block of bytes that
  is stored through the data port, at addresses before the
  palette that are apart from each other, is fetched again in
  order behind the byte that was in the buffer before.  The
  address goes on by the stride of the control register with
  each access, in fifteen bits.  It does not matter through
  which of their addresses the registers are accessed and how
  many dots pass in between.  In the palette, and whatever is
  shown, a read returns six bits at once, and the buffer
  takes the byte that is 4 kB further down.
-/
theorem data_port_round_trip
    {cartridge : Cartridge}
    (hAccepted : Cartridge.ofImage image = .ok cartridge)
    (hRam : image.graphics.isRom = false)
    (timing : FrameTiming)
    (history : List Event) :
    let ppu := (powerOn
      (.ofPatterns cartridge.patterns cartridge.mirroring)
      timing).after history
    let stride :=
      ppu.registers.control.addressIncrement.toNat
    (∀ start bytes events,
      ppu.registers.mask.rendering = false →
      (∀ i ≤ bytes.length,
        place (stepsBehind start stride i) < 0x3F00) →
      (∀ i j, i < j → j < bytes.length →
        ¬Aliases image.mirroring
          (stepsBehind start stride i)
          (stepsBehind start stride j)) →
      Performs (DataPort.roundTrip start bytes) events →
        let addresses (count : Nat) :=
          (List.range count).map
            (strided (place start) stride)
        ppu.transfers events =
            List.zipWith .stored (addresses bytes.length)
                bytes ++
              List.zipWith .fetched
                (addresses (bytes.length + 1))
                (ppu.registers.dataBuffer :: bytes) ∧
          (ppu.after events).scroll.current.bits =
            strided (place start) stride
              (bytes.length + 1)) ∧
    (∀ address,
      PpuRegister.ofAddress address = .data →
      partOf ppu.scroll.current.bits = .palette →
        (ppu.read address).1 =
            ppu.memory.palette.read
              ppu.scroll.current.bits ∧
          (ppu.read address).1 < 0x40 ∧
          (ppu.read address).2.registers.dataBuffer =
            ppu.memory.read
              (ppu.scroll.current.bits - 0x1000)) := by
  intro ppu stride
  have hSuits : ppu.memory.Suits image :=
    suits_after history (VideoMemory.Suits.ofImage hAccepted)
  have hFits : ppu.scroll.Fits :=
    fits_after history Scroll.fits_default
  constructor
  · intro start bytes events hIdle hBelow hApart hPerforms
      addresses
    have hPlace := place_stepsBehind start stride
    have hParts (i : Nat) (hIndex : i ≤ bytes.length) :
        partOf (strided (place start) stride i) ≠ .palette := by
      apply VideoMemory.partOf_ne_palette
      rw [← hPlace]
      exact hBelow i hIndex
    have hCells (i : Nat) :
        VideoMemory.cellOf image.mirroring
            (strided (place start) stride i) =
          VideoMemory.cellOf image.mirroring
            (stepsBehind start stride i) :=
      VideoMemory.cellOf_of_place _ (hPlace i).symm
    have hRun := run_of_usesDataPort hIdle hPerforms
      fun _ => DataPort.usesDataPort_of_mem_roundTrip
    have hTrip := DataPort.transfers_roundTrip
      ppu.dataPort hSuits hRam hFits rfl hParts
      (fun i j hOrder hLater hAliases =>
        hApart i j hOrder hLater
          ((hCells i).symm.trans
            (hAliases.trans (hCells j))))
    refine ⟨hRun.2.trans hTrip.1, Eq.trans ?_ hTrip.2⟩
    rw [← hRun.1]
    rfl
  · intro address hRegister hPart
    rcases read_of_palette hRegister hPart with
      ⟨hValue, hBuffer⟩
    refine ⟨hValue, ?_, hBuffer⟩
    rw [hValue]
    exact Palette.read_lt _ _

/-
  With the stride of a column of tiles, two bytes go into the
  first nametable and come back behind what was buffered.
-/
theorem two_bytes_there_and_back :
    ∃ cartridge,
      Cartridge.ofImage
          { programRom := Array.replicate 0x4000 0xEA } =
        .ok cartridge ∧
      let ppu := (powerOn
        (.ofPatterns cartridge.patterns cartridge.mirroring)
        VideoStandard.ntsc.timing).after
          [.write 0x2000 0x04, .write 0x2006 0x3F,
            .write 0x2006 0x05]
      ppu.transfers
          [.read 0x2002, .write 0x2006 0x20, .dot,
            .write 0x200E 0x00, .write 0x2007 0x11,
            .write 0x3FFF 0x22, .dot, .write 0x2006 0x20,
            .write 0x2006 0x00, .read 0x2007, .read 0x2007,
            .read 0x200F] =
        [.stored 0x2000 0x11, .stored 0x2020 0x22,
          .fetched 0x2000 0x00, .fetched 0x2020 0x11,
          .fetched 0x2040 0x22] ∧
        (ppu.read 0x2007).1 < 0x40 := by
  have hAccepted := Cartridge.ofImage_replicate 0xEA
  refine ⟨_, hAccepted, ?_⟩
  intro ppu
  rcases data_port_round_trip hAccepted rfl
      VideoStandard.ntsc.timing
      [.write 0x2000 0x04, .write 0x2006 0x3F,
        .write 0x2006 0x05] with
    ⟨hTrip, hPalette⟩
  refine ⟨?_, (hPalette 0x2007 rfl rfl).2.1⟩
  refine (hTrip 0x2000 [0x11, 0x22] _ rfl ?_ ?_
    ⟨rfl, by decide⟩).1
  · show ∀ i ≤ 2, place (stepsBehind 0x2000 32 i) < 0x3F00
    decide
  · intro i j hOrder hLater
    have hLater' : j < 2 := hLater
    obtain ⟨rfl, rfl⟩ : i = 0 ∧ j = 1 := by omega
    show ¬Aliases .horizontal (stepsBehind 0x2000 32 0)
      (stepsBehind 0x2000 32 1)
    decide

end Ppu

end Famicom
