import Famicom.Proofs.Video.SpriteLine

/-
  Where the unit of sprite 0 is.

  Units are loaded in the order of the sprite memory, so the
  unit of sprite 0 is the first of its line or is not there.
  It therefore hides all other sprites, and no other sprite
  hides it.

  Key definitions include:
    * `SpriteUnit.ShowsAt`
    * `SpriteUnit.shownAt`
    * `Pipeline.ZeroLeads`
    * `Ppu.HoldsZero`
    * `Ppu.zeroUnit`

  Main declarations:
    * `Pipeline.ZeroLeads.spritePixel_isZero_iff`
    * `Ppu.nextUnits_eq`
    * `Ppu.handle_holdsZero`
    * `Ppu.sprites_after`
    * `Ppu.zeroLeads_after`
-/

namespace Famicom

------------------------------------------------------------
-- Pixels of Units
------------------------------------------------------------

namespace SpriteUnit

/- The unit has a pixel that is not transparent there. -/
def ShowsAt
    (unit : SpriteUnit)
    (x : Nat) : Prop :=
  unit.x.toNat ≤ x ∧ x < unit.x.toNat + 8 ∧
    unit.color (x - unit.x.toNat) ≠ 0

/- The pixel that the unit has there. -/
def shownAt
    (unit : SpriteUnit)
    (x : Nat) : SpritePixel where
  paletteEntry :=
    unit.palette ||| unit.color (x - unit.x.toNat)
  isBehind := unit.isBehind
  isZero := unit.isZero

theorem pixelAt_of_showsAt
    {unit : SpriteUnit}
    {x : Nat}
    (hShows : unit.ShowsAt x) :
    unit.pixelAt x = some (unit.shownAt x) := by
  rcases hShows with ⟨hFrom, hTo, hColor⟩
  unfold pixelAt
  dsimp only
  rw [if_pos ⟨hFrom, hTo⟩, if_neg (mt beq_iff_eq.mp hColor)]
  rfl

theorem pixelAt_of_not_showsAt
    {unit : SpriteUnit}
    {x : Nat}
    (hHidden : ¬unit.ShowsAt x) :
    unit.pixelAt x = none := by
  unfold pixelAt
  dsimp only
  split
  next hColumn =>
    by_cases hColor : unit.color (x - unit.x.toNat) = 0
    · rw [if_pos (beq_iff_eq.mpr hColor)]
    · exact absurd ⟨hColumn.1, hColumn.2, hColor⟩ hHidden
  next => rfl

theorem pixelAt_eq_some_iff
    {unit : SpriteUnit}
    {x : Nat}
    {pixel : SpritePixel} :
    unit.pixelAt x = some pixel ↔
      unit.ShowsAt x ∧ unit.shownAt x = pixel := by
  by_cases hShows : unit.ShowsAt x
  · rw [pixelAt_of_showsAt hShows, Option.some.injEq]
    exact (and_iff_right hShows).symm
  · rw [pixelAt_of_not_showsAt hShows]
    constructor
    · intro hSome
      cases hSome
    · intro hSome
      exact absurd hSome.1 hShows

theorem pixelAt_eq_none_iff
    {unit : SpriteUnit}
    {x : Nat} :
    unit.pixelAt x = none ↔ ¬unit.ShowsAt x := by
  refine ⟨fun hNone hShows => ?_, pixelAt_of_not_showsAt⟩
  rw [pixelAt_of_showsAt hShows] at hNone
  cases hNone

end SpriteUnit

------------------------------------------------------------
-- The First Unit
------------------------------------------------------------

namespace Pipeline

/- No unit but the first one is that of sprite 0. -/
def ZeroLeads (pipeline : Pipeline) : Prop :=
  ∀ unit ∈ pipeline.sprites.tail, unit.isZero = false

/-
  The pixel that is seen is sprite 0's exactly if its unit
  has one.  If the unit is there it is asked first.
-/
theorem ZeroLeads.spritePixel_isZero_iff
    {pipeline : Pipeline}
    (hLeads : pipeline.ZeroLeads)
    {x : Nat} :
    (∃ pixel,
      pipeline.spritePixel x = some pixel ∧
      pixel.isZero = true) ↔
    ∃ unit ∈ pipeline.sprites,
      unit.isZero = true ∧ unit.ShowsAt x := by
  unfold spritePixel
  constructor
  · rintro ⟨pixel, hFound, hZero⟩
    rcases List.exists_of_findSome?_eq_some hFound with
      ⟨unit, hIn, hSome⟩
    rcases SpriteUnit.pixelAt_eq_some_iff.mp hSome with
      ⟨hShows, hSame⟩
    rw [← hSame] at hZero
    exact ⟨unit, hIn, hZero, hShows⟩
  · rintro ⟨unit, hIn, hZero, hShows⟩
    unfold ZeroLeads at hLeads
    cases hSprites : pipeline.sprites with
    | nil =>
        rw [hSprites] at hIn
        exact absurd hIn List.not_mem_nil
    | cons first rest =>
        rw [hSprites] at hIn hLeads
        rcases List.mem_cons.mp hIn with hFirst | hRest
        · refine ⟨unit.shownAt x, ?_, hZero⟩
          rw [List.findSome?_cons, ← hFirst,
            SpriteUnit.pixelAt_of_showsAt hShows]
        · rw [hLeads unit hRest] at hZero
          cases hZero

end Pipeline

namespace Ppu

variable {ppu : Ppu}

------------------------------------------------------------
-- Loading
------------------------------------------------------------

/- A loaded unit that is sprite 0's. -/
def HoldsZero
    (ppu : Ppu)
    (unit : SpriteUnit) : Prop :=
  unit ∈ ppu.pipeline.sprites ∧ unit.isZero = true

/- The unit for sprite 0 if it has a row on the next line. -/
def zeroUnit (ppu : Ppu) : Option SpriteUnit :=
  let height := ppu.registers.control.spriteHeight
  (ppu.oam.onLine? ppu.raster.scanline.toUInt16 height 0).map
    (spriteUnit ppu.memory ppu.registers.control)

theorem index_of_onLine?
    {oam : SpriteMemory}
    {scanline height : UInt16}
    {index : Nat}
    {found : SpriteMemory.OnLine}
    (hFound : oam.onLine? scanline height index = some found) :
    found.index = index := by
  unfold SpriteMemory.onLine? at hFound
  rcases Option.map_eq_some_iff.mp hFound with ⟨row, -, hRow⟩
  rw [← hRow]

/- Sprite 0 comes first among the sprites of a line. -/
theorem onLine_eq_append
    (oam : SpriteMemory)
    (scanline height : UInt16) :
    ∃ others,
      (∀ found ∈ others, found.index ≠ 0) ∧
      oam.onLine scanline height =
        (oam.onLine? scanline height 0).toList ++ others := by
  refine ⟨(List.range' 1 63).filterMap
    (oam.onLine? scanline height), ?_, ?_⟩
  · intro found hFound
    rcases List.mem_filterMap.mp hFound with
      ⟨index, hIndex, hSome⟩
    rw [index_of_onLine? hSome]
    exact Nat.ne_of_gt (List.mem_range'_1.mp hIndex).1
  · unfold SpriteMemory.onLine
    have hRange : List.range 64 = 0 :: List.range' 1 63 := by
      decide
    rw [hRange, List.filterMap_cons]
    cases oam.onLine? scanline height 0 <;> rfl

/- The unit of sprite 0 comes first among the next units. -/
theorem nextUnits_eq (ppu : Ppu) :
    ∃ others,
      (∀ unit ∈ others, unit.isZero = false) ∧
      ppu.nextUnits = ppu.zeroUnit.toList ++ others := by
  rcases onLine_eq_append ppu.oam
    ppu.raster.scanline.toUInt16
    ppu.registers.control.spriteHeight with
    ⟨found, hFound, hLine⟩
  have hOthers (count : Nat) :
      ∀ unit ∈ (found.take count).map
        (spriteUnit ppu.memory ppu.registers.control),
        unit.isZero = false := by
    intro unit hUnit
    rcases List.mem_map.mp hUnit with ⟨other, hOther, hUnit⟩
    have hIndex := hFound other (List.mem_of_mem_take hOther)
    rw [← hUnit]
    exact beq_false_of_ne hIndex
  unfold nextUnits spritesFound zeroUnit
  dsimp only
  rw [hLine]
  cases ppu.oam.onLine? ppu.raster.scanline.toUInt16
      ppu.registers.control.spriteHeight 0 with
  | none => exact ⟨_, hOthers 8, rfl⟩
  | some zero => exact ⟨_, hOthers 7, rfl⟩

theorem isZero_of_zeroUnit
    {unit : SpriteUnit}
    (hUnit : ppu.zeroUnit = some unit) :
    unit.isZero = true := by
  rcases Option.map_eq_some_iff.mp hUnit with
    ⟨found, hFound, hSame⟩
  rw [← hSame]
  exact beq_iff_eq.mpr (index_of_onLine? hFound)

/- Of the next units that of sprite 0 has the mark. -/
theorem mem_nextUnits_isZero_iff
    {unit : SpriteUnit} :
    unit ∈ ppu.nextUnits ∧ unit.isZero = true ↔
      ppu.zeroUnit = some unit := by
  rcases ppu.nextUnits_eq with ⟨others, hOthers, hUnits⟩
  rw [hUnits, List.mem_append, Option.mem_toList]
  constructor
  · rintro ⟨hZero | hOther, hMark⟩
    · exact hZero
    · rw [hOthers unit hOther] at hMark
      cases hMark
  · intro hZero
    exact ⟨.inl hZero, isZero_of_zeroUnit hZero⟩

/- Behind the first of the next units sprite 0 is not. -/
theorem isZero_of_nextUnits_tail (ppu : Ppu) :
    ∀ unit ∈ ppu.nextUnits.tail, unit.isZero = false := by
  rcases ppu.nextUnits_eq with ⟨others, hOthers, hUnits⟩
  rw [hUnits]
  intro unit hUnit
  cases hZero : ppu.zeroUnit with
  | none =>
      rw [hZero] at hUnit
      exact hOthers unit (List.mem_of_mem_tail hUnit)
  | some zero =>
      rw [hZero] at hUnit
      exact hOthers unit hUnit

------------------------------------------------------------
-- Events
------------------------------------------------------------

/- What becomes of the units on a dot. -/
theorem tick_sprites_eq (ppu : Ppu) :
    ppu.tick.2.pipeline.sprites =
      if ppu.isRendering = true ∧ ppu.raster.dot = 257 then
        if ppu.isPrerenderLine = true then
          []
        else
          ppu.nextUnits
      else
        ppu.pipeline.sprites := by
  by_cases hDot : ppu.raster.dot = 257
  · have hShift : ppu.tick.2.pipeline.sprites =
        ppu.atOutput.pipeline.sprites := by
      rw [tick_pipeline]
      split <;> rfl
    rw [hShift]
    by_cases hRendering : ppu.isRendering = true
    · rw [if_pos ⟨hRendering, hDot⟩]
      by_cases hLine : ppu.isPrerenderLine = true
      · have hSame :
            (ppu.changeAddress
              (·.copyHorizontal
                ppu.scroll.temporary)).isPrerenderLine =
              true :=
          hLine
        rw [if_pos hLine, atOutput, if_pos hRendering,
          fetch_at_return hDot, evaluateSprites, if_pos hSame]
        rfl
      · rw [if_neg hLine]
        exact (atOutput_load hRendering
          (Bool.eq_false_iff.mpr hLine) hDot).1
    · rw [if_neg (fun h => hRendering h.1), atOutput,
        if_neg hRendering]
  · rw [if_neg (fun h => hDot h.2)]
    exact tick_sprites hDot

theorem read_pipeline
    (ppu : Ppu)
    (address : UInt16) :
    (ppu.read address).2.pipeline = ppu.pipeline := by
  unfold read
  split <;> rfl

theorem write_pipeline
    (ppu : Ppu)
    (address : UInt16)
    (value : UInt8) :
    (ppu.write address value).pipeline = ppu.pipeline := by
  unfold write
  dsimp only
  split <;> rfl

/- Only dots and resets change the pipeline. -/
theorem handle_pipeline
    {event : Event}
    (hDot : event ≠ .dot)
    (hReset : event ≠ .reset) :
    (ppu.handle event).pipeline = ppu.pipeline := by
  cases event with
  | dot => exact absurd rfl hDot
  | reset => exact absurd rfl hReset
  | read address => exact read_pipeline ppu address
  | write address value =>
      exact write_pipeline ppu address value
  | writeOam value => rfl
  | acceptNmi => rfl
  | acceptFrame => rfl

/-
  When the unit of sprite 0 comes and goes.  Dot 257 of a
  line of the picture loads it, the same dot of the
  pre-render line and a reset remove it, if sprites are
  evaluated at all, and nothing else changes it.
-/
theorem handle_holdsZero
    (ppu : Ppu)
    (event : Event)
    (unit : SpriteUnit) :
    (ppu.handle event).HoldsZero unit ↔
      match event with
      | .reset => False
      | .dot =>
          if ppu.isRendering = true ∧
              ppu.raster.dot = 257 then
            ppu.isPrerenderLine = false ∧
              ppu.zeroUnit = some unit
          else
            ppu.HoldsZero unit
      | _ => ppu.HoldsZero unit := by
  unfold HoldsZero
  cases event with
  | dot =>
      dsimp only [handle]
      rw [tick_sprites_eq]
      split
      · cases hLine : ppu.isPrerenderLine with
        | false =>
            rw [if_neg Bool.false_ne_true]
            exact mem_nextUnits_isZero_iff.trans
              (and_iff_right rfl).symm
        | true =>
            rw [if_pos rfl]
            constructor
            · rintro ⟨hUnit, -⟩
              exact absurd hUnit List.not_mem_nil
            · rintro ⟨hTrue, -⟩
              cases hTrue
      · exact .rfl
  | reset =>
      constructor
      · rintro ⟨hUnit, -⟩
        exact absurd hUnit List.not_mem_nil
      · exact False.elim
  | read address =>
      dsimp only [handle]
      rw [read_pipeline]
  | write address value =>
      dsimp only [handle]
      rw [write_pipeline]
  | writeOam value => exact .rfl
  | acceptNmi => exact .rfl
  | acceptFrame => exact .rfl

section Sprites

variable {motive : List SpriteUnit → Prop}
variable (hNone : motive [])
variable (hNext : ∀ ppu : Ppu, motive ppu.nextUnits)

include hNone hNext

/- What can be in the units after an event. -/
theorem handle_sprites
    (event : Event)
    (hHere : motive ppu.pipeline.sprites) :
    motive (ppu.handle event).pipeline.sprites := by
  by_cases hDot : event = .dot
  · rw [hDot]
    dsimp only [handle]
    rw [tick_sprites_eq]
    split_ifs
    · exact hNone
    · exact hNext ppu
    · exact hHere
  by_cases hReset : event = .reset
  · rw [hReset]
    exact hNone
  rw [handle_pipeline hDot hReset]
  exact hHere

/- What holds of no units and of loaded ones holds always. -/
theorem sprites_after
    (events : List Event)
    (hHere : motive ppu.pipeline.sprites) :
    motive (ppu.after events).pipeline.sprites :=
  after_invariant
    (motive := fun now => motive now.pipeline.sprites)
    (fun _ => handle_sprites hNone hNext) hHere events

end Sprites

/- Whatever happens, sprite 0 leads. -/
theorem zeroLeads_after
    (events : List Event)
    (hLeads : ppu.pipeline.ZeroLeads) :
    (ppu.after events).pipeline.ZeroLeads := by
  refine sprites_after (motive := fun units =>
    ∀ unit ∈ units.tail, unit.isZero = false)
    ?_ isZero_of_nextUnits_tail events hLeads
  intro unit hUnit
  exact absurd hUnit List.not_mem_nil

end Ppu

end Famicom
