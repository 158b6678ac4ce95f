import Famicom.Proofs.Video.PixelStream
import Famicom.Proofs.Video.SpriteZeroHit

/-
  Which entry of the palette a pixel shows.

  A sprite is seen unless it is behind an opaque background.
  The palettes in the units come from sprite memory, so they
  are the upper four, and neither layer offers the first
  entry of a palette other than the backdrop.

  Key definitions include:
    * `SpriteUnit.IsOpaqueAt`
    * `SpriteUnit.HasPalette`
    * `Ppu.backgroundEntry`
    * `Ppu.Offers`

  Main declarations:
    * `Ppu.spritePalettes_after`
    * `Ppu.layersAt_sprite_eq_some_iff`
    * `Ppu.tick_entryShown`
    * `Ppu.entry_by_priority`
-/

namespace Famicom

------------------------------------------------------------
-- Entries of Sprites
------------------------------------------------------------

/- The palettes of sprites are the upper four. -/
theorem Sprite.toNat_paletteBase (sprite : Sprite) :
    sprite.paletteBase.toNat =
      16 + 4 * (sprite.attributes.toNat % 4) := by
  have hEntry := SpriteCompositor.paletteBase_or_color sprite 0
    (by decide)
  have hSmall := Nat.mod_lt sprite.attributes.toNat
    (by decide : 0 < 4)
  rw [UInt8.or_zero] at hEntry
  rw [hEntry]
  exact UInt8.toNat_ofNat_of_lt' (by
    show _ < 256
    rw [UInt8.toNat_zero]
    omega)

namespace SpriteUnit

/- The number of a column's color, from the two planes. -/
def numberAt
    (unit : SpriteUnit)
    (x : Nat) : Nat :=
  let bit := 7 - (x - unit.x.toNat)
  2 * bitAt unit.high.toNat bit + bitAt unit.low.toNat bit

/- The unit holds the palette of some sprite. -/
def HasPalette (unit : SpriteUnit) : Prop :=
  ∃ palette < 4, unit.palette.toNat = 16 + 4 * palette

/- The unit covers the column with a color other than 0. -/
def IsOpaqueAt
    (unit : SpriteUnit)
    (x : Nat) : Prop :=
  unit.x.toNat ≤ x ∧ x < unit.x.toNat + 8 ∧
    unit.numberAt x ≠ 0

variable {unit : SpriteUnit} {x : Nat}

theorem numberAt_lt : unit.numberAt x < 4 := by
  have hHigh := bitAt_lt unit.high.toNat
    (7 - (x - unit.x.toNat))
  have hLow := bitAt_lt unit.low.toNat
    (7 - (x - unit.x.toNat))
  unfold numberAt
  dsimp only
  omega

/- Within the unit the number is that of the color. -/
theorem toNat_color_eq_numberAt
    (hFrom : unit.x.toNat ≤ x)
    (hTo : x < unit.x.toNat + 8) :
    (unit.color (x - unit.x.toNat)).toNat =
      unit.numberAt x :=
  SpriteCompositor.toNat_color unit _ (by omega)

theorem showsAt_iff :
    unit.ShowsAt x ↔ unit.IsOpaqueAt x := by
  unfold ShowsAt IsOpaqueAt
  refine and_congr_right fun hFrom =>
    and_congr_right fun hTo => ?_
  rw [← toNat_color_eq_numberAt hFrom hTo, Ne,
    ← UInt8.toNat_inj]
  rfl

/- The entry of an opaque pixel is one of the palette's. -/
theorem toNat_shownAt
    (hPalette : unit.HasPalette)
    (hOpaque : unit.IsOpaqueAt x) :
    (unit.shownAt x).paletteEntry.toNat =
      unit.palette.toNat + unit.numberAt x := by
  rcases hPalette with ⟨palette, -, hPalette⟩
  rcases hOpaque with ⟨hFrom, hTo, -⟩
  have hOr := Nat.two_pow_add_eq_or_of_lt (i := 2)
    (b := unit.numberAt x) numberAt_lt (4 + palette)
  have hBase : unit.palette.toNat = 2 ^ 2 * (4 + palette) := by
    omega
  show (unit.palette ||| unit.color _).toNat = _
  rw [UInt8.toNat_or, toNat_color_eq_numberAt hFrom hTo,
    hBase, ← hOr]

end SpriteUnit

namespace Ppu

variable {ppu : Ppu}

/- All units that are loaded hold palettes of sprites. -/
theorem hasPalette_of_nextUnits (ppu : Ppu) :
    ∀ unit ∈ ppu.nextUnits, unit.HasPalette := by
  intro unit hUnit
  rcases List.mem_map.mp hUnit with ⟨found, -, hSame⟩
  have hSmall := Nat.mod_lt found.sprite.attributes.toNat
    (by decide : 0 < 4)
  rw [← hSame]
  exact ⟨_, hSmall, found.sprite.toNat_paletteBase⟩

/- Whatever happens, units hold palettes of sprites. -/
theorem spritePalettes_after
    (events : List Event)
    (hPalettes :
      ∀ unit ∈ ppu.pipeline.sprites, unit.HasPalette) :
    ∀ unit ∈ (ppu.after events).pipeline.sprites,
      unit.HasPalette := by
  refine sprites_after (motive := fun units =>
    ∀ unit ∈ units, unit.HasPalette)
    ?_ hasPalette_of_nextUnits events hPalettes
  intro unit hUnit
  exact absurd hUnit List.not_mem_nil

------------------------------------------------------------
-- What is Offered
------------------------------------------------------------

/-
  The background's entry at a column.  It is 0 where the
  background is switched off, clipped or transparent.
-/
def backgroundEntry
    (ppu : Ppu)
    (x : Nat) : Nat :=
  let mask := ppu.registers.mask
  let shifters := ppu.pipeline.shifters
  let tap (register : UInt16) :=
    bitAt register.toNat (15 - ppu.scroll.fineX.toNat)
  if mask.background = true ∧
      (8 ≤ x ∨
        Bits.meets mask.bits PpuMask.leftBackgroundMask =
          true) then
    Shifters.entryOf
      (2 * tap shifters.patternHigh +
        tap shifters.patternLow)
      (2 * tap shifters.paletteHigh +
        tap shifters.paletteLow)
  else
    0

/-
  The unit whose pixel competes with the background at a
  column: the first one that has an opaque pixel, where
  sprites are neither switched off nor clipped.
-/
structure Offers
    (ppu : Ppu)
    (x : Nat)
    (unit : SpriteUnit) : Prop where
  shown : ppu.registers.mask.sprites = true
  unclipped :
    8 ≤ x ∨
      Bits.meets ppu.registers.mask.bits
        PpuMask.leftSpritesMask = true
  opaquePixel : unit.IsOpaqueAt x
  first : ∃ before later,
    ppu.pipeline.sprites = before ++ unit :: later ∧
      ∀ other ∈ before, ¬other.IsOpaqueAt x

/- The sprite layer is the pixel of the unit offered. -/
theorem layersAt_sprite_eq_some_iff
    {x : Nat}
    {pixel : SpritePixel} :
    (ppu.layersAt x).sprite = some pixel ↔
      ∃ unit, ppu.Offers x unit ∧ unit.shownAt x = pixel := by
  unfold layersAt Pipeline.spritePixel
  dsimp only
  rw [Option.ite_none_right_eq_some, PpuMask.spritesAt_iff,
    List.findSome?_eq_some_iff]
  simp only [SpriteUnit.pixelAt_eq_some_iff,
    SpriteUnit.pixelAt_eq_none_iff, SpriteUnit.showsAt_iff]
  constructor
  · rintro ⟨⟨hOn, hLeft⟩, before, unit, later, hUnits,
      ⟨hOpaque, hPixel⟩, hBefore⟩
    exact ⟨unit,
      ⟨hOn, hLeft, hOpaque, before, later, hUnits, hBefore⟩,
      hPixel⟩
  · rintro ⟨unit, hOffers, hPixel⟩
    rcases hOffers.first with
      ⟨before, later, hUnits, hBefore⟩
    exact ⟨⟨hOffers.shown, hOffers.unclipped⟩, before, unit,
      later, hUnits, ⟨hOffers.opaquePixel, hPixel⟩, hBefore⟩

theorem toNat_layersAt_background
    (hFine : ppu.scroll.fineX < 8)
    (x : Nat) :
    (ppu.layersAt x).background.toNat =
      ppu.backgroundEntry x := by
  unfold layersAt backgroundEntry Pipeline.backgroundPixel
  dsimp only
  rw [apply_ite UInt8.toNat, Shifters.toNat_pixel _ _ hFine]
  exact if_congr PpuMask.backgroundAt_iff rfl rfl

/- The background offers no first entry but the backdrop. -/
theorem backgroundEntry_lt
    (ppu : Ppu)
    (x : Nat) :
    ppu.backgroundEntry x = 0 ∨
      (ppu.backgroundEntry x < 16 ∧
        ppu.backgroundEntry x % 4 ≠ 0) := by
  have hTap (register : UInt16) :
      bitAt register.toNat (15 - ppu.scroll.fineX.toNat) <
        2 :=
    bitAt_lt _ _
  have hLow := hTap ppu.pipeline.shifters.patternLow
  have hHigh := hTap ppu.pipeline.shifters.patternHigh
  have hPaletteLow := hTap ppu.pipeline.shifters.paletteLow
  have hPaletteHigh := hTap ppu.pipeline.shifters.paletteHigh
  unfold backgroundEntry Shifters.entryOf
  dsimp only
  split_ifs
  · exact .inl rfl
  · right
    omega
  · exact .inl rfl

/- Sprites only offer entries of their palettes. -/
theorem Offers.entry
    {x : Nat}
    {unit : SpriteUnit}
    (hOffers : ppu.Offers x unit)
    (hPalettes :
      ∀ other ∈ ppu.pipeline.sprites, other.HasPalette) :
    (unit.shownAt x).paletteEntry.toNat =
        unit.palette.toNat + unit.numberAt x ∧
      16 < unit.palette.toNat + unit.numberAt x ∧
      unit.palette.toNat + unit.numberAt x < 32 ∧
      (unit.palette.toNat + unit.numberAt x) % 4 ≠ 0 := by
  rcases hOffers.first with ⟨before, later, hUnits, -⟩
  have hIn : unit ∈ ppu.pipeline.sprites := by
    rw [hUnits]
    exact List.mem_append_right before List.mem_cons_self
  have hPalette := hPalettes unit hIn
  have hEntry :=
    SpriteUnit.toNat_shownAt hPalette hOffers.opaquePixel
  rcases hOffers.opaquePixel with ⟨-, -, hOpaque⟩
  have hSmall : unit.numberAt x < 4 := SpriteUnit.numberAt_lt
  rcases hPalette with ⟨palette, hLast, hBase⟩
  refine ⟨hEntry, ?_, ?_, ?_⟩ <;> omega

------------------------------------------------------------
-- Priority
------------------------------------------------------------

section Priority

variable {x : Nat}
variable (hFine : ppu.scroll.fineX < 8)

include hFine

/- The unit offered is seen or behind the background. -/
theorem Offers.toNat_paletteEntry
    {unit : SpriteUnit}
    (hOffers : ppu.Offers x unit)
    (hPalettes :
      ∀ other ∈ ppu.pipeline.sprites, other.HasPalette) :
    (ppu.layersAt x).paletteEntry.toNat =
      if unit.isBehind = true ∧ ppu.backgroundEntry x ≠ 0 then
        ppu.backgroundEntry x
      else
        unit.palette.toNat + unit.numberAt x := by
  have hSprite :
      (ppu.layersAt x).sprite = some (unit.shownAt x) :=
    layersAt_sprite_eq_some_iff.mpr ⟨unit, hOffers, rfl⟩
  have hBackground := toNat_layersAt_background hFine x
  have hHidden :
      (unit.isBehind && (ppu.layersAt x).background != 0) =
          true ↔
        unit.isBehind = true ∧ ppu.backgroundEntry x ≠ 0 := by
    rw [Bool.and_eq_true, bne_iff_ne, Ne, ← UInt8.toNat_inj,
      hBackground]
    rfl
  unfold Layers.paletteEntry
  rw [hSprite]
  dsimp only
  rw [apply_ite UInt8.toNat, hBackground,
    (hOffers.entry hPalettes).1]
  exact if_congr hHidden rfl rfl

/- Where no unit is offered the background is seen. -/
theorem toNat_paletteEntry_of_no_offer
    (hNone : ∀ unit, ¬ppu.Offers x unit) :
    (ppu.layersAt x).paletteEntry.toNat =
      ppu.backgroundEntry x := by
  have hSprite : (ppu.layersAt x).sprite = none := by
    refine Option.eq_none_iff_forall_ne_some.mpr ?_
    intro pixel hSome
    rcases layersAt_sprite_eq_some_iff.mp hSome with
      ⟨unit, hOffers, -⟩
    exact hNone unit hOffers
  unfold Layers.paletteEntry
  rw [hSprite]
  exact toNat_layersAt_background hFine x

/- No layer offers the first entry of another palette. -/
theorem paletteEntry_unshared
    (hPalettes :
      ∀ unit ∈ ppu.pipeline.sprites, unit.HasPalette) :
    (ppu.layersAt x).paletteEntry.toNat = 0 ∨
      ((ppu.layersAt x).paletteEntry.toNat < 32 ∧
        (ppu.layersAt x).paletteEntry.toNat % 4 ≠ 0) := by
  have hBackground := ppu.backgroundEntry_lt x
  by_cases hOffered : ∃ unit, ppu.Offers x unit
  · rcases hOffered with ⟨unit, hOffers⟩
    have hEntry := hOffers.entry hPalettes
    rw [hOffers.toNat_paletteEntry hFine hPalettes]
    split <;> omega
  · rw [toNat_paletteEntry_of_no_offer hFine
      (not_exists.mp hOffered)]
    omega

end Priority

------------------------------------------------------------
-- The Entry of a Pixel
------------------------------------------------------------

/- What is shown does not wait for what the dot fetches. -/
theorem tick_entryShown
    (hFine : ppu.scroll.fineX < 8) :
    ppu.tick.1 =
      if ppu.raster.scanline < Hardware.visibleScanlines ∧
          1 ≤ ppu.raster.dot ∧ ppu.raster.dot ≤ 256 then
        some (ppu.pixelOf ppu.entryShown)
      else
        none := by
  have hKeeps := atOutput_keeps ppu
  have hPixelOf (entry : UInt8) :
      ppu.atOutput.pixelOf entry = ppu.pixelOf entry := by
    unfold pixelOf colorOf
    rw [atOutput_raster, hKeeps.memory, hKeeps.mask]
  rw [tick_pixel]
  by_cases hPixel : ppu.isPixelDot = true
  · have hHere := isPixelDot_iff.mp hPixel
    rw [if_pos hPixel, if_pos hHere, hPixelOf]
    by_cases hRendering : ppu.registers.mask.rendering = true
    · unfold entryShown
      rw [hKeeps.mask, if_pos hRendering, if_pos hRendering,
        atOutput_raster, atOutput_layersAt hHere.2 hFine]
    · have hIdle : ¬ppu.isRendering = true := fun hActive =>
        hRendering (Bool.and_eq_true_iff.mp hActive).2
      rw [atOutput, if_neg hIdle]
  · rw [if_neg hPixel, if_neg (mt isPixelDot_iff.mpr hPixel)]

/-
  Without rendering the backdrop is shown, or the entry that
  the scroll address points to.
-/
theorem toNat_backdrop (ppu : Ppu) :
    let address := ppu.scroll.current.bits.toNat
    ppu.backdrop.toNat =
      if 0x3F00 ≤ address % 0x4000 then
        address % 32
      else
        0 := by
  intro address
  have hPlace :
      (VideoMemory.decoded ppu.scroll.current.bits).toNat =
        address % 0x4000 :=
    VideoMemory.toNat_decoded ppu.scroll.current.bits
  have hPointed :
      Hardware.paletteStart ≤
          VideoMemory.decoded ppu.scroll.current.bits ↔
        0x3F00 ≤ address % 0x4000 := by
    rw [UInt16.le_iff_toNat_le, hPlace]
    rfl
  have hEntry :
      (VideoMemory.decoded ppu.scroll.current.bits &&&
        0x1F).toUInt8.toNat = address % 32 := by
    have hLow := Nat.and_two_pow_sub_one_eq_mod
      (address % 0x4000) 5
    rw [UInt16.toNat_toUInt8, UInt16.toNat_and, hPlace]
    show (address % 0x4000 &&& 2 ^ 5 - 1) % 256 = _
    rw [hLow]
    omega
  show (if _ then _ else _ : UInt8).toNat = _
  rw [apply_ite UInt8.toNat]
  exact if_congr hPointed hEntry rfl

end Ppu

/- Entries that are not shared are under one address only. -/
theorem Palette.entryOf_eq_iff
    {address : UInt16}
    {entry : Nat}
    (hOwn : entry % 4 ≠ 0) :
    (entryOf address).val = entry ↔
      address.toNat % 32 = entry := by
  unfold entryOf
  dsimp only
  split <;> dsimp only <;> omega

namespace Ppu

/-
  The entry shown by the dots of any run from power-on.  While
  anything is rendered, the sprite pixel that is offered is
  seen if it is in front or the background shows nothing, and
  else the background is.  The entry is the backdrop, or one
  that no other address reaches.  While nothing is rendered,
  it is the backdrop or what the scroll address points to.
-/
theorem entry_by_priority
    (memory : VideoMemory)
    (timing : FrameTiming)
    (events : List Event) :
    let ppu := (powerOn memory timing).after events
    let x := ppu.raster.dot - 1
    let background := ppu.backgroundEntry x
    let entry := ppu.entryShown.toNat
    (ppu.tick.1 =
      if ppu.raster.scanline < Hardware.visibleScanlines ∧
          1 ≤ ppu.raster.dot ∧ ppu.raster.dot ≤ 256 then
        some (ppu.pixelOf ppu.entryShown)
      else
        none) ∧
    (ppu.registers.mask.rendering = true →
      (∀ unit,
        ppu.Offers x unit →
        unit.isBehind = false ∨ background = 0 →
        entry = unit.palette.toNat + unit.numberAt x ∧
          16 < entry) ∧
      ((∀ unit,
        ppu.Offers x unit →
        unit.isBehind = true ∧ background ≠ 0) →
        entry = background ∧ entry < 16) ∧
      (entry = 0 ∨
        (entry < 32 ∧ entry % 4 ≠ 0 ∧
          ∀ address,
            (Palette.entryOf address).val = entry ↔
              address.toNat % 32 = entry))) ∧
    (ppu.registers.mask.rendering = false →
      let address := ppu.scroll.current.bits.toNat
      entry =
        if 0x3F00 ≤ address % 0x4000 then
          address % 32
        else
          0) := by
  intro ppu x background entry
  have hFine : ppu.scroll.fineX < 8 :=
    fineX_lt memory timing events
  have hPalettes :
      ∀ unit ∈ ppu.pipeline.sprites, unit.HasPalette :=
    spritePalettes_after events
      fun unit hUnit => absurd hUnit List.not_mem_nil
  refine ⟨tick_entryShown hFine, ?_, ?_⟩
  · intro hRendering
    have hEntry :
        entry = (ppu.layersAt x).paletteEntry.toNat := by
      show ppu.entryShown.toNat = _
      rw [entryShown, if_pos hRendering]
    rw [hEntry]
    refine ⟨?_, ?_, ?_⟩
    · intro unit hOffers hFront
      have hSprite := hOffers.entry hPalettes
      rw [hOffers.toNat_paletteEntry hFine hPalettes,
        if_neg fun hHidden => ?_]
      · exact ⟨rfl, hSprite.2.1⟩
      · rcases hFront with hFront | hClear
        · exact Bool.eq_false_iff.mp hFront hHidden.1
        · exact hHidden.2 hClear
    · intro hBehind
      have hBackground := ppu.backgroundEntry_lt x
      have hSeen :
          (ppu.layersAt x).paletteEntry.toNat =
            background := by
        by_cases hOffered : ∃ unit, ppu.Offers x unit
        · rcases hOffered with ⟨unit, hOffers⟩
          rw [hOffers.toNat_paletteEntry hFine hPalettes,
            if_pos (hBehind unit hOffers)]
        · exact toNat_paletteEntry_of_no_offer hFine
            (not_exists.mp hOffered)
      refine ⟨hSeen, ?_⟩
      rw [hSeen]
      omega
    · refine (paletteEntry_unshared hFine hPalettes).imp_right ?_
      rintro ⟨hLast, hOwn⟩
      exact ⟨hLast, hOwn, fun address =>
        Palette.entryOf_eq_iff hOwn⟩
  · intro hIdle
    have hEntry : entry = ppu.backdrop.toNat := by
      show ppu.entryShown.toNat = _
      rw [entryShown, if_neg (Bool.eq_false_iff.mp hIdle)]
    rw [hEntry]
    exact ppu.toNat_backdrop

set_option maxRecDepth 2000 in
theorem layers_at_corner :
    let ppu := solidStart.after solidEvents
    ppu.raster.dot = 1 ∧
      ppu.registers.mask.rendering = true ∧
      ppu.layersAt 0 = ⟨3, some ⟨0x13, false, true⟩⟩ := by
  decide +kernel

/- Sprite 0 is seen in front of an opaque background. -/
theorem entry_at_corner :
    let ppu := solidStart.after solidEvents
    ∃ unit,
      ppu.Offers 0 unit ∧
      ppu.backgroundEntry 0 = 3 ∧
      ppu.entryShown.toNat =
        unit.palette.toNat + unit.numberAt 0 ∧
      16 < ppu.entryShown.toNat := by
  -- The run is evaluated only where the layers are found.
  have hReached :
      ∃ memory timing events,
        solidStart.after solidEvents =
          (powerOn memory timing).after events :=
    ⟨_, _, solidEvents, rfl⟩
  have hCorner := layers_at_corner
  rcases hReached with ⟨memory, timing, events, hRun⟩
  rw [hRun] at hCorner ⊢
  intro ppu
  rcases hCorner with ⟨hDot, hRendering, hLayers⟩
  have hFine : ppu.scroll.fineX < 8 :=
    fineX_lt memory timing events
  have hBackground := toNat_layersAt_background hFine 0
  rw [hLayers] at hBackground
  rcases layersAt_sprite_eq_some_iff.mp
    (congrArg Layers.sprite hLayers) with
    ⟨unit, hOffers, hPixel⟩
  have hFront : unit.isBehind = false :=
    congrArg SpritePixel.isBehind hPixel
  have hColumn : ppu.raster.dot - 1 = 0 := by
    rw [hDot]
  have hSeen :=
    ((entry_by_priority memory timing events).2.1
      hRendering).1 unit (hColumn.symm ▸ hOffers) (.inl hFront)
  exact ⟨unit, hOffers, hBackground.symm, hColumn ▸ hSeen⟩

end Ppu

end Famicom
