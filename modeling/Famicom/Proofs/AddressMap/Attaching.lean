import Famicom.AddressMap
import Mathlib.Data.List.Pairwise

/-
  Which regions a draft accepts.

  The regions of a draft have pairwise different names and
  pairwise no common address, and none is without addresses.
  Attaching keeps that, and refuses nothing else.

  Key definitions include:
    * `AddressMap.Region.Apart`
    * `AddressMap.Region.FitsBeside`
    * `AddressMap.Laid`

  Main declarations:
    * `AddressMap.Draft.attach_of_laid`
    * `AddressMap.Draft.attachAll_of_laid`
-/

namespace Famicom

------------------------------------------------------------
-- Ranges
------------------------------------------------------------

namespace AddressRange

theorem contains_iff
    {range : AddressRange}
    {address : UInt16} :
    range.contains address = true ↔
      range.first ≤ address ∧ address ≤ range.last := by
  unfold contains
  rw [Bool.and_eq_true, decide_eq_true_iff,
    decide_eq_true_iff]

/-
  Two ranges overlap if they share an address.  The larger
  start is such an address.
-/
theorem overlaps_iff
    {range other : AddressRange}
    (hRange : range.first ≤ range.last)
    (hOther : other.first ≤ other.last) :
    range.overlaps other = true ↔
      ∃ address,
        range.contains address = true ∧
        other.contains address = true := by
  simp only [contains_iff]
  unfold overlaps
  rw [Bool.and_eq_true, decide_eq_true_iff,
    decide_eq_true_iff]
  constructor
  · rintro ⟨hFirst, hLast⟩
    rcases UInt16.le_total range.first other.first with
      hLe | hLe
    · exact ⟨other.first, ⟨hLe, hLast⟩,
        UInt16.le_refl _, hOther⟩
    · exact ⟨range.first, ⟨UInt16.le_refl _, hRange⟩,
        hLe, hFirst⟩
  · rintro ⟨address, ⟨hFrom, hTo⟩, hOtherFrom, hOtherTo⟩
    exact ⟨UInt16.le_trans hFrom hOtherTo,
      UInt16.le_trans hOtherFrom hTo⟩

end AddressRange

namespace AddressMap

variable {δ : Type}

------------------------------------------------------------
-- Regions
------------------------------------------------------------

namespace Region

theorem isEmpty_eq_false_iff
    {region : Region δ} :
    region.isEmpty = false ↔
      region.range.first ≤ region.range.last ∧
        region.fold ≠ .wrap 0 := by
  unfold isEmpty AddressRange.isEmpty
  rw [Bool.or_eq_false_iff, decide_eq_false_iff_not,
    UInt16.not_lt]
  refine and_congr_right fun _ => ?_
  cases hFold : region.fold with
  | offset => simp [AddressFold.isEmpty]
  | wrap size => simp [AddressFold.isEmpty]

/- Regions with different names and no common address. -/
structure Apart
    (region other : Region δ) : Prop where
  names : region.name ≠ other.name
  ranges : ∀ address,
    region.range.contains address = true →
      ¬other.range.contains address = true

theorem Apart.symm
    {region other : Region δ}
    (hApart : region.Apart other) : other.Apart region where
  names := hApart.names.symm
  ranges := fun address hOther hRegion =>
    hApart.ranges address hRegion hOther

instance : Std.Symm (@Apart δ) where
  symm := fun _ _ hApart => hApart.symm

/-
  A region that can join others: it has addresses and a way
  to answer them, its name is new, and it shares no address
  with them.
-/
structure FitsBeside
    (region : Region δ)
    (attached : List (Region δ)) : Prop where
  ordered : region.range.first ≤ region.range.last
  folded : region.fold ≠ .wrap 0
  named : ∀ other ∈ attached, other.name ≠ region.name
  free : ∀ other ∈ attached, ∀ address,
    other.range.contains address = true →
      ¬region.range.contains address = true

end Region

------------------------------------------------------------
-- Laid Regions
------------------------------------------------------------

/- Regions as a draft has them, in any order. -/
structure Laid (regions : List (Region δ)) : Prop where
  nonempty : ∀ region ∈ regions, region.isEmpty = false
  apart : regions.Pairwise Region.Apart

namespace Laid

theorem nil : Laid ([] : List (Region δ)) where
  nonempty := fun _ hIn => absurd hIn List.not_mem_nil
  apart := .nil

theorem ordered
    {regions : List (Region δ)}
    (hLaid : Laid regions)
    {region : Region δ}
    (hIn : region ∈ regions) :
    region.range.first ≤ region.range.last :=
  (Region.isEmpty_eq_false_iff.mp
    (hLaid.nonempty region hIn)).1

/- Being laid does not depend on the order. -/
theorem perm
    {regions others : List (Region δ)}
    (hLaid : Laid regions)
    (hPerm : others.Perm regions) : Laid others where
  nonempty := fun region hIn =>
    hLaid.nonempty region (hPerm.mem_iff.mp hIn)
  apart :=
    (hPerm.pairwise_iff fun h => h.symm).mpr hLaid.apart

/- At most one region of those contains an address. -/
theorem eq_of_contains
    {regions : List (Region δ)}
    (hLaid : Laid regions)
    {region other : Region δ}
    (hIn : region ∈ regions)
    (hOther : other ∈ regions)
    {address : UInt16}
    (hRegion : region.range.contains address = true)
    (hContains : other.range.contains address = true) :
    region = other := by
  by_contra hNe
  have hApart : region.Apart other :=
    hLaid.apart.forall hIn hOther hNe
  exact hApart.ranges address hRegion hContains

/- At most one region of those has a name. -/
theorem eq_of_name
    {regions : List (Region δ)}
    (hLaid : Laid regions)
    {region other : Region δ}
    (hIn : region ∈ regions)
    (hOther : other ∈ regions)
    (hName : region.name = other.name) :
    region = other := by
  by_contra hNe
  have hApart : region.Apart other :=
    hLaid.apart.forall hIn hOther hNe
  exact hApart.names hName

theorem append_singleton_iff
    {regions : List (Region δ)}
    (hLaid : Laid regions)
    {region : Region δ} :
    Laid (regions ++ [region]) ↔
      region.FitsBeside regions := by
  constructor
  · rintro ⟨hNonempty, hApart⟩
    rw [List.pairwise_append] at hApart
    have hBeside : ∀ other ∈ regions, other.Apart region :=
      fun other hOther =>
        hApart.2.2 other hOther region
          (List.mem_singleton_self region)
    have hRegion := Region.isEmpty_eq_false_iff.mp
      (hNonempty region
        (List.mem_append_right _
          (List.mem_singleton_self region)))
    exact ⟨hRegion.1, hRegion.2,
      fun other hOther => (hBeside other hOther).names,
      fun other hOther => (hBeside other hOther).ranges⟩
  · intro hFits
    refine ⟨fun other hOther => ?_, ?_⟩
    · rcases List.mem_append.mp hOther with hOld | hNew
      · exact hLaid.nonempty other hOld
      · rw [List.mem_singleton.mp hNew,
          Region.isEmpty_eq_false_iff]
        exact ⟨hFits.ordered, hFits.folded⟩
    · rw [List.pairwise_append]
      refine ⟨hLaid.apart, List.pairwise_singleton _ _, ?_⟩
      intro other hOther new hNew
      rw [List.mem_singleton.mp hNew]
      exact ⟨hFits.named other hOther,
        hFits.free other hOther⟩

end Laid

------------------------------------------------------------
-- Attaching
------------------------------------------------------------

namespace Draft

/- What attaching checks, and what it gives. -/
theorem attach_eq_ok_iff
    {draft next : Draft δ}
    {region : Region δ} :
    draft.attach region = .ok next ↔
      (region.isEmpty = false ∧
        (∀ other ∈ draft.regions,
          other.name ≠ region.name) ∧
        ∀ other ∈ draft.regions,
          ¬other.range.overlaps region.range = true) ∧
      next =
        { draft with
          regions := draft.regions ++ [region] } := by
  unfold attach
  by_cases hEmpty : region.isEmpty = true
  · rw [if_pos hEmpty]
    simp [hEmpty]
  rw [if_neg hEmpty]
  by_cases hName :
      (draft.regions.any (·.name == region.name)) = true
  · rw [if_pos hName]
    rw [List.any_eq_true] at hName
    rcases hName with ⟨other, hOther, hName⟩
    have hTaken : other.name = region.name :=
      beq_iff_eq.mp hName
    constructor
    · exact nofun
    · rintro ⟨⟨_, hNames, _⟩, _⟩
      exact absurd hTaken (hNames other hOther)
  rw [if_neg hName]
  have hNames : ∀ other ∈ draft.regions,
      other.name ≠ region.name := by
    intro other hOther hTaken
    exact hName
      (List.any_eq_true.mpr
        ⟨other, hOther, beq_iff_eq.mpr hTaken⟩)
  cases hFind :
      draft.regions.find? (·.range.overlaps region.range)
    with
  | some other =>
      have hOther := List.mem_of_find?_eq_some hFind
      have hOverlaps := List.find?_some hFind
      constructor
      · exact nofun
      · rintro ⟨⟨_, _, hFree⟩, _⟩
        exact absurd hOverlaps (hFree other hOther)
  | none =>
      have hFree := List.find?_eq_none.mp hFind
      have hEmpty := Bool.not_eq_true _ ▸ hEmpty
      constructor
      · intro hNext
        exact ⟨⟨hEmpty, hNames, hFree⟩,
          (Except.ok.inj hNext).symm⟩
      · rintro ⟨_, hNext⟩
        rw [hNext]

/-
  On laid regions the check for overlaps is a check for
  common addresses, and what is attached is laid again.
-/
theorem attach_of_laid
    {draft next : Draft δ}
    (hLaid : Laid draft.regions)
    {region : Region δ} :
    draft.attach region = .ok next ↔
      Laid (draft.regions ++ [region]) ∧
      next =
        { draft with
          regions := draft.regions ++ [region] } := by
  rw [attach_eq_ok_iff, hLaid.append_singleton_iff]
  refine and_congr_left fun _ => ?_
  rw [Region.isEmpty_eq_false_iff]
  constructor
  · rintro ⟨⟨hOrdered, hFold⟩, hNames, hFree⟩
    refine ⟨hOrdered, hFold, hNames, ?_⟩
    intro other hOther address hContains hRegion
    exact hFree other hOther
      ((AddressRange.overlaps_iff (hLaid.ordered hOther)
        hOrdered).mpr ⟨address, hContains, hRegion⟩)
  · intro hFits
    refine ⟨⟨hFits.ordered, hFits.folded⟩, hFits.named, ?_⟩
    intro other hOther hOverlaps
    rcases (AddressRange.overlaps_iff (hLaid.ordered hOther)
      hFits.ordered).mp hOverlaps with
      ⟨address, hContains, hRegion⟩
    exact hFits.free other hOther address hContains hRegion

/-
  A list is attached if the regions are laid in the end.  An
  induction on the list, with the draft before each region
  laid.
-/
theorem attachAll_of_laid
    {draft next : Draft δ}
    (hLaid : Laid draft.regions)
    {requests : List (Region δ)} :
    draft.attachAll requests = .ok next ↔
      Laid (draft.regions ++ requests) ∧
      next =
        { draft with
          regions := draft.regions ++ requests } := by
  induction requests generalizing draft with
  | nil =>
      rw [List.append_nil]
      constructor
      · intro hNext
        exact ⟨hLaid, (Except.ok.inj hNext).symm⟩
      · rintro ⟨_, hNext⟩
        rw [hNext]
        rfl
  | cons region rest ih =>
      have hAppend :
          draft.regions ++ region :: rest =
            (draft.regions ++ [region]) ++ rest := by
        rw [List.append_assoc, List.singleton_append]
      rw [hAppend]
      have hCons : draft.attachAll (region :: rest) =
          draft.attach region >>= fun draft =>
            draft.attachAll rest := List.foldlM_cons
      rw [hCons]
      cases hAttach : draft.attach region with
      | ok attached =>
          rcases (attach_of_laid hLaid).mp hAttach with
            ⟨hRegion, hAttached⟩
          have hRest : Laid attached.regions := by
            rw [hAttached]
            exact hRegion
          refine (ih hRest).trans ?_
          rw [hAttached]
      | error fault =>
          have hRefused : ¬Laid (draft.regions ++ [region]) :=
            fun hRegion => by
              have hOk := (attach_of_laid hLaid).mpr
                ⟨hRegion, rfl⟩
              rw [hAttach] at hOk
              nomatch hOk
          constructor
          · exact nofun
          · rintro ⟨hAll, _⟩
            exact absurd ⟨fun other hIn =>
                hAll.nonempty other
                  (List.mem_append_left rest hIn),
              (List.pairwise_append.mp hAll.apart).1⟩
              hRefused

end Draft

end AddressMap

end Famicom
