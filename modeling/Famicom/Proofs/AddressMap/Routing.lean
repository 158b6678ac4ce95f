import Famicom.Console.Board
import Famicom.Proofs.AddressMap.Building

/-
  Where accesses to a map go.

  The lookup takes the last region that starts in time.  On
  ascending regions that is the region that contains the
  address, if there is one, and on the regions of a built
  map there always is.

  Key definitions include:
    * `AddressMap.Routes`

  Main declarations:
    * `AddressMap.lastStarting_of_contains`
    * `AddressMap.BuiltOf.regionAt_eq`
    * `AddressMap.BuiltOf.routes`
    * `AddressMap.one_owner_per_address`
-/

namespace Famicom

namespace AddressMap

variable {δ : Type}

------------------------------------------------------------
-- Lookup
------------------------------------------------------------

/-
  The lookup finds the region that contains an address: the
  regions before it start in time, and those after it start
  too late.
-/
theorem lastStarting_of_contains
    {address : UInt16}
    {current : Region δ}
    {rest : List (Region δ)}
    (hAscending : Ascending (current :: rest))
    {region : Region δ}
    (hIn : region ∈ current :: rest)
    (hContains : region.range.contains address = true) :
    lastStarting address current rest = region := by
  rcases AddressRange.contains_iff.mp hContains with
    ⟨hFrom, hTo⟩
  induction rest generalizing current with
  | nil => exact (List.mem_singleton.mp hIn).symm
  | cons next rest ih =>
      have hBefore :=
        hAscending.head_before List.mem_cons_self
      unfold lastStarting
      by_cases hStart : next.range.first ≤ address
      · rw [if_pos hStart]
        refine ih hAscending.tail
          ((List.mem_cons.mp hIn).resolve_left ?_)
        intro hCurrent
        rw [hCurrent] at hTo
        exact absurd (UInt16.lt_of_lt_of_le hBefore hStart)
          (UInt16.not_lt.mpr hTo)
      · rw [if_neg hStart]
        rcases List.mem_cons.mp hIn with hCurrent | hLater
        · exact hCurrent.symm
        refine absurd (UInt16.le_trans ?_ hFrom) hStart
        rcases List.mem_cons.mp hLater with hNext | hRest
        · rw [hNext]
          exact UInt16.le_refl _
        · exact UInt16.le_trans hAscending.tail.head
            (UInt16.le_of_lt
              (hAscending.tail.head_before hRest))

/- A change that keeps the ranges keeps the lookup. -/
theorem lastStarting_map
    (change : Region δ → Region δ)
    (hRange : ∀ region, (change region).range = region.range)
    (address : UInt16)
    (current : Region δ)
    (rest : List (Region δ)) :
    lastStarting address (change current)
        (rest.map change) =
      change (lastStarting address current rest) := by
  induction rest generalizing current with
  | nil => rfl
  | cons next rest ih =>
      rw [List.map_cons]
      unfold lastStarting
      rw [hRange, ih]
      split <;> rfl

/- Replacing a device changes what answers, not where. -/
theorem regionAt_setDevice
    (map : AddressMap δ)
    (name : String)
    (device : δ)
    (address : UInt16) :
    (map.setDevice name device).regionAt address =
      if (map.regionAt address).name == name then
        { map.regionAt address with device := device }
      else
        map.regionAt address := by
  refine lastStarting_map
    (fun region =>
      if region.name == name then
        { region with device := device }
      else
        region) ?_ address map.lowest map.others
  intro region
  split <;> rfl

------------------------------------------------------------
-- Routes
------------------------------------------------------------

/-
  How a map answers at an address that a region contains.
  The device sees the distance from the start of its range,
  or that distance modulo a size.  An access acts on that
  device and on no other one.
-/
structure Routes
    (map : AddressMap δ)
    (address : UInt16)
    (region : Region δ) : Prop where
  owner : map.owner address = region.name
  resolve :
    map.resolve address =
      (region.device, region.localAddress address)
  distance :
    (region.localAddress address).toNat =
      match region.fold with
      | .offset =>
          address.toNat - region.range.first.toNat
      | .wrap size =>
          (address.toNat - region.range.first.toNat) %
            size.toNat
  access : ∀ {α : Type} (act : UInt16 → StateT δ Option α),
    AddressMap.access act address map =
      (act (region.localAddress address) region.device).map
        fun (result, device) =>
          (result, map.setDevice region.name device)
  effect : ∀ device other,
    (map.setDevice region.name device).resolve other =
      if region.range.contains other then
        (device, region.localAddress other)
      else
        map.resolve other

/- The folded distance, computed without overflow. -/
theorem Region.localAddress_toNat
    {region : Region δ}
    {address : UInt16}
    (hContains : region.range.contains address = true) :
    (region.localAddress address).toNat =
      match region.fold with
      | .offset =>
          address.toNat - region.range.first.toNat
      | .wrap size =>
          (address.toNat - region.range.first.toNat) %
            size.toNat := by
  have hDistance :
      (address - region.range.first).toNat =
        address.toNat - region.range.first.toNat :=
    UInt16.toNat_sub_of_le _ _
      (AddressRange.contains_iff.mp hContains).1
  unfold Region.localAddress AddressFold.apply
  cases region.fold with
  | offset => exact hDistance
  | wrap size =>
      dsimp only
      rw [UInt16.toNat_mod, hDistance]

namespace BuiltOf

variable {map : AddressMap δ}
variable {requests : List (Region δ)}

/- The region that answers is the one that contains. -/
theorem regionAt_eq
    (hBuilt : map.BuiltOf requests)
    {region : Region δ}
    (hIn : region ∈ requests)
    {address : UInt16}
    (hContains : region.range.contains address = true) :
    map.regionAt address = region :=
  lastStarting_of_contains hBuilt.ascending
    (hBuilt.perm.mem_iff.mpr hIn) hContains

/- Every address has a region, which then answers. -/
theorem regionAt_spec
    (hBuilt : map.BuiltOf requests)
    (address : UInt16) :
    map.regionAt address ∈ requests ∧
      (map.regionAt address).range.contains address =
        true := by
  rcases hBuilt.covered address with
    ⟨region, hIn, hContains⟩
  rw [hBuilt.regionAt_eq hIn hContains]
  exact ⟨hIn, hContains⟩

/- A replaced device answers where its region is. -/
theorem resolve_setDevice
    (hBuilt : map.BuiltOf requests)
    (hLaid : Laid requests)
    {region : Region δ}
    (hIn : region ∈ requests)
    (device : δ)
    (other : UInt16) :
    (map.setDevice region.name device).resolve other =
      if region.range.contains other then
        (device, region.localAddress other)
      else
        map.resolve other := by
  rcases hBuilt.regionAt_spec other with ⟨hAt, hOther⟩
  unfold AddressMap.resolve
  rw [regionAt_setDevice]
  by_cases hContains : region.range.contains other = true
  · rw [if_pos hContains, hBuilt.regionAt_eq hIn hContains,
      if_pos (beq_self_eq_true region.name)]
    rfl
  · have hName :
        ¬((map.regionAt other).name == region.name) =
          true := by
      intro hSame
      have hEq := hLaid.eq_of_name hAt hIn
        (beq_iff_eq.mp hSame)
      rw [hEq] at hOther
      exact hContains hOther
    rw [if_neg hContains, if_neg hName]

theorem routes
    (hBuilt : map.BuiltOf requests)
    (hLaid : Laid requests)
    {region : Region δ}
    (hIn : region ∈ requests)
    {address : UInt16}
    (hContains : region.range.contains address = true) :
    map.Routes address region := by
  have hAt := hBuilt.regionAt_eq hIn hContains
  refine
    { owner := congrArg Region.name hAt
      resolve := ?_
      distance := Region.localAddress_toNat hContains
      access := ?_
      effect := hBuilt.resolve_setDevice hLaid hIn }
  · unfold AddressMap.resolve
    rw [hAt]
  · intro α act
    unfold AddressMap.access
    rw [hAt]
    dsimp only
    generalize act (region.localAddress address)
      region.device = outcome
    cases outcome <;> rfl

end BuiltOf

------------------------------------------------------------
-- Ownership
------------------------------------------------------------

/-
  Attaching, building and looking up, for any list of
  regions that was attached.  A further region is accepted
  exactly if it fits beside the list.  Building succeeds
  exactly if the list covers all addresses, and names the
  lowest gap otherwise.  A built map routes every address to
  the one region of the list that contains it, and it is the
  map that the list gives in any other order.
-/
theorem one_owner_per_address
    {name : String}
    {requests : List (Region δ)}
    {draft : Draft δ}
    (hDraft :
      (Draft.empty name).attachAll requests = .ok draft) :
    (∀ region,
      (∃ next, draft.attach region = .ok next) ↔
        region.FitsBeside requests) ∧
    ((∃ map, draft.build = .ok map) ↔
      ∀ address, Covered requests address) ∧
    ((∃ address, ¬Covered requests address) →
      ∃ gap,
        LowestGap requests gap ∧
        draft.build = .error (.gap name gap)) ∧
    ∀ map, draft.build = .ok map →
      (∀ address,
        ∃ region ∈ requests,
          region.range.contains address = true ∧
          (∀ other ∈ requests,
            other.range.contains address = true →
              other = region) ∧
          map.Routes address region) ∧
      ∀ others, others.Perm requests →
        ofRegions name others = .ok map := by
  rcases (Draft.attachAll_of_laid Laid.nil).mp hDraft with
    ⟨hLaid, hNext⟩
  have hRegions : draft.regions = requests := by
    rw [hNext]
    rfl
  have hName : draft.name = name := by
    rw [hNext]
    rfl
  replace hLaid : Laid draft.regions := by
    rw [hRegions]
    exact hLaid
  have hBuild := build_of_laid hLaid
  rw [hRegions, hName] at hBuild
  refine ⟨fun region => ?_, ?_, ?_, ?_⟩
  · rw [← hRegions, ← hLaid.append_singleton_iff]
    constructor
    · rintro ⟨next, hAttach⟩
      exact ((Draft.attach_of_laid hLaid).mp hAttach).1
    · intro hFits
      exact ⟨_, (Draft.attach_of_laid hLaid).mpr
        ⟨hFits, rfl⟩⟩
  · cases hResult : draft.build with
    | ok map =>
        rw [hResult] at hBuild
        exact ⟨fun _ => hBuild.2.covered, fun _ => ⟨map, rfl⟩⟩
    | error fault =>
        rw [hResult] at hBuild
        rcases hBuild with ⟨gap, hGap, _⟩
        refine ⟨nofun, fun hAll => ?_⟩
        exact absurd hAll hGap.not_covered
  · rintro ⟨address, hUncovered⟩
    cases hResult : draft.build with
    | ok map =>
        rw [hResult] at hBuild
        exact absurd (hBuild.2.covered address) hUncovered
    | error fault =>
        rw [hResult] at hBuild
        rcases hBuild with ⟨gap, hGap, hFault⟩
        exact ⟨gap, hGap, congrArg Except.error hFault⟩
  · intro map hMap
    rw [hMap] at hBuild
    rcases hBuild with ⟨hMapName, hBuilt⟩
    rw [hRegions] at hLaid
    refine ⟨fun address => ?_, fun others hPerm => ?_⟩
    · rcases hBuilt.covered address with
        ⟨region, hIn, hContains⟩
      refine ⟨region, hIn, hContains, ?_,
        hBuilt.routes hLaid hIn hContains⟩
      intro other hOther hOtherContains
      exact hLaid.eq_of_contains hOther hIn hOtherContains
        hContains
    · exact ofRegions_of_perm hPerm
        (ofRegions_eq_ok_iff.mpr
          ⟨hLaid, hMapName, hBuilt⟩)

/- The map of the console is such a map. -/
theorem one_owner_on_board :
    (Draft.empty "CPU").attachAll Board.regions =
      .ok ⟨"CPU", Board.regions⟩ ∧
    ∃ map,
      Board.addressMap = .ok map ∧
      ∀ address,
        ∃ region ∈ Board.regions,
          region.range.contains address = true ∧
          map.Routes address region := by
  have hDraft : (Draft.empty "CPU").attachAll Board.regions =
      .ok ⟨"CPU", Board.regions⟩ := rfl
  refine ⟨hDraft, _, rfl, fun address => ?_⟩
  rcases ((one_owner_per_address hDraft).2.2.2 _ rfl).1
    address with ⟨region, hIn, hContains, _, hRoutes⟩
  exact ⟨region, hIn, hContains, hRoutes⟩

end AddressMap

end Famicom
