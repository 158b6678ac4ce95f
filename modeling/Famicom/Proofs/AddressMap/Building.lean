import Famicom.Proofs.AddressMap.Attaching

/-
  Which drafts become maps, and what is missing in others.

  Building sorts the regions of a draft and sweeps once over
  them.  At each region all addresses before some point are
  known to be covered, and what is covered from that point
  on is covered by the regions that are left.

  Key definitions include:
    * `AddressMap.Covered`
    * `AddressMap.LowestGap`
    * `AddressMap.Ascending`
    * `AddressMap.Swept`
    * `AddressMap.ofRegions`

  Main declarations:
    * `AddressMap.sortByStart_perm`
    * `AddressMap.ascending_sortByStart`
    * `AddressMap.build_of_laid`
    * `AddressMap.ofRegions_of_perm`
-/

namespace Famicom

namespace AddressMap

variable {δ : Type}

------------------------------------------------------------
-- Sorting
------------------------------------------------------------

/- Regions whose starts do not descend. -/
def ByStart (regions : List (Region δ)) : Prop :=
  regions.Pairwise fun region other =>
    region.range.first ≤ other.range.first

theorem insertByStart_perm
    (region : Region δ)
    (sorted : List (Region δ)) :
    (insertByStart region sorted).Perm
      (region :: sorted) := by
  induction sorted with
  | nil => exact .refl _
  | cons other rest ih =>
      unfold insertByStart
      split
      · exact (ih.cons other).trans (.swap region other rest)
      · exact .refl _

theorem insertByStart_byStart
    (region : Region δ)
    {sorted : List (Region δ)}
    (hSorted : ByStart sorted) :
    ByStart (insertByStart region sorted) := by
  induction sorted with
  | nil => exact List.pairwise_singleton _ _
  | cons other rest ih =>
      rcases List.pairwise_cons.mp hSorted with
        ⟨hOther, hRest⟩
      unfold insertByStart
      split
      · rename_i hLe
        refine List.pairwise_cons.mpr ⟨?_, ih hRest⟩
        intro later hLater
        rcases List.mem_cons.mp
          ((insertByStart_perm region rest).mem_iff.mp
            hLater) with hNew | hOld
        · rw [hNew]
          exact hLe
        · exact hOther later hOld
      · rename_i hLt
        have hBefore :
            region.range.first ≤ other.range.first :=
          UInt16.le_of_lt (UInt16.not_le.mp hLt)
        refine List.pairwise_cons.mpr ⟨?_, hSorted⟩
        intro later hLater
        rcases List.mem_cons.mp hLater with hNext | hRest
        · rw [hNext]
          exact hBefore
        · exact UInt16.le_trans hBefore (hOther later hRest)

/- What insertions do to the regions sorted so far. -/
theorem foldl_insertByStart
    (regions : List (Region δ))
    {sorted : List (Region δ)}
    (hSorted : ByStart sorted) :
    (regions.foldl
      (fun sorted region => insertByStart region sorted)
      sorted).Perm (regions ++ sorted) ∧
    ByStart
      (regions.foldl
        (fun sorted region => insertByStart region sorted)
        sorted) := by
  induction regions generalizing sorted with
  | nil => exact ⟨.refl _, hSorted⟩
  | cons region rest ih =>
      rcases ih (insertByStart_byStart region hSorted) with
        ⟨hPerm, hByStart⟩
      refine ⟨hPerm.trans ?_, hByStart⟩
      exact ((insertByStart_perm region sorted).append_left
        rest).trans List.perm_middle

theorem sortByStart_perm
    (regions : List (Region δ)) :
    (sortByStart regions).Perm regions := by
  have hPerm := (foldl_insertByStart regions
    List.Pairwise.nil).1
  rwa [List.append_nil] at hPerm

theorem sortByStart_byStart
    (regions : List (Region δ)) :
    ByStart (sortByStart regions) :=
  (foldl_insertByStart regions List.Pairwise.nil).2

------------------------------------------------------------
-- Ascending Regions
------------------------------------------------------------

/- Regions that end before the next one starts. -/
structure Ascending (regions : List (Region δ)) : Prop where
  ordered : ∀ region ∈ regions,
    region.range.first ≤ region.range.last
  chain : regions.Pairwise fun region other =>
    region.range.last < other.range.first

namespace Ascending

theorem head
    {region : Region δ}
    {rest : List (Region δ)}
    (hAscending : Ascending (region :: rest)) :
    region.range.first ≤ region.range.last :=
  hAscending.ordered region List.mem_cons_self

theorem tail
    {region : Region δ}
    {rest : List (Region δ)}
    (hAscending : Ascending (region :: rest)) :
    Ascending rest where
  ordered := fun other hOther =>
    hAscending.ordered other
      (List.mem_cons_of_mem region hOther)
  chain := (List.pairwise_cons.mp hAscending.chain).2

theorem head_before
    {region : Region δ}
    {rest : List (Region δ)}
    (hAscending : Ascending (region :: rest))
    {other : Region δ}
    (hOther : other ∈ rest) :
    region.range.last < other.range.first :=
  (List.pairwise_cons.mp hAscending.chain).1 other hOther

/- There is one way to list regions in ascending order. -/
theorem eq_of_perm
    {regions others : List (Region δ)}
    (hRegions : Ascending regions)
    (hOthers : Ascending others)
    (hPerm : regions.Perm others) : regions = others := by
  refine List.Perm.eq_of_pairwise ?_ hRegions.chain
    hOthers.chain hPerm
  intro region other hIn hOther hLt hGt
  have hBefore : other.range.last < region.range.last :=
    UInt16.lt_of_lt_of_le hGt (hRegions.ordered region hIn)
  have hAfter : region.range.last < other.range.last :=
    UInt16.lt_of_lt_of_le hLt (hOthers.ordered other hOther)
  exact absurd hAfter (UInt16.lt_asymm hBefore)

end Ascending

/-
  Laid regions ascend when sorted: a region that starts
  within another one shares that start with it.
-/
theorem ascending_sortByStart
    {regions : List (Region δ)}
    (hLaid : Laid regions) :
    Ascending (sortByStart regions) := by
  have hSorted : Laid (sortByStart regions) :=
    hLaid.perm (sortByStart_perm regions)
  refine ⟨fun region hIn => hSorted.ordered hIn, ?_⟩
  refine ((sortByStart_byStart regions).and
    hSorted.apart).imp_of_mem ?_
  rintro region other - hOther ⟨hLe, hApart⟩
  rw [← UInt16.not_le]
  intro hWithin
  refine hApart.ranges other.range.first
    (AddressRange.contains_iff.mpr ⟨hLe, hWithin⟩)
    (AddressRange.contains_iff.mpr
      ⟨UInt16.le_refl _, hSorted.ordered hOther⟩)

------------------------------------------------------------
-- Gaps
------------------------------------------------------------

/- Whether some region contains an address. -/
def Covered
    (regions : List (Region δ))
    (address : UInt16) : Prop :=
  ∃ region ∈ regions, region.range.contains address = true

theorem covered_iff_of_perm
    {regions others : List (Region δ)}
    (hPerm : others.Perm regions)
    {address : UInt16} :
    Covered others address ↔ Covered regions address := by
  unfold Covered
  simp only [hPerm.mem_iff]

/-
  The first addresses that no region contains: nothing in
  the range is covered, everything before it is, and so is
  the address after it if there is one.
-/
structure LowestGap
    (regions : List (Region δ))
    (gap : AddressRange) : Prop where
  nonempty : gap.first ≤ gap.last
  uncovered : ∀ address,
    gap.contains address = true → ¬Covered regions address
  lowest : ∀ address,
    address < gap.first → Covered regions address
  maximal :
    gap.last = 0xFFFF ∨ Covered regions (gap.last + 1)

theorem LowestGap.not_covered
    {regions : List (Region δ)}
    {gap : AddressRange}
    (hGap : LowestGap regions gap) :
    ¬∀ address, Covered regions address := fun hAll =>
  hGap.uncovered gap.first
    (AddressRange.contains_iff.mpr
      ⟨UInt16.le_refl _, hGap.nonempty⟩)
    (hAll gap.first)

theorem LowestGap.perm
    {regions others : List (Region δ)}
    {gap : AddressRange}
    (hGap : LowestGap others gap)
    (hPerm : others.Perm regions) :
    LowestGap regions gap where
  nonempty := hGap.nonempty
  uncovered := fun address hIn hCovered =>
    hGap.uncovered address hIn
      ((covered_iff_of_perm hPerm).mpr hCovered)
  lowest := fun address hBefore =>
    (covered_iff_of_perm hPerm).mp
      (hGap.lowest address hBefore)
  maximal := hGap.maximal.imp_right
    (covered_iff_of_perm hPerm).mp

------------------------------------------------------------
-- The Sweep
------------------------------------------------------------

/-
  The sweep has come to `next`: everything below is covered,
  and from there on only the rest covers anything.
-/
structure Swept
    (regions : List (Region δ))
    (next : Nat)
    (rest : List (Region δ)) : Prop where
  below : ∀ address,
    address.toNat < next → Covered regions address
  above : ∀ address,
    next ≤ address.toNat →
      Covered regions address → Covered rest address
  left : ∀ region ∈ rest, region ∈ regions
  starts : ∀ region ∈ rest,
    next ≤ region.range.first.toNat
  ascending : Ascending rest

namespace Swept

variable {regions rest : List (Region δ)}
variable {region : Region δ}
variable {next : Nat}

/- Before the first region nothing is known. -/
theorem start
    (hAscending : Ascending regions) :
    Swept regions 0 regions where
  below := fun _ hBelow => absurd hBelow (Nat.not_lt_zero _)
  above := fun _ _ hCovered => hCovered
  left := fun _ hIn => hIn
  starts := fun _ _ => Nat.zero_le _
  ascending := hAscending

/- A region that starts in time is swept over. -/
theorem step
    (hSwept : Swept regions next (region :: rest))
    (hStart : region.range.first.toNat ≤ next) :
    Swept regions (region.range.last.toNat + 1) rest := by
  have hOrdered := UInt16.le_iff_toNat_le.mp
    hSwept.ascending.head
  have hNext := hSwept.starts region List.mem_cons_self
  refine
    { below := ?_
      above := ?_
      left := fun other hOther =>
        hSwept.left other
          (List.mem_cons_of_mem region hOther)
      starts := fun other hOther =>
        UInt16.lt_iff_toNat_lt.mp
          (hSwept.ascending.head_before hOther)
      ascending := hSwept.ascending.tail }
  · intro address hBelow
    by_cases hOld : address.toNat < next
    · exact hSwept.below address hOld
    refine ⟨region,
      hSwept.left region List.mem_cons_self, ?_⟩
    rw [AddressRange.contains_iff, UInt16.le_iff_toNat_le,
      UInt16.le_iff_toNat_le]
    exact ⟨by omega, Nat.le_of_lt_succ hBelow⟩
  · intro address hAbove hCovered
    rcases hSwept.above address (by omega) hCovered with
      ⟨other, hOther, hContains⟩
    rcases List.mem_cons.mp hOther with hHead | hRest
    · rw [hHead, AddressRange.contains_iff,
        UInt16.le_iff_toNat_le, UInt16.le_iff_toNat_le]
        at hContains
      omega
    · exact ⟨other, hRest, hContains⟩

/- A region that starts late leaves a gap before it. -/
theorem gap_before
    (hSwept : Swept regions next (region :: rest))
    (hStart : next < region.range.first.toNat) :
    LowestGap regions
      ⟨next.toUInt16, region.range.first - 1⟩ := by
  have hSize := region.range.first.toNat_lt
  have hNext : next.toUInt16.toNat = next :=
    UInt16.toNat_ofNat_of_lt' (Nat.lt_trans hStart hSize)
  have hOne : (1 : UInt16) ≤ region.range.first :=
    UInt16.le_iff_toNat_le.mpr
      (show 1 ≤ region.range.first.toNat by omega)
  have hLast : (region.range.first - 1).toNat =
      region.range.first.toNat - 1 :=
    UInt16.toNat_sub_of_le _ _ hOne
  refine ⟨?_, ?_, ?_, .inr ?_⟩
  · rw [UInt16.le_iff_toNat_le, hNext, hLast]
    omega
  · intro address hContains hCovered
    rw [AddressRange.contains_iff, UInt16.le_iff_toNat_le,
      UInt16.le_iff_toNat_le, hNext, hLast] at hContains
    rcases hSwept.above address hContains.1 hCovered with
      ⟨other, hOther, hIn⟩
    have hFirst :
        region.range.first.toNat ≤
          other.range.first.toNat := by
      rcases List.mem_cons.mp hOther with hHead | hRest
      · exact Nat.le_of_eq (by rw [hHead])
      · exact Nat.le_of_lt
          (Nat.lt_of_le_of_lt
            (UInt16.le_iff_toNat_le.mp
              hSwept.ascending.head)
            (UInt16.lt_iff_toNat_lt.mp
              (hSwept.ascending.head_before hRest)))
    have hFrom := UInt16.le_iff_toNat_le.mp
      (AddressRange.contains_iff.mp hIn).1
    omega
  · intro address hBefore
    rw [UInt16.lt_iff_toNat_lt, hNext] at hBefore
    exact hSwept.below address hBefore
  · rw [UInt16.sub_add_cancel]
    exact ⟨region, hSwept.left region List.mem_cons_self,
      AddressRange.contains_iff.mpr
        ⟨UInt16.le_refl _, hSwept.ascending.head⟩⟩

/- After the last region the rest of the space is a gap. -/
theorem gap_after
    (hSwept : Swept regions next [])
    (hNext : next ≤ 0xFFFF) :
    LowestGap regions ⟨next.toUInt16, 0xFFFF⟩ := by
  have hFirst : next.toUInt16.toNat = next :=
    UInt16.toNat_ofNat_of_lt' (Nat.lt_succ_of_le hNext)
  refine ⟨?_, ?_, ?_, .inl rfl⟩
  · rw [UInt16.le_iff_toNat_le, hFirst]
    exact hNext
  · intro address hContains hCovered
    rw [AddressRange.contains_iff, UInt16.le_iff_toNat_le,
      hFirst] at hContains
    rcases hSwept.above address hContains.1 hCovered with
      ⟨other, hOther, _⟩
    exact absurd hOther List.not_mem_nil
  · intro address hBefore
    rw [UInt16.lt_iff_toNat_lt, hFirst] at hBefore
    exact hSwept.below address hBefore

end Swept

/- What the sweep finds, by induction on what is left. -/
theorem firstGap_of_swept
    {regions rest : List (Region δ)}
    {next : Nat}
    (hSwept : Swept regions next rest) :
    match firstGap next rest with
    | none => ∀ address, Covered regions address
    | some gap => LowestGap regions gap := by
  induction rest generalizing next with
  | nil =>
      unfold firstGap
      by_cases hNext : next ≤ 0xFFFF
      · rw [if_pos hNext]
        exact hSwept.gap_after hNext
      · rw [if_neg hNext]
        intro address
        have hSize := address.toNat_lt
        exact hSwept.below address (by omega)
  | cons region rest ih =>
      unfold firstGap
      by_cases hStart : next < region.range.first.toNat
      · rw [if_pos hStart]
        exact hSwept.gap_before hStart
      · rw [if_neg hStart]
        exact ih (hSwept.step (Nat.not_lt.mp hStart))

------------------------------------------------------------
-- Building
------------------------------------------------------------

/- What a map is to the regions it was built of. -/
structure BuiltOf
    (map : AddressMap δ)
    (requests : List (Region δ)) : Prop where
  perm : map.regions.Perm requests
  ascending : Ascending map.regions
  covered : ∀ address, Covered requests address

/-
  Building a draft gives a map of its regions, or the lowest
  gap between them.
-/
theorem build_of_laid
    {draft : Draft δ}
    (hLaid : Laid draft.regions) :
    match draft.build with
    | .ok map =>
        map.name = draft.name ∧ map.BuiltOf draft.regions
    | .error fault =>
        ∃ gap,
          LowestGap draft.regions gap ∧
          fault = .gap draft.name gap := by
  have hPerm := sortByStart_perm draft.regions
  have hAscending := ascending_sortByStart hLaid
  have hGap := firstGap_of_swept (Swept.start hAscending)
  unfold Draft.build
  generalize sortByStart draft.regions = sorted at *
  cases hSorted : sorted with
  | nil =>
      subst hSorted
      exact ⟨_, LowestGap.perm hGap hPerm, rfl⟩
  | cons lowest others =>
      subst hSorted
      cases hFirst : firstGap 0 (lowest :: others) with
      | none =>
          rw [hFirst] at hGap
          refine ⟨rfl, hPerm, hAscending, fun address => ?_⟩
          exact (covered_iff_of_perm hPerm).mp (hGap address)
      | some gap =>
          rw [hFirst] at hGap
          exact ⟨gap, LowestGap.perm hGap hPerm, rfl⟩

/- Maps of the same regions under one name are equal. -/
theorem BuiltOf.eq_of_perm
    {map other : AddressMap δ}
    {regions requests : List (Region δ)}
    (hMap : map.BuiltOf regions)
    (hOther : other.BuiltOf requests)
    (hPerm : regions.Perm requests)
    (hName : map.name = other.name) : map = other := by
  have hRegions : map.regions = other.regions :=
    hMap.ascending.eq_of_perm hOther.ascending
      ((hMap.perm.trans hPerm).trans hOther.perm.symm)
  rcases map with ⟨name, lowest, others⟩
  rcases other with ⟨otherName, otherLowest, otherOthers⟩
  rcases List.cons.inj hRegions with ⟨hLowest, hOthers⟩
  have hNames : name = otherName := hName
  subst hNames hLowest hOthers
  rfl

/- A map of given regions. -/
def ofRegions
    (name : String)
    (requests : List (Region δ)) :
    Except Fault (AddressMap δ) := do
  let draft ← (Draft.empty name).attachAll requests
  draft.build

/- When a list of regions gives a map, and which one. -/
theorem ofRegions_eq_ok_iff
    {name : String}
    {requests : List (Region δ)}
    {map : AddressMap δ} :
    ofRegions name requests = .ok map ↔
      Laid requests ∧
      map.name = name ∧
      map.BuiltOf requests := by
  have hAttach {next : Draft δ} :
      (Draft.empty name).attachAll requests = .ok next ↔
        Laid requests ∧ next = ⟨name, requests⟩ :=
    Draft.attachAll_of_laid Laid.nil
  unfold ofRegions
  cases hDraft : (Draft.empty name).attachAll requests with
  | error fault =>
      constructor
      · exact nofun
      · rintro ⟨hLaid, _⟩
        have hOk := hAttach.mpr ⟨hLaid, rfl⟩
        rw [hDraft] at hOk
        nomatch hOk
  | ok draft =>
      rcases hAttach.mp hDraft with ⟨hLaid, hNext⟩
      subst hNext
      have hBuild := build_of_laid
        (show Laid (Draft.regions ⟨name, requests⟩)
          from hLaid)
      show Draft.build ⟨name, requests⟩ = .ok map ↔ _
      cases hResult : Draft.build ⟨name, requests⟩ with
      | ok built =>
          rw [hResult] at hBuild
          rcases hBuild with ⟨hName, hBuilt⟩
          constructor
          · intro hMap
            cases hMap
            exact ⟨hLaid, hName, hBuilt⟩
          · rintro ⟨_, hMapName, hMap⟩
            rw [hBuilt.eq_of_perm hMap (.refl _)
              (hName.trans hMapName.symm)]
      | error fault =>
          rw [hResult] at hBuild
          rcases hBuild with ⟨gap, hGap, _⟩
          constructor
          · exact nofun
          · rintro ⟨_, _, hMap⟩
            exact absurd hMap.covered hGap.not_covered

/- The order of the regions makes no difference. -/
theorem ofRegions_of_perm
    {name : String}
    {requests others : List (Region δ)}
    (hPerm : others.Perm requests)
    {map : AddressMap δ}
    (hMap : ofRegions name requests = .ok map) :
    ofRegions name others = .ok map := by
  rcases ofRegions_eq_ok_iff.mp hMap with
    ⟨hLaid, hName, hBuilt⟩
  refine ofRegions_eq_ok_iff.mpr
    ⟨hLaid.perm hPerm, hName,
      hBuilt.perm.trans hPerm.symm, hBuilt.ascending, ?_⟩
  exact fun address =>
    (covered_iff_of_perm hPerm).mpr (hBuilt.covered address)

end AddressMap

end Famicom
