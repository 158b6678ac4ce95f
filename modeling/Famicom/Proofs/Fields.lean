import Famicom.Bits.Field
import Mathlib

/-
  Groups of bits as parts of a word.

  A group is read and written without regard to the rest of
  the word.  What is written into it is read back, cut to its
  size, and nothing else of the word changes.

  Key definitions include:
    * `Bits.Field.StartsAt`
    * `Bits.Field.Covers`
    * `Bits.Field.Contiguous`
    * `Bits.Field.size`
    * `Bits.Field.Disjoint`

  Main declarations:
    * `Bits.Field.startsAt_offset`
    * `Bits.Field.getLsbD_get`
    * `Bits.Field.getLsbD_set`
    * `Bits.Field.Contiguous.covers`
    * `Bits.Field.groups_are_lenses`
-/

namespace Famicom

namespace Bits

namespace Field

variable {w : Nat} {field : Field w}

------------------------------------------------------------
-- Places
------------------------------------------------------------

/- The lowest bit of the mask is at a place. -/
def StartsAt
    (field : Field w)
    (place : Nat) : Prop :=
  field.mask.getLsbD place = true ∧
    ∀ below < place, field.mask.getLsbD below = false

namespace StartsAt

variable {place : Nat}

/- A bit of the mask is at its lowest one or above. -/
theorem le
    (hStart : field.StartsAt place)
    {other : Nat}
    (hBit : field.mask.getLsbD other = true) :
    place ≤ other := by
  by_contra hBelow
  have hNone := hStart.2 other (by omega)
  rw [hBit] at hNone
  contradiction

theorem unique
    {other : Nat}
    (hStart : field.StartsAt place)
    (hOther : field.StartsAt other) :
    place = other :=
  Nat.le_antisymm (hStart.le hOther.1) (hOther.le hStart.1)

end StartsAt

theorem mask_ne_zero
    {place : Nat}
    (hBit : field.mask.getLsbD place = true) :
    field.mask ≠ 0 := by
  intro hZero
  simp [hZero] at hBit

/- The bit that the search looks at. -/
theorem shifted_and_one_eq_zero_iff
    {place : Nat}
    (hPlace : place < w) :
    (field.mask >>> place) &&& 1 = 0 ↔
      field.mask.getLsbD place = false := by
  have hOne (other : Nat) :
      ((field.mask >>> place) &&& 1).getLsbD other =
        (field.mask.getLsbD (place + other) &&
          decide (other = 0)) := by
    rw [BitVec.getLsbD_and, BitVec.getLsbD_ushiftRight]
    show (_ && (1#w).getLsbD other) = _
    rw [BitVec.getLsbD_one, decide_eq_true (by omega : 0 < w),
      Bool.true_and]
  constructor
  · intro hNone
    have hBit := hOne 0
    rw [hNone] at hBit
    simpa using hBit.symm
  · intro hBit
    apply BitVec.eq_of_getLsbD_eq
    intro other _
    rw [hOne]
    rcases Nat.eq_zero_or_pos other with rfl | hOther
    · simpa using hBit
    · simp [Nat.ne_of_gt hOther]

section Unsearched

variable {place : Nat}
variable (hMask : field.mask ≠ 0)
variable
  (hNone : ∀ below < place, field.mask.getLsbD below = false)

include hMask hNone

/- A mask without bits below a place has some from it on. -/
theorem exists_bit_from :
    ∃ other, place ≤ other ∧
      field.mask.getLsbD other = true := by
  by_contra hAbsent
  apply hMask
  apply BitVec.eq_of_getLsbD_eq
  intro other _
  have hOther : field.mask.getLsbD other = false := by
    rcases Nat.lt_or_ge other place with hBelow | hFrom
    · exact hNone other hBelow
    · exact Bool.eq_false_iff.mpr
        fun hBit => hAbsent ⟨other, hFrom, hBit⟩
  simpa using hOther

theorem place_lt_width : place < w := by
  rcases exists_bit_from hMask hNone with
    ⟨other, hFrom, hBit⟩
  exact hFrom.trans_lt (BitVec.lt_of_getLsbD hBit)

theorem shifted_ne_zero : field.mask >>> place ≠ 0 := by
  intro hZero
  rcases exists_bit_from hMask hNone with
    ⟨other, hFrom, hBit⟩
  have hOther := congrArg (·.getLsbD (other - place)) hZero
  simp [Nat.add_sub_cancel' hFrom, hBit] at hOther

end Unsearched

/-
  The search passes no bit.  In a word of 32 bits or less it
  ends at one, because while the mask has bits left there are
  places left.
-/
theorem startsAt_offsetFrom
    (hWidth : w ≤ 32)
    (hMask : field.mask ≠ 0)
    (place : Nat)
    (hNone :
      ∀ below < place, field.mask.getLsbD below = false) :
    field.StartsAt (field.offsetFrom place) := by
  have hPlace := place_lt_width hMask hNone
  fun_induction offsetFrom field place with
  | case1 place hGo ih =>
      have hNext :
          ∀ below < place + 1,
            field.mask.getLsbD below = false := by
        intro below hBelow
        rcases Nat.lt_succ_iff_lt_or_eq.mp hBelow with
          hLess | rfl
        · exact hNone below hLess
        · exact (shifted_and_one_eq_zero_iff hPlace).mp
            hGo.2.1
      exact ih hNext (place_lt_width hMask hNext)
  | case2 place hStop =>
      refine ⟨?_, hNone⟩
      by_contra hUnset
      exact hStop ⟨by omega,
        (shifted_and_one_eq_zero_iff hPlace).mpr
          (Bool.eq_false_iff.mpr hUnset),
        shifted_ne_zero hMask hNone⟩

theorem startsAt_offset
    (hWidth : w ≤ 32)
    (hMask : field.mask ≠ 0) :
    field.StartsAt field.offset :=
  startsAt_offsetFrom hWidth hMask 0
    fun _ hBelow => absurd hBelow (Nat.not_lt_zero _)

/- The search of the mask without bits ends at once. -/
theorem offset_of_no_bits (hMask : field.mask = 0) :
    field.offset = 0 := by
  unfold offset offsetFrom
  simp [hMask]

/- No bit of a mask is below its place. -/
theorem offset_le
    (hWidth : w ≤ 32)
    {place : Nat}
    (hBit : field.mask.getLsbD place = true) :
    field.offset ≤ place :=
  (startsAt_offset hWidth (mask_ne_zero hBit)).le hBit

------------------------------------------------------------
-- Bits
------------------------------------------------------------

theorem getLsbD_get
    (field : Field w)
    (value : BitVec w)
    (place : Nat) :
    (field.get value).getLsbD place =
      (value.getLsbD (field.offset + place) &&
        field.mask.getLsbD (field.offset + place)) := by
  unfold get
  rw [BitVec.getLsbD_ushiftRight, BitVec.getLsbD_and]

/- In the group is the new part, and around it the word. -/
theorem getLsbD_set
    (hWidth : w ≤ 32)
    (field : Field w)
    (part value : BitVec w)
    (place : Nat) :
    (field.set part value).getLsbD place =
      if field.mask.getLsbD place = true then
        part.getLsbD (place - field.offset)
      else
        value.getLsbD place := by
  unfold set
  rw [BitVec.getLsbD_or, BitVec.getLsbD_and,
    BitVec.getLsbD_and, BitVec.getLsbD_not,
    BitVec.getLsbD_shiftLeft]
  split
  next hBit =>
    rw [hBit, decide_eq_true (BitVec.lt_of_getLsbD hBit),
      decide_eq_false
        (Nat.not_lt_of_ge (offset_le hWidth hBit))]
    simp
  next hUnset =>
    rw [Bool.eq_false_iff.mpr hUnset]
    rcases Nat.lt_or_ge place w with hPlace | hBehind
    · rw [decide_eq_true hPlace]
      simp
    · rw [BitVec.getLsbD_of_ge value place hBehind]
      simp

------------------------------------------------------------
-- Sizes
------------------------------------------------------------

/- The mask consists of all bits of a stretch of the word. -/
structure Covers
    (field : Field w)
    (start count : Nat) : Prop where
  fits : start + count ≤ w
  bits : ∀ place < w,
    field.mask.getLsbD place =
      decide (start ≤ place ∧ place < start + count)

/- Between two bits of the mask are only bits of it. -/
def Contiguous (field : Field w) : Prop :=
  ∀ low place high, low ≤ place → place ≤ high →
    field.mask.getLsbD low = true →
      field.mask.getLsbD high = true →
        field.mask.getLsbD place = true

/- The number of bits that the mask selects. -/
def size (field : Field w) : Nat :=
  ((Finset.range w).filter
    (field.mask.getLsbD · = true)).card

namespace Covers

variable {start count : Nat}
variable (hCovers : field.Covers start count)

include hCovers

theorem getLsbD_eq (place : Nat) :
    field.mask.getLsbD place =
      decide (start ≤ place ∧ place < start + count) := by
  have hFits := hCovers.fits
  rcases Nat.lt_or_ge place w with hPlace | hBehind
  · exact hCovers.bits place hPlace
  · rw [BitVec.getLsbD_of_ge field.mask place hBehind]
    exact (decide_eq_false (by omega)).symm

theorem offset_eq
    (hWidth : w ≤ 32)
    (hCount : 0 < count) :
    field.offset = start := by
  have hStart : field.StartsAt start := by
    refine ⟨?_, fun below hBelow => ?_⟩
    · rw [hCovers.getLsbD_eq]
      exact decide_eq_true (by omega)
    · rw [hCovers.getLsbD_eq]
      exact decide_eq_false (by omega)
  exact (startsAt_offset hWidth
    (mask_ne_zero hStart.1)).unique hStart

theorem contiguous : field.Contiguous := by
  intro low place high hLow hHigh hFirst hLast
  rw [hCovers.getLsbD_eq, decide_eq_true_iff] at hFirst hLast ⊢
  omega

theorem size_eq : field.size = count := by
  have hFits := hCovers.fits
  have hBits :
      (Finset.range w).filter
          (field.mask.getLsbD · = true) =
        Finset.Ico start (start + count) := by
    ext place
    rw [Finset.mem_filter, Finset.mem_range, Finset.mem_Ico,
      hCovers.getLsbD_eq, decide_eq_true_iff]
    omega
  unfold size
  rw [hBits, Nat.card_Ico, Nat.add_sub_cancel_left]

end Covers

/-
  A contiguous mask selects a stretch.  It ends in front of
  the first place above its lowest bit that it leaves out.
-/
theorem Contiguous.exists_covers
    (hContiguous : field.Contiguous)
    {start : Nat}
    (hStart : field.StartsAt start) :
    ∃ count, field.Covers start count := by
  have hPlace : start < w := BitVec.lt_of_getLsbD hStart.1
  have hOutside :
      field.mask.getLsbD (start + (w - start)) = false :=
    BitVec.getLsbD_of_ge _ _ (by omega)
  have hEnds : ∃ count,
      field.mask.getLsbD (start + count) = false :=
    ⟨w - start, hOutside⟩
  have hFits : Nat.find hEnds ≤ w - start :=
    Nat.find_min' hEnds hOutside
  refine ⟨Nat.find hEnds, by omega, fun place _ => ?_⟩
  rw [Bool.eq_iff_iff, decide_eq_true_iff]
  constructor
  · intro hBit
    refine ⟨hStart.le hBit, ?_⟩
    by_contra hBehind
    have hEnd := hContiguous start (start + Nat.find hEnds)
      place (by omega) (by omega) hStart.1 hBit
    rw [Nat.find_spec hEnds] at hEnd
    contradiction
  · rintro ⟨hFrom, hBefore⟩
    have hInside := Nat.find_min hEnds
      (m := place - start) (by omega)
    rw [Nat.add_sub_cancel' hFrom] at hInside
    exact Bool.not_eq_false _ ▸ hInside

theorem Contiguous.covers
    (hContiguous : field.Contiguous)
    (hWidth : w ≤ 32)
    (hMask : field.mask ≠ 0) :
    field.Covers field.offset field.size := by
  rcases hContiguous.exists_covers
      (startsAt_offset hWidth hMask) with
    ⟨count, hCovers⟩
  rw [hCovers.size_eq]
  exact hCovers

------------------------------------------------------------
-- Laws
------------------------------------------------------------

section Laws

variable (hWidth : w ≤ 32)
variable (field : Field w)

include hWidth

/- What is written into a group is read back from it. -/
theorem get_set
    (hMask : field.mask ≠ 0)
    (hContiguous : field.Contiguous)
    (part value : BitVec w) :
    (field.get (field.set part value)).toNat =
      part.toNat % 2 ^ field.size := by
  have hCovers := hContiguous.covers hWidth hMask
  apply Nat.eq_of_testBit_eq
  intro place
  rw [BitVec.testBit_toNat, getLsbD_get,
    getLsbD_set hWidth, Nat.testBit_mod_two_pow,
    BitVec.testBit_toNat, hCovers.getLsbD_eq,
    Nat.add_sub_cancel_left]
  by_cases hPlace : place < field.size
  · simp [hPlace]
  · simp [hPlace]

/-
  Writing what was read from another word takes over the
  group from that word.
-/
theorem set_get (source value : BitVec w) :
    field.set (field.get source) value =
      (value &&& ~~~field.mask) ||| (source &&& field.mask) := by
  apply BitVec.eq_of_getLsbD_eq
  intro place hPlace
  rw [getLsbD_set hWidth, getLsbD_get, BitVec.getLsbD_or,
    BitVec.getLsbD_and, BitVec.getLsbD_and,
    BitVec.getLsbD_not, decide_eq_true hPlace]
  split
  next hBit =>
    rw [Nat.add_sub_cancel' (offset_le hWidth hBit), hBit]
    simp
  next hUnset =>
    rw [Bool.eq_false_iff.mpr hUnset]
    simp

/- Only the group changes. -/
theorem set_outside (part value : BitVec w) :
    field.set part value &&& ~~~field.mask =
      value &&& ~~~field.mask := by
  apply BitVec.eq_of_getLsbD_eq
  intro place _
  rw [BitVec.getLsbD_and, BitVec.getLsbD_and,
    BitVec.getLsbD_not, getLsbD_set hWidth]
  split
  next hBit => simp [hBit]
  next => rfl

theorem set_set (later part value : BitVec w) :
    field.set later (field.set part value) =
      field.set later value := by
  apply BitVec.eq_of_getLsbD_eq
  intro place _
  simp only [getLsbD_set hWidth]
  split
  · rfl
  · rfl

end Laws

/- No bit belongs to both masks. -/
def Disjoint (field other : Field w) : Prop :=
  field.mask &&& other.mask = 0

namespace Disjoint

variable {other : Field w}
variable (hDisjoint : field.Disjoint other)

include hDisjoint

theorem unset
    {place : Nat}
    (hBit : other.mask.getLsbD place = true) :
    field.mask.getLsbD place = false := by
  have hNone := congrArg (·.getLsbD place) hDisjoint
  simpa [hBit] using hNone

theorem set_comm
    (hWidth : w ≤ 32)
    (part otherPart value : BitVec w) :
    other.set otherPart (field.set part value) =
      field.set part (other.set otherPart value) := by
  apply BitVec.eq_of_getLsbD_eq
  intro place _
  simp only [getLsbD_set hWidth]
  by_cases hBit : other.mask.getLsbD place = true
  · rw [if_pos hBit, if_pos hBit,
      if_neg (Bool.eq_false_iff.mp (hDisjoint.unset hBit))]
  · rw [if_neg hBit, if_neg hBit]

/- Writing one group is not seen in the other. -/
theorem get_set
    (hWidth : w ≤ 32)
    (part value : BitVec w) :
    other.get (field.set part value) = other.get value := by
  apply BitVec.eq_of_getLsbD_eq
  intro place _
  rw [getLsbD_get, getLsbD_get, getLsbD_set hWidth]
  by_cases hBit :
      other.mask.getLsbD (other.offset + place) = true
  · rw [if_neg (Bool.eq_false_iff.mp (hDisjoint.unset hBit))]
  · rw [Bool.eq_false_iff.mpr hBit, Bool.and_false,
      Bool.and_false]

end Disjoint

/-
  In words of 32 bits or less, the search for the place of a
  mask ends at its lowest bit, and at 0 for the mask without
  bits.  A contiguous group gives back what was written into
  it, cut to its size.  Whatever the mask, a write leaves the
  rest of the word, forgets the group's old value and changes
  nothing when it writes that value, and two groups without a
  common bit do not notice each other.
-/
theorem groups_are_lenses (hWidth : w ≤ 32) :
    (∀ field : Field w,
      field.mask = 0 → field.offset = 0) ∧
    (∀ (field : Field w) (place : Nat),
      field.mask ≠ 0 →
        (field.offset = place ↔ field.StartsAt place)) ∧
    ∀ (field : Field w) (part value : BitVec w),
      (field.mask ≠ 0 → field.Contiguous →
        (field.get (field.set part value)).toNat =
          part.toNat % 2 ^ field.size) ∧
      field.set part value &&& ~~~field.mask =
        value &&& ~~~field.mask ∧
      field.set (field.get value) value = value ∧
      (∀ later,
        field.set later (field.set part value) =
          field.set later value) ∧
      ∀ other, field.Disjoint other →
        other.get (field.set part value) =
            other.get value ∧
          ∀ otherPart,
            other.set otherPart (field.set part value) =
              field.set part (other.set otherPart value) := by
  refine ⟨fun _ => offset_of_no_bits, ?_, ?_⟩
  · intro field place hMask
    have hStart := startsAt_offset hWidth hMask
    constructor
    · rintro rfl
      exact hStart
    · exact hStart.unique
  · intro field part value
    refine ⟨fun hMask hContiguous =>
      get_set hWidth field hMask hContiguous part value,
      set_outside hWidth field part value, ?_,
      fun later => set_set hWidth field later part value,
      fun other hDisjoint => ⟨?_, fun otherPart => ?_⟩⟩
    · rw [set_get hWidth, ← BitVec.and_or_distrib_left,
        BitVec.not_or_self, BitVec.and_allOnes]
    · exact hDisjoint.get_set hWidth part value
    · exact hDisjoint.set_comm hWidth part otherPart value

/-
  The highest bit of a word and the eleven below it.  A value
  of twenty bits is cut when it is written next to the
  highest bit, which stays.
-/
theorem lenses_below_highest_bit :
    let highest : Field 32 := ⟨0x80000000⟩
    let next : Field 32 := ⟨0x7FF00000⟩
    let written := next.set 0xABCDE 0xF2345678
    highest.offset = 31 ∧
      (next.get written).toNat = 0x4DE ∧
      written &&& ~~~next.mask = 0x80045678 ∧
      highest.get written = 1 := by
  intro highest next written
  have hCovers : next.Covers 20 11 :=
    ⟨by decide, by decide⟩
  rcases groups_are_lenses (w := 32) (by decide) with
    ⟨-, hOffset, hLaws⟩
  have hHighest : highest.offset = 31 :=
    (hOffset highest 31 (by decide)).mpr
      ⟨by decide, by decide⟩
  rcases hLaws next 0xABCDE 0xF2345678 with
    ⟨hRead, hOutside, -, -, hOther⟩
  refine ⟨hHighest, ?_, hOutside.trans (by decide), ?_⟩
  · rw [hRead (by decide) hCovers.contiguous,
      hCovers.size_eq]
    decide
  · rw [(hOther highest (by unfold Disjoint; decide)).1]
    unfold get
    rw [hHighest]
    decide

end Field

end Bits

end Famicom
