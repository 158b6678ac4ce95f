import Famicom.Proofs.Video.Events

/-
  Bytes on their way into sprite memory.

  The bytes of a transfer go to one place after another, and
  the last place is followed by the first.  No more than 256
  of them all find a place of their own, where they lose the
  bits that have no storage.

  Main declarations:
    * `SpriteMemory.read_write`
    * `Ppu.after_writeOam`
    * `Ppu.read_after_writeOam`
-/

namespace Famicom

------------------------------------------------------------
-- Sprite Memory
------------------------------------------------------------

namespace SpriteMemory

/- Every fourth place holds attributes, without three bits. -/
theorem stored_ofNat
    (place : Nat)
    (value : UInt8) :
    stored (.ofNat place) value =
      if place % 4 = 2 then value &&& 0xE3 else value := by
  have hPlace :
      (UInt16.ofNat place % 4 == 2) = decide (place % 4 = 2) := by
    rw [Bool.eq_iff_iff, beq_iff_eq, decide_eq_true_iff,
      ← UInt16.toNat_inj, UInt16.toNat_mod,
      UInt16.toNat_ofNat']
    show place % 65536 % 4 = 2 ↔ _
    omega
  unfold stored
  rw [hPlace]
  simp only [decide_eq_true_eq]

/- A place is read as it was last written. -/
theorem read_write
    (memory : SpriteMemory)
    (address other : UInt16)
    (value : UInt8) :
    (memory.write address value).read other =
      if cellOf address = cellOf other then
        stored address value
      else
        memory.read other := by
  unfold read write
  simp only [Fin.getElem_fin, Vector.getElem_set,
    Fin.val_inj]

theorem cellOf_ofNat_eq_iff (place other : Nat) :
    cellOf (.ofNat place) = cellOf (.ofNat other) ↔
      place % 256 = other % 256 := by
  rw [← Fin.val_inj]
  show (UInt16.ofNat place).toNat % 256 =
    (UInt16.ofNat other).toNat % 256 ↔ _
  rw [UInt16.toNat_ofNat', UInt16.toNat_ofNat']
  omega

end SpriteMemory

------------------------------------------------------------
-- Transfers
------------------------------------------------------------

namespace Ppu

variable (ppu : Ppu) (bytes : List UInt8)

/- A transfer changes sprite memory and moves its address. -/
theorem after_writeOam :
    let place := ppu.registers.oamAddress
    ∃ oam,
      ppu.after (bytes.map .writeOam) =
        { ppu with
          oam := oam
          registers :=
            { ppu.registers with
              oamAddress := place + .ofNat bytes.length } } := by
  intro place
  induction bytes using List.reverseRecOn with
  | nil =>
      refine ⟨ppu.oam, ?_⟩
      show ppu = _
      rw [List.length_nil]
      show ppu = { ppu with
        registers :=
          { ppu.registers with oamAddress := place + 0 } }
      rw [UInt8.add_zero]
  | append_singleton bytes last ih =>
      rcases ih with ⟨oam, hMoved⟩
      let next := place + .ofNat bytes.length
      refine ⟨oam.write next.toUInt16 last, ?_⟩
      rw [List.map_append, after_append, hMoved,
        List.length_append, UInt8.ofNat_add,
        ← UInt8.add_assoc]
      rfl

theorem toUInt16_oamAddress (place : UInt8) (count : Nat) :
    (place + .ofNat count).toUInt16 =
      .ofNat ((place.toNat + count) % 256) := by
  apply UInt16.toNat_inj.mp
  rw [UInt8.toNat_toUInt16, UInt8.toNat_add,
    UInt8.toNat_ofNat', UInt16.toNat_ofNat']
  show (place.toNat + count % 256) % 256 =
    (place.toNat + count) % 256 % 65536
  omega

/-
  The bytes are in the places from the address on, as long as
  none of them has been overwritten by a later one.
-/
theorem read_after_writeOam
    {bytes : List UInt8}
    (hFits : bytes.length ≤ 256)
    {index : Nat}
    (hIndex : index < bytes.length) :
    let place := ppu.registers.oamAddress.toNat + index
    let moved := ppu.after (bytes.map .writeOam)
    moved.oam.read (.ofNat (place % 256)) =
      if place % 4 = 2 then
        bytes[index] &&& 0xE3
      else
        bytes[index] := by
  intro place moved
  induction bytes using List.reverseRecOn with
  | nil => cases hIndex
  | append_singleton bytes last ih =>
      have hLength :
          (bytes ++ [last]).length = bytes.length + 1 :=
        List.length_append
      rcases ppu.after_writeOam bytes with ⟨oam, hMoved⟩
      let next := ppu.registers.oamAddress.toNat + bytes.length
      have hOam :
          moved.oam =
            (ppu.after (bytes.map .writeOam)).oam.write
              (.ofNat (next % 256)) last := by
        rw [← toUInt16_oamAddress]
        show (ppu.after
          ((bytes ++ [last]).map .writeOam)).oam = _
        rw [List.map_append, after_append, hMoved]
        rfl
      rw [hOam, SpriteMemory.read_write]
      by_cases hEarlier : index < bytes.length
      · have hApart :
            ¬(next % 256) % 256 = (place % 256) % 256 := by
          dsimp only [next, place]
          omega
        rw [if_neg (mt
            (SpriteMemory.cellOf_ofNat_eq_iff _ _).mp hApart),
          List.getElem_append_left hEarlier]
        exact ih (by omega) hEarlier
      · have hLast : index = bytes.length := by omega
        subst hLast
        rw [if_pos rfl, SpriteMemory.stored_ofNat,
          List.getElem_concat_length rfl]
        simp only [Nat.mod_mod_of_dvd _ (by decide : 4 ∣ 256)]
        rfl

end Ppu

end Famicom
