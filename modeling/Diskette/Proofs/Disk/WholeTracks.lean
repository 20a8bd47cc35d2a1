import Diskette.SectorImage

/-!
# Images of whole tracks

The formats with a header write an image only if its layout divides it into whole tracks, and only
so many of them. The bounds differ from format to format.
-/

set_option autoImplicit false

namespace Diskette

theorem isOk_unless {ε α : Type} {p : Prop} [Decidable p] {fault : ε} {x : Except ε α} :
    (if p then .error fault else x).isOk = true ↔ ¬p ∧ x.isOk = true := by
  split
  · rename_i h
    exact iff_of_false (fun he => by cases he) fun hn => hn.1 h
  · rename_i h
    exact ⟨fun hx => ⟨h, hx⟩, fun hx => hx.2⟩

theorem exists_of_isOk {ε α : Type} {r : Except ε α} (h : r.isOk = true) : ∃ a, r = .ok a := by
  cases r with
  | ok a => exact ⟨a, rfl⟩
  | error fault => cases h

namespace SectorImage

/-- The image is so many tracks of its layout, and the layout and the number are within bounds. -/
structure Whole (i : SectorImage) (maxSectors maxTracks tracks : Nat) : Prop where
  sides_pos : 0 < i.layout.sides.toNat
  sides_le : i.layout.sides.toNat ≤ 2
  sectors_pos : 0 < i.layout.sectorsPerTrack.toNat
  sectors_le : i.layout.sectorsPerTrack.toNat ≤ maxSectors
  tracks_pos : 0 < tracks
  tracks_le : tracks ≤ maxTracks
  length_eq : i.data.length =
    tracks * (i.layout.sectorsPerTrack.toNat * sectorSize * i.layout.sides.toNat)

theorem whole_of_checks {i : SectorImage} {maxSectors maxTracks : Nat}
    (hl : ¬(i.layout.sides.toNat = 0 ∨ 2 < i.layout.sides.toNat ∨
      i.layout.sectorsPerTrack.toNat = 0 ∨ maxSectors < i.layout.sectorsPerTrack.toNat))
    (hw : ¬(i.data.length = 0 ∨
      i.data.length % (i.layout.sectorsPerTrack.toNat * sectorSize * i.layout.sides.toNat) ≠ 0))
    (ht : ¬maxTracks <
      i.data.length / (i.layout.sectorsPerTrack.toNat * sectorSize * i.layout.sides.toNat)) :
    i.Whole maxSectors maxTracks
      (i.data.length / (i.layout.sectorsPerTrack.toNat * sectorSize * i.layout.sides.toNat)) := by
  have hmod : i.data.length %
      (i.layout.sectorsPerTrack.toNat * sectorSize * i.layout.sides.toNat) = 0 := by
    apply Decidable.of_not_not
    intro h
    exact hw (.inr h)
  have hlen := Nat.div_mul_cancel (Nat.dvd_of_mod_eq_zero hmod)
  constructor
  · omega
  · omega
  · omega
  · omega
  · apply Nat.pos_of_ne_zero
    intro h0
    rw [h0, Nat.zero_mul] at hlen
    exact hw (.inl hlen.symm)
  · exact Nat.le_of_not_lt ht
  · exact hlen.symm

namespace Whole

variable {i : SectorImage} {maxSectors maxTracks tracks : Nat}

theorem trackSize_pos (h : i.Whole maxSectors maxTracks tracks) :
    0 < i.layout.sectorsPerTrack.toNat * sectorSize * i.layout.sides.toNat :=
  Nat.mul_pos (Nat.mul_pos h.sectors_pos (by decide)) h.sides_pos

theorem tracks_eq (h : i.Whole maxSectors maxTracks tracks) :
    tracks =
      i.data.length / (i.layout.sectorsPerTrack.toNat * sectorSize * i.layout.sides.toNat) := by
  rw [h.length_eq, Nat.mul_div_cancel _ h.trackSize_pos]

theorem length_pos (h : i.Whole maxSectors maxTracks tracks) : 0 < i.data.length := by
  rw [h.length_eq]
  exact Nat.mul_pos h.tracks_pos h.trackSize_pos

theorem length_le (h : i.Whole maxSectors maxTracks tracks) :
    i.data.length ≤ maxTracks * (maxSectors * sectorSize * 2) := by
  rw [h.length_eq]
  apply Nat.mul_le_mul h.tracks_le
  apply Nat.mul_le_mul _ h.sides_le
  exact Nat.mul_le_mul_right _ h.sectors_le

theorem length_mod (h : i.Whole maxSectors maxTracks tracks) : i.data.length % sectorSize = 0 := by
  rw [h.length_eq]
  apply Nat.mod_eq_zero_of_dvd
  apply Nat.dvd_mul_left_of_dvd
  apply Nat.dvd_mul_right_of_dvd
  exact Nat.dvd_mul_left _ _

theorem isUsable (h : i.Whole maxSectors maxTracks tracks) : i.layout.isUsable = true := by
  have hs : i.layout.sides ≠ 0 := by
    intro h0
    have hp := h.sides_pos
    rw [h0] at hp
    exact absurd hp (by decide)
  have ht : i.layout.sectorsPerTrack ≠ 0 := by
    intro h0
    have hp := h.sectors_pos
    rw [h0] at hp
    exact absurd hp (by decide)
  simp [Layout.isUsable, hs, ht]

end Whole

/-- The checks pass for images of whole tracks and for no others. -/
theorem exists_whole_iff {i : SectorImage} {maxSectors maxTracks : Nat} :
    (∃ tracks, i.Whole maxSectors maxTracks tracks) ↔
      ¬(i.layout.sides.toNat = 0 ∨ 2 < i.layout.sides.toNat ∨
        i.layout.sectorsPerTrack.toNat = 0 ∨ maxSectors < i.layout.sectorsPerTrack.toNat) ∧
      ¬(i.data.length = 0 ∨
        i.data.length % (i.layout.sectorsPerTrack.toNat * sectorSize * i.layout.sides.toNat) ≠ 0) ∧
      ¬maxTracks <
        i.data.length / (i.layout.sectorsPerTrack.toNat * sectorSize * i.layout.sides.toNat) := by
  constructor
  · rintro ⟨tracks, h⟩
    have hpos := h.length_pos
    have hmod : i.data.length %
        (i.layout.sectorsPerTrack.toNat * sectorSize * i.layout.sides.toNat) = 0 := by
      rw [h.length_eq, Nat.mul_mod_left]
    refine ⟨?_, ?_, ?_⟩
    · have := h.sides_pos
      have := h.sides_le
      have := h.sectors_pos
      have := h.sectors_le
      omega
    · rw [hmod]
      omega
    · rw [← h.tracks_eq]
      exact Nat.not_lt_of_le h.tracks_le
  · rintro ⟨hl, hw, ht⟩
    exact ⟨_, whole_of_checks hl hw ht⟩

end SectorImage

end Diskette
