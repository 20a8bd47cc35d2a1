import Diskette.Proofs.Catalog.RoundTrip
import Diskette.Proofs.Geometry.Presented
import Mathlib.Data.Set.Function
import Mathlib.Tactic.Ring

/-!
# Sector addresses

The addresses on a disk number its sectors without gaps, and each of them can be read. A geometry
may come from a boot sector, a file header, a codec or a snapshot; all that is known of it is that
it was fitted to the length of the data, and that is enough.
-/

set_option autoImplicit false

namespace Diskette

namespace Geometry

def addresses (g : Geometry) : Set Address :=
  {a | a.track < g.tracks ∧ a.side < g.sides ∧ 1 ≤ a.sector ∧ a.sector ≤ g.sectorsPerTrack}

def sectorStarts (g : Geometry) : Set Nat := {n | ∃ k < g.totalSectors, n = sectorSize * k}

def index (g : Geometry) (a : Address) : Nat :=
  (a.track.toNat * g.sides.toNat + a.side.toNat) * g.sectorsPerTrack.toNat + (a.sector.toNat - 1)

theorem mem_addresses {g : Geometry} {a : Address} : a ∈ g.addresses ↔ g.contains a = true := by
  change (_ ∧ _ ∧ _ ∧ _) ↔ _
  simp only [contains, Bool.and_eq_true, decide_eq_true_eq]
  tauto

theorem toNat_of_mem {g : Geometry} {a : Address} (h : a ∈ g.addresses) :
    a.track.toNat < g.tracks.toNat ∧ a.side.toNat < g.sides.toNat ∧ 1 ≤ a.sector.toNat ∧
      a.sector.toNat ≤ g.sectorsPerTrack.toNat := h

theorem offset_eq (g : Geometry) (a : Address) : g.offset a = sectorSize * g.index a := by
  simp only [offset, index, trackSize]
  ring

theorem digits_lt {k m d n : Nat} (hk : k < m) (hd : d < n) : k * n + d < m * n := by
  calc
    k * n + d < (k + 1) * n := by rw [Nat.succ_mul]; omega
    _ ≤ m * n := Nat.mul_le_mul_right n hk

theorem digits_inj {k k' d d' n : Nat} (hd : d < n) (hd' : d' < n)
    (h : k * n + d = k' * n + d') : k = k' ∧ d = d' := by
  have hk : k = k' := by
    have hdiv := congrArg (· / n) h
    simpa [Nat.mul_comm _ n, Nat.mul_add_div (Nat.zero_lt_of_lt hd), Nat.div_eq_of_lt hd,
      Nat.div_eq_of_lt hd'] using hdiv
  subst hk
  exact ⟨rfl, Nat.add_left_cancel h⟩

theorem index_lt {g : Geometry} {a : Address} (h : a ∈ g.addresses) :
    g.index a < g.totalSectors := by
  obtain ⟨ht, hs, h1, hn⟩ := toNat_of_mem h
  exact digits_lt (digits_lt ht hs) (by omega)

theorem index_inj {g : Geometry} {a b : Address} (ha : a ∈ g.addresses) (hb : b ∈ g.addresses)
    (h : g.index a = g.index b) : a = b := by
  obtain ⟨-, hs, h1, hn⟩ := toNat_of_mem ha
  obtain ⟨-, hs', h1', hn'⟩ := toNat_of_mem hb
  obtain ⟨hq, hsector⟩ := digits_inj (by omega) (by omega) h
  obtain ⟨htrack, hside⟩ := digits_inj hs hs' hq
  have hsector : a.sector.toNat = b.sector.toNat := by omega
  rcases a with ⟨track, side, sector⟩
  rcases b with ⟨track', side', sector'⟩
  rw [Address.mk.injEq]
  exact ⟨UInt16.toNat.inj htrack, UInt16.toNat.inj hside, UInt16.toNat.inj hsector⟩

def addressOf (g : Geometry) (k : Nat) : Address where
  track := .ofNat (k / g.sectorsPerTrack.toNat / g.sides.toNat)
  side := .ofNat (k / g.sectorsPerTrack.toNat % g.sides.toNat)
  sector := .ofNat (k % g.sectorsPerTrack.toNat + 1)

theorem toNat_addressOf {g : Geometry} {k : Nat} (h : k < g.totalSectors) :
    (g.addressOf k).track.toNat = k / g.sectorsPerTrack.toNat / g.sides.toNat ∧
      (g.addressOf k).side.toNat = k / g.sectorsPerTrack.toNat % g.sides.toNat ∧
      (g.addressOf k).sector.toNat = k % g.sectorsPerTrack.toNat + 1 ∧
      k / g.sectorsPerTrack.toNat / g.sides.toNat < g.tracks.toNat ∧ 0 < g.sides.toNat ∧
      0 < g.sectorsPerTrack.toNat := by
  have hspt : 0 < g.sectorsPerTrack.toNat := Nat.pos_of_mul_pos_left (Nat.zero_lt_of_lt h)
  have hq : k / g.sectorsPerTrack.toNat < g.tracks.toNat * g.sides.toNat :=
    Nat.div_lt_of_lt_mul (by rwa [Nat.mul_comm])
  have hsides : 0 < g.sides.toNat := Nat.pos_of_mul_pos_left (Nat.zero_lt_of_lt hq)
  have htrack : k / g.sectorsPerTrack.toNat / g.sides.toNat < g.tracks.toNat :=
    Nat.div_lt_of_lt_mul (by rwa [Nat.mul_comm])
  have hside := Nat.mod_lt (k / g.sectorsPerTrack.toNat) hsides
  have hsector := Nat.mod_lt k hspt
  have h1 := g.tracks.toNat_lt
  have h2 := g.sides.toNat_lt
  have h3 := g.sectorsPerTrack.toNat_lt
  refine ⟨?_, ?_, ?_, htrack, hsides, hspt⟩
  · exact UInt16.toNat_ofNat_of_lt' (by simp only [UInt16.size]; omega)
  · exact UInt16.toNat_ofNat_of_lt' (by simp only [UInt16.size]; omega)
  · exact UInt16.toNat_ofNat_of_lt' (by simp only [UInt16.size]; omega)

theorem addressOf_mem {g : Geometry} {k : Nat} (h : k < g.totalSectors) :
    g.addressOf k ∈ g.addresses := by
  obtain ⟨htrack, hside, hsector, ht, hsides, hspt⟩ := toNat_addressOf h
  have hs := Nat.mod_lt (k / g.sectorsPerTrack.toNat) hsides
  have hn := Nat.mod_lt k hspt
  change (g.addressOf k).track.toNat < _ ∧ (g.addressOf k).side.toNat < _ ∧
    1 ≤ (g.addressOf k).sector.toNat ∧ (g.addressOf k).sector.toNat ≤ _
  rw [htrack, hside, hsector]
  exact ⟨ht, hs, Nat.le_add_left 1 _, hn⟩

theorem index_addressOf {g : Geometry} {k : Nat} (h : k < g.totalSectors) :
    g.index (g.addressOf k) = k := by
  obtain ⟨htrack, hside, hsector, -⟩ := toNat_addressOf h
  rw [index, htrack, hside, hsector, Nat.div_add_mod', Nat.add_sub_cancel, Nat.div_add_mod']

/-- The addresses on a disk stand for its sectors, one for each. -/
theorem offset_bijOn (g : Geometry) : Set.BijOn g.offset g.addresses g.sectorStarts := by
  refine ⟨?_, ?_, ?_⟩
  · intro a ha
    exact ⟨g.index a, index_lt ha, offset_eq g a⟩
  · intro a ha b hb h
    rw [offset_eq, offset_eq] at h
    exact index_inj ha hb (Nat.eq_of_mul_eq_mul_left (by decide) h)
  · rintro n ⟨k, hk, rfl⟩
    exact ⟨g.addressOf k, addressOf_mem hk, by rw [offset_eq, index_addressOf hk]⟩

end Geometry

namespace InsertedDisk

variable {i : InsertedDisk} {a : Address}

theorem offset_add_le (h : i.Sound) (ha : a ∈ i.geometry.addresses) :
    i.geometry.offset a + sectorSize ≤ i.disk.data.length := by
  have hk := Geometry.index_lt ha
  calc
    i.geometry.offset a + sectorSize = (i.geometry.index a + 1) * sectorSize := by
      rw [Geometry.offset_eq]
      ring
    _ ≤ i.geometry.totalSize := Nat.mul_le_mul_right _ hk
    _ ≤ i.disk.data.length := by
      rw [h.geometry]
      exact Geometry.totalSize_ofLength_le _ _

theorem read_one (h : i.Sound) (ha : a ∈ i.geometry.addresses) :
    i.read a 1 = .ok (Bytes.slice i.disk.data (i.geometry.offset a) sectorSize) := by
  have hl : i.geometry.offset a + 1 * sectorSize ≤ i.disk.data.length := by
    rw [Nat.one_mul]
    exact offset_add_le h ha
  have hr := i.read_natCast a 1
  rwa [if_pos ⟨Geometry.mem_addresses.mp ha, hl⟩, Nat.one_mul] at hr

theorem read_of_not_mem (ha : a ∉ i.geometry.addresses) (count : Int) :
    i.read a count = .error (.outOfRange a i.geometry) := by
  have hr : i.range a count = .error (.outOfRange a i.geometry) := by
    simp [range, Bool.eq_false_iff.mpr fun h => ha (Geometry.mem_addresses.mpr h)]
  rw [read, hr]
  rfl

end InsertedDisk

namespace Drive

variable {d : Drive} {i : InsertedDisk}

theorem geometry_of_inserted (h : d.inserted = some i) : d.geometry = i.geometry := by
  obtain ⟨copy, -, rfl⟩ := Option.map_eq_some_iff.mp h
  rfl

theorem Tidy.of_not_isInserted (ht : d.Tidy) (h : d.isInserted = false) :
    d.inserted = none ∧ d.kind = .none ∧ d.geometry = {} ∧ d.okToPersist = false := by
  have hi : d.inserted = none := by simpa [isInserted] using h
  exact ⟨hi, by simp [kind, hi], ht hi⟩

theorem sectorOffset_of_mem (h : d.inserted = some i) {a : Address}
    (ha : a ∈ d.geometry.addresses) :
    d.sectorOffset a = .ok (d.geometry.offset a) := by
  rw [geometry_of_inserted h] at ha ⊢
  simp [sectorOffset, h, Geometry.mem_addresses.mp ha]

theorem sectorOffset_of_not_mem (h : d.inserted = some i) {a : Address}
    (ha : a ∉ d.geometry.addresses) :
    d.sectorOffset a = .error (.outOfRange a d.geometry) := by
  rw [geometry_of_inserted h] at ha ⊢
  simp [sectorOffset, h, Bool.eq_false_iff.mpr fun h => ha (Geometry.mem_addresses.mpr h)]

end Drive

namespace Catalog

variable {σ : Type} [SaveStore σ]

theorem tidy_change [Zip.Library] {op : Operation} {c c' : Catalog σ} (hc : Change op c c')
    (h : ∀ id, (c.drive id).Tidy) : ∀ id, (c'.drive id).Tidy := by
  have hset {id : DriveId} {d : Drive} (hd : d.Tidy) : ∀ j, ((c.setDrive id d).drive j).Tidy := by
    intro j
    rw [drive_setDrive]
    split
    · exact hd
    · exact h j
  cases hc with
  | eject id keep hk =>
    intro j
    rw [drive_eject]
    split
    · exact Drive.tidy_put (c.drive id) none
    · exact h j
  | add hl => exact h
  | fill slot image ho hi hl hf => exact h
  | point id slot he hl => exact hset (h id)
  | insert id slot image disk he hs hf hi hd hp => exact hset (Drive.tidy_put (c.drive id) _)
  | write id address data d ho hd =>
    obtain ⟨-, i, -, -, -, rfl⟩ := Drive.write_eq_ok hd
    exact hset (Drive.tidy_put (c.drive id) _)
  | adjust id timer on => exact hset (h id)
  | host policy codec tick => exact h
  | discard ho he hs => exact h
  | restore id file s taken slot ho hs he hm hf =>
    rw [restoreDrive_eq_setDrive]
    exact hset (Drive.tidy_put (c.drive id) _)

theorem run_tidy [Zip.Library] (policy : Policy) (store : σ) (ops : List Operation) :
    ∀ id, (((new policy store).run ops).drive id).Tidy := by
  apply run_keeps_of_change (I := fun c => ∀ id, (c.drive id).Tidy) (fun _ _ _ => tidy_change)
  intro id _
  cases id <;> exact ⟨rfl, rfl⟩

/-- After any run, restored snapshots of any content included, a drive without a disk has nothing to
address, and the addresses of a drive with a disk are those of its sectors: each of them reads one
sector, there is no other, and what they leave out at the end of the data is less than a track of
all sides. -/
theorem run_addressing [Zip.Library] (policy : Policy) (store : σ) (ops : List Operation)
    (id : DriveId) :
    let c := (new policy store).run ops
    let d := c.drive id
    let g := d.geometry
    (d.isInserted = false →
      d.inserted = none ∧ d.kind = .none ∧ g = {} ∧ d.okToPersist = false) ∧
    ∀ i, d.inserted = some i →
      i.disk.data ≠ [] ∧ i.disk.kind ≠ .none ∧ i.disk.kind = i.disk.format.kind ∧
      Set.BijOn g.offset g.addresses g.sectorStarts ∧ g.totalSize ≤ i.disk.data.length ∧
      (∀ a ∈ g.addresses, d.sectorOffset a = .ok (g.offset a) ∧ ∃ sector,
        c.read id a 1 = .ok sector ∧ sector.length = sectorSize ∧
          sector = Bytes.slice i.disk.data (g.offset a) sectorSize) ∧
      (∀ a ∉ g.addresses, d.sectorOffset a = .error (.outOfRange a g) ∧
        ∀ count, c.read id a count = .error (.outOfRange a g)) ∧
      (g.sides ≠ 0 → g.sectorsPerTrack ≠ 0 → g.tracks < 65535 →
        i.disk.data.length / sectorSize <
          g.totalSectors + g.sides.toNat * g.sectorsPerTrack.toNat) := by
  intro c d g
  refine ⟨(run_tidy policy store ops id).of_not_isInserted, ?_⟩
  intro i hi
  have hs : i.Sound := (run_sound policy store ops).drives id i hi
  have hg : g = i.geometry := Drive.geometry_of_inserted hi
  have hlength : g = .ofLength i.disk.data.length g.layout := by
    rw [hg]
    exact hs.geometry
  have hread : ∀ a count, c.read id a count = i.read a count := by
    intro a count
    change d.read a count = _
    rw [Drive.read, hi]
  refine ⟨hs.data, hs.kind, hs.format, Geometry.offset_bijOn g, ?_, ?_, ?_, ?_⟩
  · rw [hlength]
    exact Geometry.totalSize_ofLength_le _ _
  · intro a ha
    refine ⟨Drive.sectorOffset_of_mem hi ha, _, ?_, ?_, rfl⟩
    · rw [hread, hg]
      exact InsertedDisk.read_one hs (hg ▸ ha)
    · have hl := InsertedDisk.offset_add_le hs (hg ▸ ha)
      rw [hg, Bytes.slice, List.length_take, List.length_drop]
      omega
  · intro a ha
    refine ⟨Drive.sectorOffset_of_not_mem hi ha, fun count => ?_⟩
    rw [hread, hg]
    exact InsertedDisk.read_of_not_mem (hg ▸ ha) count
  · intro hsides hspt ht
    rw [hlength] at ht
    rw [hlength]
    exact Geometry.sectors_lt_of_ofLength _ g.layout hsides hspt ht

end Catalog

end Diskette
