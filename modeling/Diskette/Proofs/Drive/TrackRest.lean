import Diskette.Proofs.Drive.Addressing
import Diskette.Proofs.Disk.FirstSector
import Diskette.Zip.Reader

/-!
# The rest of a track

A negative count stands for as many sectors as a track has, from whichever sector on. Only from the
first sector of a track are these the rest of it. From any other they run on into the next side or
track, and on the last side of the last track there may be nothing to run on into.
-/

set_option autoImplicit false

namespace Diskette

namespace Bytes

theorem slice_add (b : Bytes) (offset m n : Nat) :
    slice b offset (m + n) = slice b offset m ++ slice b (offset + m) n := by
  rw [slice, List.take_add, List.drop_drop, slice, slice]

theorem flatMap_slice (b : Bytes) (offset size count : Nat) :
    (List.range count).flatMap (fun k => slice b (offset + k * size) size) =
      slice b offset (count * size) := by
  induction count with
  | zero => simp [slice]
  | succ n ih =>
    rw [List.range_succ, List.flatMap_append, ih, List.flatMap_singleton, Nat.succ_mul, slice_add]

theorem length_slice_iff {b : Bytes} {offset : Nat} (h : offset ≤ b.length) (n : Nat) :
    (slice b offset n).length = n ↔ offset + n ≤ b.length := by
  rw [slice, List.length_take, List.length_drop]
  omega

end Bytes

namespace Geometry

def restOfTrack (g : Geometry) (a : Address) : List Address :=
  (List.range (g.sectorsPerTrack.toNat + 1 - a.sector.toNat)).map fun k =>
    { a with sector := .ofNat (a.sector.toNat + k) }

def trackEnd (g : Geometry) (a : Address) : Nat :=
  sectorSize * ((a.track.toNat * g.sides.toNat + a.side.toNat + 1) * g.sectorsPerTrack.toNat)

variable {g : Geometry} {a : Address}

theorem toNat_sector_add {k : Nat} (hk : a.sector.toNat + k ≤ g.sectorsPerTrack.toNat) :
    (UInt16.ofNat (a.sector.toNat + k)).toNat = a.sector.toNat + k := by
  have hspt := g.sectorsPerTrack.toNat_lt
  exact UInt16.toNat_ofNat_of_lt' (by simp only [UInt16.size]; omega)

theorem mem_restOfTrack (ha : a ∈ g.addresses) (b : Address) :
    b ∈ g.restOfTrack a ↔
      b ∈ g.addresses ∧ b.track = a.track ∧ b.side = a.side ∧ a.sector ≤ b.sector := by
  obtain ⟨ht, hs, h1, hn⟩ := toNat_of_mem ha
  rw [restOfTrack, List.mem_map]
  constructor
  · rintro ⟨k, hk, rfl⟩
    rw [List.mem_range] at hk
    have hsector := toNat_sector_add (a := a) (g := g) (k := k) (by omega)
    refine ⟨⟨ht, hs, ?_, ?_⟩, rfl, rfl, ?_⟩
    · change 1 ≤ (UInt16.ofNat _).toNat
      omega
    · change (UInt16.ofNat _).toNat ≤ g.sectorsPerTrack.toNat
      omega
    · change a.sector.toNat ≤ (UInt16.ofNat _).toNat
      omega
  · rintro ⟨hb, htrack, hside, hle⟩
    obtain ⟨-, -, -, hbn⟩ := toNat_of_mem hb
    have hle : a.sector.toNat ≤ b.sector.toNat := hle
    refine ⟨b.sector.toNat - a.sector.toNat, List.mem_range.mpr (by omega), ?_⟩
    rw [Nat.add_sub_cancel' hle, UInt16.ofNat_toNat, ← htrack, ← hside]

theorem offset_sector_add (ha : a ∈ g.addresses) {k : Nat}
    (hk : a.sector.toNat + k ≤ g.sectorsPerTrack.toNat) :
    g.offset { a with sector := .ofNat (a.sector.toNat + k) } = g.offset a + k * sectorSize := by
  obtain ⟨-, -, h1, -⟩ := toNat_of_mem ha
  have hindex : g.index { a with sector := .ofNat (a.sector.toNat + k) } = g.index a + k := by
    simp only [index, toNat_sector_add hk]
    omega
  rw [offset_eq, offset_eq, hindex, Nat.mul_add, Nat.mul_comm k]

theorem offset_add_rest (ha : a ∈ g.addresses) :
    g.offset a + (g.sectorsPerTrack.toNat + 1 - a.sector.toNat) * sectorSize = g.trackEnd a := by
  obtain ⟨-, -, h1, hn⟩ := toNat_of_mem ha
  have hindex : g.index a + (g.sectorsPerTrack.toNat + 1 - a.sector.toNat) =
      (a.track.toNat * g.sides.toNat + a.side.toNat + 1) * g.sectorsPerTrack.toNat := by
    rw [index, Nat.succ_mul]
    omega
  rw [offset_eq, trackEnd, ← hindex, Nat.mul_add, Nat.mul_comm sectorSize (_ - _)]

/-- The track ends within the sectors that are on the disk, and if another one follows, that one
does as well. -/
theorem trackEnd_le (ha : a ∈ g.addresses) :
    g.trackEnd a ≤ g.totalSize ∧
      (g.trackEnd a + g.trackSize ≤ g.totalSize ∨
        a.track.toNat + 1 = g.tracks.toNat ∧ a.side.toNat + 1 = g.sides.toNat) := by
  obtain ⟨ht, hs, -, -⟩ := toNat_of_mem ha
  have hsize : g.totalSize =
      sectorSize * (g.tracks.toNat * g.sides.toNat * g.sectorsPerTrack.toNat) := by
    rw [totalSize, totalSectors, Nat.mul_comm]
  have hnext : g.trackEnd a + g.trackSize =
      sectorSize * ((a.track.toNat * g.sides.toNat + a.side.toNat + 2) *
        g.sectorsPerTrack.toNat) := by
    rw [trackEnd, trackSize]
    ring
  have hlt := digits_lt ht hs
  refine ⟨?_, ?_⟩
  · rw [trackEnd, hsize]
    exact Nat.mul_le_mul_left _ (Nat.mul_le_mul_right _ hlt)
  · by_cases hlast : a.track.toNat * g.sides.toNat + a.side.toNat + 1 =
        g.tracks.toNat * g.sides.toNat
    · right
      have hdigits : (a.track.toNat + 1) * g.sides.toNat = g.tracks.toNat * g.sides.toNat := by
        apply Nat.le_antisymm (Nat.mul_le_mul_right _ ht)
        rw [← hlast, Nat.succ_mul]
        omega
      have htrack := Nat.eq_of_mul_eq_mul_right (Nat.zero_lt_of_lt hs) hdigits
      rw [← hdigits, Nat.succ_mul] at hlast
      exact ⟨htrack, by omega⟩
    · left
      rw [hnext, hsize]
      exact Nat.mul_le_mul_left _ (Nat.mul_le_mul_right _ (by omega))

end Geometry

namespace InsertedDisk

def sectorAt (i : InsertedDisk) (a : Address) : Bytes :=
  Bytes.slice i.disk.data (i.geometry.offset a) sectorSize

variable {i : InsertedDisk} {a : Address}

theorem flatMap_sectorAt (ha : a ∈ i.geometry.addresses) :
    (i.geometry.restOfTrack a).flatMap i.sectorAt =
      Bytes.slice i.disk.data (i.geometry.offset a)
        ((i.geometry.sectorsPerTrack.toNat + 1 - a.sector.toNat) * sectorSize) := by
  rw [Geometry.restOfTrack, List.flatMap_map, ← Bytes.flatMap_slice]
  apply List.flatMap_congr
  intro k hk
  rw [List.mem_range] at hk
  rw [sectorAt, Geometry.offset_sector_add ha (by omega)]

theorem read_of_neg (i : InsertedDisk) (a : Address) {count : Int} (h : count < 0) :
    i.read a count = i.read a i.geometry.sectorsPerTrack.toNat := by
  have hn : ¬(i.geometry.sectorsPerTrack.toNat : Int) < 0 :=
    Int.not_lt.mpr (Int.natCast_nonneg _)
  simp only [read, range, if_pos h, if_neg hn, Int.toNat_natCast]

theorem totalSize_le (h : i.Sound) : i.geometry.totalSize ≤ i.disk.data.length := by
  rw [h.geometry]
  exact Geometry.totalSize_ofLength_le _ _

theorem length_flatMap_sectorAt (h : i.Sound) (ha : a ∈ i.geometry.addresses) :
    ((i.geometry.restOfTrack a).flatMap i.sectorAt).length =
      (i.geometry.sectorsPerTrack.toNat + 1 - a.sector.toNat) * sectorSize := by
  have hfits := (Geometry.trackEnd_le ha).1.trans (totalSize_le h)
  have hoffset := Nat.le_trans (Nat.le_add_right _ _) (offset_add_le h ha)
  rwa [flatMap_sectorAt ha, Bytes.length_slice_iff hoffset, Geometry.offset_add_rest ha]

/-- What is behind the track fills up what is missing of a track's worth of sectors, or the read is
refused. -/
theorem read_track (h : i.Sound) (ha : a ∈ i.geometry.addresses) {count : Int} (hc : count < 0) :
    let more := (a.sector.toNat - 1) * sectorSize
    let behind := Bytes.slice i.disk.data (i.geometry.trackEnd a) more
    i.read a count =
      if behind.length = more then .ok ((i.geometry.restOfTrack a).flatMap i.sectorAt ++ behind)
      else .error (.outOfRange a i.geometry) := by
  intro more behind
  obtain ⟨-, -, h1, hn⟩ := Geometry.toNat_of_mem ha
  have hend := Geometry.offset_add_rest ha
  have hsplit : i.geometry.sectorsPerTrack.toNat * sectorSize =
      (i.geometry.sectorsPerTrack.toNat + 1 - a.sector.toNat) * sectorSize + more := by
    rw [← Nat.add_mul]
    congr 1
    omega
  have hfits := (Geometry.trackEnd_le ha).1.trans (totalSize_le h)
  have hlength : behind.length = more ↔
      i.geometry.offset a + i.geometry.sectorsPerTrack.toNat * sectorSize ≤ i.disk.data.length := by
    rw [hsplit, ← Nat.add_assoc, hend]
    exact Bytes.length_slice_iff hfits more
  rw [read_of_neg i a hc, read_natCast, flatMap_sectorAt ha, hsplit, Bytes.slice_add, hend, ← hsplit]
  simp only [Geometry.mem_addresses.mp ha, true_and, hlength]
  rfl

theorem last_of_length_behind (h : i.Sound) (ha : a ∈ i.geometry.addresses) {n : Nat}
    (hn : n ≤ i.geometry.trackSize)
    (hshort : (Bytes.slice i.disk.data (i.geometry.trackEnd a) n).length ≠ n) :
    a.track.toNat + 1 = i.geometry.tracks.toNat ∧ a.side.toNat + 1 = i.geometry.sides.toNat := by
  obtain ⟨hend, hnext⟩ := Geometry.trackEnd_le ha
  refine hnext.resolve_left fun hroom => hshort ?_
  rw [Bytes.length_slice_iff (hend.trans (totalSize_le h))]
  exact (Nat.add_le_add_left hn _).trans (hroom.trans (totalSize_le h))

theorem read_eq_rest_iff (h : i.Sound) (ha : a ∈ i.geometry.addresses) {count : Int}
    (hc : count < 0) :
    i.read a count = .ok ((i.geometry.restOfTrack a).flatMap i.sectorAt) ↔ a.sector = 1 := by
  obtain ⟨-, -, h1, -⟩ := Geometry.toNat_of_mem ha
  have hread := read_track h ha hc
  generalize hmore : (a.sector.toNat - 1) * sectorSize = more at hread
  dsimp only at hread
  generalize hbehind : Bytes.slice i.disk.data (i.geometry.trackEnd a) more = behind at hread
  rw [hread]
  constructor
  · intro hr
    split at hr
    · rename_i hb
      have hnil : behind = [] := by simpa using hr
      have h0 : more = 0 := by rw [← hb, hnil, List.length_nil]
      have hzero : a.sector.toNat - 1 = 0 :=
        (Nat.mul_eq_zero.mp (hmore.trans h0)).resolve_right (by decide)
      have hsector : a.sector.toNat = 1 := by omega
      exact UInt16.toNat.inj hsector
    · cases hr
  · intro hsector
    have h0 : more = 0 := by
      rw [← hmore, hsector]
      rfl
    have hnil : behind = [] := by rw [← hbehind, h0, Bytes.slice, List.take_zero]
    rw [hnil, h0, List.length_nil, if_pos rfl, List.append_nil]

end InsertedDisk

namespace Catalog

variable {σ : Type} [SaveStore σ]

/-- After any run, what a negative count reads from an address: the sectors from there to the end of
the track, and behind them as many as the track has in front of the address. It is refused if there
are not that many, which takes the last side of the last track. So it is the rest of the track and
nothing else just from the first sector on. -/
theorem read_negative_count [Zip.Library] (policy : Policy) (store : σ) (ops : List Operation)
    (id : DriveId) (i : InsertedDisk)
    (hi : (((new policy store).run ops).drive id).inserted = some i) (a : Address)
    (ha : a ∈ i.geometry.addresses) (count : Int) (hc : count < 0) :
    let c := (new policy store).run ops
    let g := i.geometry
    let rest := (g.restOfTrack a).flatMap i.sectorAt
    let more := (a.sector.toNat - 1) * sectorSize
    let behind := Bytes.slice i.disk.data (g.trackEnd a) more
    (∀ b, b ∈ g.restOfTrack a ↔
      b ∈ g.addresses ∧ b.track = a.track ∧ b.side = a.side ∧ a.sector ≤ b.sector) ∧
    rest.length = (g.sectorsPerTrack.toNat + 1 - a.sector.toNat) * sectorSize ∧
    c.read id a count =
      (if behind.length = more then .ok (rest ++ behind) else .error (.outOfRange a g)) ∧
    (behind.length ≠ more → a.track.toNat + 1 = g.tracks.toNat ∧ a.side.toNat + 1 = g.sides.toNat) ∧
    (c.read id a count = .ok rest ↔ a.sector = 1) := by
  intro c g rest more behind
  have hs : i.Sound := (run_sound policy store ops).drives id i hi
  obtain ⟨-, -, -, hn⟩ := Geometry.toNat_of_mem ha
  have hmore : more ≤ g.trackSize := Nat.mul_le_mul_right _ ((Nat.sub_le _ _).trans hn)
  have hdrive : c.read id a count = i.read a count := by
    change (c.drive id).read a count = _
    rw [Drive.read, hi]
  rw [hdrive]
  exact ⟨Geometry.mem_restOfTrack ha, InsertedDisk.length_flatMap_sectorAt hs ha,
    InsertedDisk.read_track hs ha hc, InsertedDisk.last_of_length_behind hs ha hmore,
    InsertedDisk.read_eq_rest_iff hs ha hc⟩

open scoped Zip.Reader in
/-- From the first sector of a track a negative count reads the track, from the second one the first
sector of the next track as well. -/
theorem read_negative_count_two_tracks :
    let c := (new {} ({} : MemoryStore)).run
      [.loadTitle none (Disk.twoSectors ++ Disk.twoSectors)]
    ∃ i, (c.drive .a).inserted = some i ∧ (-1 : Int) < 0 ∧
      (⟨0, 0, 1⟩ : Address) ∈ i.geometry.addresses ∧ (⟨0, 0, 2⟩ : Address) ∈ i.geometry.addresses ∧
      c.read .a ⟨0, 0, 1⟩ (-1) = .ok ((i.geometry.restOfTrack ⟨0, 0, 1⟩).flatMap i.sectorAt) ∧
      c.read .a ⟨0, 0, 2⟩ (-1) =
        .ok ((i.geometry.restOfTrack ⟨0, 0, 2⟩).flatMap i.sectorAt ++ i.sectorAt ⟨1, 0, 1⟩) := by
  intro c
  let i : InsertedDisk := ⟨⟨namelessImage 0, ⟨.st, .plainSector, Disk.twoSectors ++ Disk.twoSectors,
    false, none, none⟩, false, false⟩, ⟨2, 1, 2⟩, true⟩
  have hi : (c.drive .a).inserted = some i := by decide +kernel
  have ha : ∀ a ∈ [(⟨0, 0, 1⟩ : Address), ⟨0, 0, 2⟩], a ∈ i.geometry.addresses := by
    simp only [Geometry.mem_addresses]
    decide
  have hfirst := ha ⟨0, 0, 1⟩ (by simp)
  have hsecond := ha ⟨0, 0, 2⟩ (by simp)
  obtain ⟨-, -, -, -, hrest⟩ := read_negative_count {} ({} : MemoryStore)
    [.loadTitle none (Disk.twoSectors ++ Disk.twoSectors)] .a i hi ⟨0, 0, 1⟩ hfirst (-1) (by decide)
  obtain ⟨-, -, hread, -, -⟩ := read_negative_count {} ({} : MemoryStore)
    [.loadTitle none (Disk.twoSectors ++ Disk.twoSectors)] .a i hi ⟨0, 0, 2⟩ hsecond (-1) (by decide)
  refine ⟨i, hi, by decide, hfirst, hsecond, hrest.mpr rfl, hread.trans ?_⟩
  decide +kernel

open scoped Zip.Reader in
/-- From the second sector of a track on, a negative count reads a sector of the next track, or is
refused. -/
theorem read_negative_count_not_rest :
    let c := (new {} ({} : MemoryStore)).run
      [.loadTitle none (Disk.twoSectors ++ Disk.twoSectors)]
    ∃ i, (c.drive .a).inserted = some i ∧
      (∀ a ∈ [(⟨0, 0, 2⟩ : Address), ⟨1, 0, 2⟩], i.geometry.contains a = true ∧
        c.read .a a (-1) ≠ .ok ((i.geometry.restOfTrack a).flatMap i.sectorAt)) ∧
      c.read .a ⟨0, 0, 2⟩ (-1) = .ok (i.sectorAt ⟨0, 0, 2⟩ ++ i.sectorAt ⟨1, 0, 1⟩) ∧
      c.read .a ⟨1, 0, 2⟩ (-1) = .error (.outOfRange ⟨1, 0, 2⟩ ⟨2, 1, 2⟩) := by
  refine ⟨⟨⟨namelessImage 0, ⟨.st, .plainSector, Disk.twoSectors ++ Disk.twoSectors, false, none,
    none⟩, false, false⟩, ⟨2, 1, 2⟩, true⟩, ?_⟩
  decide +kernel

end Catalog

end Diskette
