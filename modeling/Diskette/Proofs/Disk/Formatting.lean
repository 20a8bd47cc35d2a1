import Diskette.Proofs.Disk.WriteBack
import Diskette.Proofs.Drive.Sectors
import Diskette.Proofs.Msa.Images
import Diskette.Zip.Reader

/-!
# Disks that are formatted in a drive

A disk may be written to anywhere, its boot sector included, and its geometry is worked out anew when
it is written as a file. A format with a header takes it just if the layout that comes out divides it
into whole tracks within the bounds of the header, so a boot sector that declares another layout may
keep the disk from being written. What is written has all the data.
-/

set_option autoImplicit false

namespace Diskette

/-- The most sectors to a track, and tracks to a side, that the file header of a format records. -/
def Format.headerBounds? : Format → Option (Nat × Nat)
  | .msa => some (Msa.maxSectorsPerTrack, Msa.maxTrack + 1)
  | .dim => some (255, 256)
  | _ => none

theorem Format.isOk_save_iff {f : Format} {maxSectors maxTracks : Nat}
    (hf : f.headerBounds? = some (maxSectors, maxTracks)) {i : SectorImage}
    (hh : ∀ x, i.header = some x → Dim.Supported x) :
    (f.save i).isOk = true ↔ ∃ tracks, i.Whole maxSectors maxTracks tracks := by
  cases f with
  | msa =>
    cases hf
    exact Msa.isOk_save_iff
  | dim =>
    cases hf
    exact Dim.isOk_save_iff hh
  | st | ipf | stx | zip => cases hf

namespace Disk

variable {d : Disk}

theorem isOk_encode_iff_whole {maxSectors maxTracks : Nat} (hk : d.kind = d.format.kind)
    (hf : d.format.headerBounds? = some (maxSectors, maxTracks))
    (hh : ∀ x, d.header = some x → Dim.Supported x) :
    (d.encode d.format).isOk = true ↔
      ∃ tracks, d.toSectorImage.Whole maxSectors maxTracks tracks := by
  have hplain : d.format.isPlain = true := by
    cases he : d.format <;> rw [he] at hf <;> first | rfl | cases hf
  have hsave := Format.isOk_save_iff hf (i := d.toSectorImage) hh
  rw [isOk_encode_iff, hsave]
  constructor
  · exact fun h => h.2.2
  · rintro ⟨tracks, hw⟩
    have hpos : 0 < d.data.length := hw.length_pos
    have hpopulated : d.isPopulated = true := by
      have hkind : d.kind = .plainSector := hk.trans (beq_iff_eq.mp hplain)
      simpa [isPopulated, hkind] using List.ne_nil_of_length_pos hpos
    exact ⟨hplain, hpopulated, tracks, hw⟩

theorem geometry_of_declared {e : Disk} (hl : e.data.length = d.data.length)
    (hr : e.recorded = d.recorded)
    (ht : Geometry.declaredTotal e.data = Geometry.declaredTotal d.data)
    (hd : Geometry.declaredLayout e.data d.recorded = Geometry.declaredLayout d.data d.recorded) :
    e.geometry = d.geometry := by
  rw [geometry, geometry, hr]
  unfold Geometry.ofImage
  rw [hl, ht, hd]

end Disk

namespace InsertedDisk

def writeAll (i : InsertedDisk) : List (Address × Bytes) → Except Fault InsertedDisk
  | [] => .ok i
  | (a, data) :: rest => do
    let j ← i.write a data false
    writeAll j rest

theorem writeAll_eq_ok {i j : InsertedDisk} {ws : List (Address × Bytes)}
    (h : i.writeAll ws = .ok j) :
    j.disk = { i.disk with data := j.disk.data } ∧
      j.disk.data.length = i.disk.data.length := by
  induction ws generalizing i with
  | nil =>
    cases h
    exact ⟨rfl, rfl⟩
  | cons w rest ih =>
    obtain ⟨k, hk, h⟩ := bind_eq_ok h
    obtain ⟨-, -, hl, rfl⟩ := write_eq_ok hk
    obtain ⟨hd, hlen⟩ := ih h
    exact ⟨hd, hlen.trans (Bytes.length_overwrite _ _ _ hl)⟩

/-- A disk out of an MSA or DIM file goes into a drive, and any sectors of it are written, its boot
sector too. It can be written in its own format just if its geometry, worked out anew, divides it
into whole tracks within the bounds of the header. It is so as long as the boot sector declares the
layout and the number of sectors that it did before. What is written is read back with all data. -/
theorem encode_writeAll [Zip.Library] {path : Option String} {file : Bytes} {codec : Codec}
    {d : Disk} {maxSectors maxTracks : Nat} (h : Disk.ofFile path file codec = .ok d)
    (hf : d.format.headerBounds? = some (maxSectors, maxTracks))
    (he : (d.encode d.format).isOk = true) (name : String) (saved : Bool)
    {ws : List (Address × Bytes)} {j : InsertedDisk}
    (hw : (InsertedDisk.ofDisk name d saved).writeAll ws = .ok j) :
    ((j.disk.encode d.format).isOk = true ↔
      ∃ tracks, j.disk.toSectorImage.Whole maxSectors maxTracks tracks) ∧
    (Geometry.declaredTotal j.disk.data = Geometry.declaredTotal d.data →
      Geometry.declaredLayout j.disk.data d.recorded =
        Geometry.declaredLayout d.data d.recorded →
      (j.disk.encode d.format).isOk = true) ∧
    ∀ b, j.disk.encode d.format = .ok b → ∀ codec', ∃ e,
      Disk.ofFormat d.format b codec' = .ok e ∧ e.data = j.disk.data := by
  obtain ⟨hm, hh⟩ := Disk.ofFile_eq_ok h
  obtain ⟨hd, hl⟩ := writeAll_eq_ok hw
  have hl : j.disk.data.length = d.data.length := hl
  have hformat : j.disk.format = d.format := by rw [hd]; rfl
  have hheader : j.disk.header = d.header := by rw [hd]; rfl
  have hrecorded : j.disk.recorded = d.recorded := by rw [hd]; rfl
  have hk : d.kind = d.format.kind := Disk.kind_of_ofFile h
  have hkind : j.disk.kind = j.disk.format.kind := by
    rw [hd]
    exact hk
  have hsupported : ∀ x, j.disk.header = some x → Dim.Supported x := hheader ▸ hh
  have hiff := Disk.isOk_encode_iff_whole hkind (hformat ▸ hf) hsupported
  rw [hformat] at hiff
  refine ⟨hiff, ?_, ?_⟩
  · intro ht hdeclared
    have hg := Disk.geometry_of_declared hl hrecorded ht hdeclared
    have hsame : (d.format.save j.disk.toSectorImage).isOk =
        (d.format.save d.toSectorImage).isOk :=
      Format.isOk_save_congr d.format hl (congrArg Geometry.layout hg) hheader
    obtain ⟨tracks, hwhole⟩ := (Disk.isOk_encode_iff_whole hk hf hh).mp he
    rw [hiff, ← Format.isOk_save_iff hf hsupported, hsame, Format.isOk_save_iff hf hh]
    exact ⟨tracks, hwhole⟩
  · intro b hb codec'
    have hplain : d.kind = .plainSector := hk.trans (beq_iff_eq.mp (Disk.encode_eq_ok hb).1)
    obtain ⟨i, hload, hdata, -⟩ := Disk.ofFormat_encode (hl ▸ hm hplain) hsupported hb codec'
    exact ⟨_, hload, hdata⟩

def packedSectors : Bytes :=
  [0x0E, 0x0F, 0, 2, 0, 0, 0, 0, 0, 0] ++ [0, 22] ++ [0xE5, 0, 0, 12] ++ [2, 1] ++ [0xE5, 0, 0, 5] ++
    [2] ++ [0xE5, 0, 0, 4] ++ [2, 0, 1] ++ [0xE5, 0, 3, 0xE5]

def packedDisk : Disk := ⟨.msa, .plainSector, Disk.twoSectors, false, some ⟨1, 2⟩, none⟩

open scoped Zip.Reader in
theorem ofFile_packedSectors :
    Disk.ofFile (some "A.MSA") packedSectors .unavailable = .ok packedDisk :=
  eq_ok_of_toOption (by decide +kernel)

open scoped Zip.Reader in
/-- A boot sector with another first byte, and data in the second sector. -/
theorem encode_writeAll_same_layout : ∃ j b e,
    (InsertedDisk.ofDisk "A.MSA" packedDisk false).writeAll
        [(⟨0, 0, 1⟩, (Disk.twoSectors.take 512).set 0 0x60), (⟨0, 0, 2⟩, [1, 2, 3])] = .ok j ∧
      j.disk.encode .msa = .ok b ∧ Disk.ofFormat .msa b .unavailable = .ok e ∧
      e.data = (Disk.twoSectors.set 0 0x60).take 512 ++ [1, 2, 3] ++ List.replicate 509 0 := by
  have hw : (InsertedDisk.ofDisk "A.MSA" packedDisk false).writeAll
      [(⟨0, 0, 1⟩, (Disk.twoSectors.take 512).set 0 0x60), (⟨0, 0, 2⟩, [1, 2, 3])] =
      .ok { name := "A.MSA", isModified := true, geometry := ⟨1, 1, 2⟩, okToPersist := true,
            disk := { packedDisk with
              data := (Disk.twoSectors.set 0 0x60).take 512 ++ [1, 2, 3] ++
                List.replicate 509 0 } } :=
    eq_ok_of_toOption (by decide +kernel)
  obtain ⟨-, hok, hback⟩ := encode_writeAll ofFile_packedSectors (show _ = some _ from rfl)
    (by decide +kernel) "A.MSA" false hw
  obtain ⟨b, hb⟩ := exists_of_isOk (hok (by decide +kernel) (by decide +kernel))
  obtain ⟨e, he, hdata⟩ := hback b hb .unavailable
  exact ⟨_, b, e, hw, hb, he, hdata⟩

open scoped Zip.Reader in
/-- A boot sector that declares three sides keeps the disk from being written in its own format. -/
theorem encode_writeAll_three_sides : ∃ j,
    Disk.ofFile (some "A.MSA") packedSectors .unavailable = .ok packedDisk ∧
      (packedDisk.encode .msa).isOk = true ∧
      (InsertedDisk.ofDisk "A.MSA" packedDisk false).writeAll
        [(⟨0, 0, 1⟩, (Disk.twoSectors.take 512).set 26 3)] = .ok j ∧
      j.disk.data = Disk.twoSectors.set 26 3 ∧ j.disk.geometry.layout = ⟨3, 2⟩ ∧
      (j.disk.encode .msa).isOk = false := by
  have hw : (InsertedDisk.ofDisk "A.MSA" packedDisk false).writeAll
      [(⟨0, 0, 1⟩, (Disk.twoSectors.take 512).set 26 3)] =
      .ok { name := "A.MSA", isModified := true, geometry := ⟨1, 1, 2⟩, okToPersist := true,
            disk := { packedDisk with data := Disk.twoSectors.set 26 3 } } :=
    eq_ok_of_toOption (by decide +kernel)
  exact ⟨_, ofFile_packedSectors, by decide +kernel, hw, rfl, by decide +kernel, by decide +kernel⟩

end InsertedDisk

end Diskette
