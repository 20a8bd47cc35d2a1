import Diskette.DiskImage
import Diskette.Proofs.Disk.WholeTracks

/-!
# What the first sector decides

The geometry of a disk, the permission to keep its changes and whether it can be written in a format
depend on the length of its data and on its first sector only, not on what the other sectors hold.
-/

set_option autoImplicit false

namespace Diskette

variable {b b' : Bytes}

theorem BootSector.ofImage_of_length {image : Bytes} (h : sectorSize ≤ image.length) :
    ofImage image = .ok ⟨image.take sectorSize, .ofSector (image.take sectorSize)⟩ := by
  have hl : (image.take sectorSize).length = sectorSize := List.length_take_of_le h
  simp only [ofImage, Bytes.split?, hl, if_true]

theorem BootSector.ofImage_of_short {image : Bytes} (h : image.length < sectorSize) :
    ofImage image = .error (.decode .noBootSector) := by
  have hl : (image.take sectorSize).length ≠ sectorSize := by
    rw [List.length_take]
    omega
  simp only [ofImage, Bytes.split?, hl, if_false]

theorem BootSector.ofImage_congr (h : b'.take sectorSize = b.take sectorSize) :
    BootSector.ofImage b' = BootSector.ofImage b := by
  simp only [BootSector.ofImage, Bytes.split?, h]
  by_cases hl : (b.take sectorSize).length = sectorSize
  · simp only [hl, if_true]
  · simp only [hl, if_false]

theorem BootSector.imageIsTrustworthy_congr (h : b'.take sectorSize = b.take sectorSize) :
    BootSector.imageIsTrustworthy b' = BootSector.imageIsTrustworthy b := by
  simp only [BootSector.imageIsTrustworthy, BootSector.ofImage_congr h]

theorem Geometry.ofImage_congr (recorded : Option Layout) (hl : b'.length = b.length)
    (h : b'.take sectorSize = b.take sectorSize) :
    Geometry.ofImage b' recorded = Geometry.ofImage b recorded := by
  have ht : declaredTotal b' = declaredTotal b := by
    simp only [declaredTotal, BootSector.ofImage_congr h]
  have hd : declaredLayout b' recorded = declaredLayout b recorded := by
    unfold declaredLayout
    rw [BootSector.ofImage_congr h]
  unfold Geometry.ofImage
  rw [ht, hd, hl]

/-- Whether a sector image can be written depends on the length of its data, its layout and its
header. -/
theorem Format.isOk_save_congr (f : Format) {i j : SectorImage}
    (hd : j.data.length = i.data.length) (hl : j.layout = i.layout) (hh : j.header = i.header) :
    (f.save j).isOk = (f.save i).isOk := by
  cases f with
  | st =>
    simp only [Format.save, St.save, hd]
    split <;> rfl
  | msa =>
    simp only [Format.save, Msa.save, hd, hl]
    split
    · rfl
    · split
      · rfl
      · split <;> rfl
  | dim =>
    simp only [Format.save, Dim.save, hd, hl, hh]
    split
    · rfl
    · split
      · rfl
      · split
        · rfl
        · split <;> rfl
  | ipf => rfl
  | stx => rfl
  | zip => rfl

namespace Disk

variable {d : Disk}

theorem isOk_encode_iff {f : Format} :
    (d.encode f).isOk = true ↔
      f.isPlain = true ∧ d.isPopulated = true ∧ (f.save d.toSectorImage).isOk = true := by
  unfold encode
  rw [isOk_unless, isOk_unless]
  simp only [Bool.not_eq_true', Bool.not_eq_false]

theorem geometry_withData (hl : b.length = d.data.length)
    (h : b.take sectorSize = d.data.take sectorSize) :
    ({ d with data := b } : Disk).geometry = d.geometry :=
  Geometry.ofImage_congr d.recorded hl h

theorem canPersist_withData (h : b.take sectorSize = d.data.take sectorSize) :
    ({ d with data := b } : Disk).canPersist = d.canPersist := by
  have ht := BootSector.imageIsTrustworthy_congr h
  simp only [canPersist, bootSectorIsTrustworthy, ht]

theorem isPopulated_withData (hl : b.length = d.data.length) :
    ({ d with data := b } : Disk).isPopulated = d.isPopulated := by
  have he : b.isEmpty = d.data.isEmpty := by
    rw [Bool.eq_iff_iff, List.isEmpty_iff_length_eq_zero, List.isEmpty_iff_length_eq_zero, hl]
  simp only [isPopulated, he]

theorem isOk_encode_withData (f : Format) (hl : b.length = d.data.length)
    (h : b.take sectorSize = d.data.take sectorSize) :
    (({ d with data := b } : Disk).encode f).isOk = (d.encode f).isOk := by
  have hg := geometry_withData hl h
  have hs : (f.save ({ d with data := b } : Disk).toSectorImage).isOk =
      (f.save d.toSectorImage).isOk :=
    Format.isOk_save_congr f hl (congrArg Geometry.layout hg) rfl
  simp only [encode, isPopulated_withData hl]
  split
  · rfl
  · split
    · rfl
    · exact hs

def twoSectors : Bytes :=
  List.replicate 11 0 ++ [0x00, 0x02, 0x01] ++ List.replicate 5 0 ++ [2, 0] ++
    List.replicate 3 0 ++ [2, 0, 1, 0] ++ List.replicate 996 0

end Disk

end Diskette
