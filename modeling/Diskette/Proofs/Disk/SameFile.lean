import Diskette.Proofs.Disk.WriteBack
import Diskette.Zip.Reader

/-!
# Files that are written back byte for byte

Bare sectors are the file itself, whatever their boot sector declares. A DIM file has its own header
put before its sectors again, with the layout that is presented and the number of tracks set in it. So
only three bytes can differ, and they do unless the header says of the disk what is presented.
-/

set_option autoImplicit false

namespace Diskette

namespace Dim

variable {header : Bytes} {l : Layout} {tracks : Nat}

theorem fieldAt_append (data : Bytes) (hl : header.length = headerSize) {k : Nat}
    (hk : k < headerSize) : fieldAt (header ++ data) k = fieldAt header k := by
  rw [fieldAt_eq, fieldAt_eq, List.getElem?_append_left (by omega)]

theorem getElem?_eq_of_fieldAt {a b : Bytes} (ha : a.length = headerSize)
    (hb : b.length = headerSize) {k : Nat} (h : fieldAt a k = fieldAt b k) : a[k]? = b[k]? := by
  by_cases hk : k < headerSize
  · have hka : k < a.length := by omega
    have hkb : k < b.length := by omega
    simp only [fieldAt_eq, List.getElem?_eq_getElem hka, List.getElem?_eq_getElem hkb,
      Option.getD_some] at h ⊢
    rw [h]
  · rw [List.getElem?_eq_none (by omega), List.getElem?_eq_none (by omega)]

theorem Supported.startTrack (h : Supported header) : fieldAt header startTrackAt = 0 := by
  have hs := h.isSupported
  simp only [Dim.isSupported, Bool.and_eq_true, beq_iff_eq] at hs
  exact hs.2

theorem fieldAt_setGeometry_of_ne (h : Supported header) (l : Layout) (tracks : Nat) {k : Nat}
    (hside : k ≠ lastSideAt) (hsectors : k ≠ sectorsPerTrackAt) (hend : k ≠ endTrackAt) :
    fieldAt (setGeometry header l tracks) k = fieldAt header k := by
  rw [fieldAt_setGeometry h.length_eq, if_neg hend.symm, if_neg hsectors.symm, if_neg hside.symm]
  split
  · rename_i hstart
    rw [← hstart, h.startTrack]
  · rfl

theorem getElem?_setGeometry_append (h : Supported header) (l : Layout) (tracks : Nat) (data : Bytes)
    {k : Nat} (hside : k ≠ lastSideAt) (hsectors : k ≠ sectorsPerTrackAt) (hend : k ≠ endTrackAt) :
    (setGeometry header l tracks ++ data)[k]? = (header ++ data)[k]? := by
  have hl := length_setGeometry h.length_eq l tracks
  rw [List.getElem?_append, List.getElem?_append, hl, h.length_eq]
  split
  · exact getElem?_eq_of_fieldAt hl h.length_eq
      (fieldAt_setGeometry_of_ne h l tracks hside hsectors hend)
  · rfl

theorem setGeometry_eq_self_iff (h : Supported header) :
    setGeometry header l tracks = header ↔
      fieldAt header lastSideAt = UInt8.ofNat (l.sides.toNat - 1) ∧
      fieldAt header sectorsPerTrackAt = UInt8.ofNat l.sectorsPerTrack.toNat ∧
      fieldAt header endTrackAt = UInt8.ofNat (tracks - 1) := by
  have hfield := fieldAt_setGeometry h.length_eq l tracks
  constructor
  · intro he
    rw [he] at hfield
    exact ⟨hfield lastSideAt, hfield sectorsPerTrackAt, hfield endTrackAt⟩
  · rintro ⟨hside, hsectors, hend⟩
    apply eq_of_fieldAt (length_setGeometry h.length_eq l tracks) h.length_eq
    intro k
    by_cases h6 : k = lastSideAt
    · subst h6
      exact (hfield _).trans hside.symm
    by_cases h8 : k = sectorsPerTrackAt
    · subst h8
      exact (hfield _).trans hsectors.symm
    by_cases h12 : k = endTrackAt
    · subst h12
      exact (hfield _).trans hend.symm
    exact fieldAt_setGeometry_of_ne h l tracks h6 h8 h12

theorem eq_ofNat_iff {x : UInt8} {n : Nat} (h : n < 256) : x = UInt8.ofNat n ↔ x.toNat = n := by
  rw [← UInt8.toNat_inj, UInt8.toNat_ofNat']
  omega

variable {i : SectorImage} {b : Bytes}

theorem save_eq_ok_iff (hi : i.header = some header) (hs : Supported header) :
    save i = .ok b ↔
      ∃ tracks, i.Whole 255 256 tracks ∧ b = setGeometry header i.layout tracks ++ i.data := by
  have hh : ∀ x, i.header = some x → Supported x := by
    intro x hx
    rw [hi] at hx
    cases hx
    exact hs
  have hsame : { i with header := some header } = i := by rw [← hi]
  have hform {b : Bytes} (h : save i = .ok b) :
      ∃ tracks, i.Whole 255 256 tracks ∧ b = setGeometry header i.layout tracks ++ i.data := by
    obtain ⟨tracks, -, hw, -, -, hsave⟩ := save_eq_ok h hh
    have hown := hsave header hs.length_eq
    rw [hsame, h] at hown
    cases hown
    exact ⟨tracks, hw, rfl⟩
  constructor
  · exact hform
  · rintro ⟨tracks, hw, rfl⟩
    obtain ⟨c, hc⟩ := exists_of_isOk ((isOk_save_iff hh).mpr ⟨tracks, hw⟩)
    obtain ⟨tracks', hw', rfl⟩ := hform hc
    rw [hc, hw.tracks_eq, hw'.tracks_eq]

/-- The header says of the image what is set in it when the image is written. -/
theorem save_eq_file_iff (hi : i.header = some header) (hs : Supported header)
    (hd : i.data ≠ []) :
    save i = .ok (header ++ i.data) ↔
      i.layout.sides.toNat = (fieldAt header lastSideAt).toNat + 1 ∧ i.layout.sides.toNat ≤ 2 ∧
      i.layout.sectorsPerTrack.toNat = (fieldAt header sectorsPerTrackAt).toNat ∧
      i.layout.sectorsPerTrack.toNat ≠ 0 ∧
      ∃ cylinders ≤ 256, i.data.length =
          cylinders * (i.layout.sides.toNat * i.layout.sectorsPerTrack.toNat * sectorSize) ∧
        (fieldAt header endTrackAt).toNat = cylinders - 1 := by
  have hsize : i.layout.sides.toNat * i.layout.sectorsPerTrack.toNat * sectorSize =
      i.layout.sectorsPerTrack.toNat * sectorSize * i.layout.sides.toNat := by
    rw [Nat.mul_assoc, Nat.mul_comm]
  rw [save_eq_ok_iff hi hs, hsize]
  constructor
  · rintro ⟨tracks, hw, hb⟩
    have hsides_pos := hw.sides_pos
    have hsides_le := hw.sides_le
    have hsectors_pos := hw.sectors_pos
    have hsectors_le := hw.sectors_le
    have htracks_le := hw.tracks_le
    obtain ⟨hside, hsectors, hend⟩ :=
      (setGeometry_eq_self_iff hs).mp (List.append_cancel_right hb).symm
    rw [eq_ofNat_iff (by omega)] at hside hsectors hend
    exact ⟨by omega, hsides_le, hsectors.symm, by omega, tracks, htracks_le, hw.length_eq, hend⟩
  · rintro ⟨hside, hsides_le, hsectors, hsectors_ne, tracks, htracks_le, hlength, hend⟩
    have hbyte := (fieldAt header sectorsPerTrackAt).toNat_lt
    have hpos : 0 < tracks := by
      apply Nat.pos_of_ne_zero
      intro h0
      rw [h0, Nat.zero_mul] at hlength
      exact hd (List.length_eq_zero_iff.mp hlength)
    refine ⟨tracks, ?_, ?_⟩
    · exact ⟨by omega, hsides_le, by omega, by omega, hpos, htracks_le, hlength⟩
    · rw [(setGeometry_eq_self_iff hs).mpr]
      rw [eq_ofNat_iff (by omega), eq_ofNat_iff (by omega), eq_ofNat_iff (by omega)]
      omega

end Dim

namespace Disk

variable {d : Disk} {name : Option String} {file : Bytes} {codec : Codec}

theorem load_of_ofFile [Zip.Library] (h : ofFile name file codec = .ok d)
    (ha : d.isArchived = false) (hp : d.format.isPlain = true) :
    ∃ i, d.format.load file = .ok i ∧ d = ofSectorImage d.format i := by
  obtain ⟨source, -, h⟩ := bind_eq_ok h
  obtain ⟨content, hc, h⟩ := bind_eq_ok h
  obtain ⟨e, he, h⟩ := bind_eq_ok h
  cases source with
  | entry f entryName =>
    cases h
    cases ha
  | file f =>
    cases h
    cases hc
    have he : ofFormat f file codec = .ok e := he
    have hkind : f.kind = .plainSector := format_of_ofFormat he ▸ beq_iff_eq.mp hp
    rw [ofFormat, hkind] at he
    obtain ⟨i, hi, he⟩ := bind_eq_ok he
    cases he
    refine ⟨i, hi, ?_⟩
    rw [ofSectorImage, hkind]
    rfl

theorem encode_st_of_load {i : SectorImage} (h : St.load file = .ok i) :
    (ofSectorImage .st i).encode .st = .ok file := by
  obtain ⟨hl, hmod, -, rfl⟩ := St.load_eq_ok h
  have hpos : 0 < file.length := Nat.lt_of_lt_of_le (by decide) hl
  apply encode_of_save rfl rfl
  · exact List.ne_nil_of_length_pos hpos
  · have hw : ¬(file.length = 0 ∨ file.length % sectorSize ≠ 0) := by omega
    exact if_neg hw

theorem header_of_load {i : SectorImage} (h : Dim.load file = .ok i) :
    ∃ header, Dim.Supported header ∧ file = header ++ i.data ∧
      (ofSectorImage .dim i).header = some header ∧ i.data ≠ [] := by
  obtain ⟨header, data, rfl, hl, hs, ⟨hne, -⟩, -, rfl⟩ := Dim.load_eq_ok h
  exact ⟨header, ⟨hl, hs⟩, rfl, rfl, hne⟩

theorem encode_eq_ok_iff {f : Format} {b : Bytes} (hf : f.isPlain = true) (hk : d.kind = f.kind)
    (hd : d.data ≠ []) : d.encode f = .ok b ↔ f.save d.toSectorImage = .ok b :=
  ⟨fun h => (encode_eq_ok h).2.2, encode_of_save hf hk hd⟩

end Disk

namespace DiskImage

/-- A disk that was read from a file itself, not out of an archive. Bare sectors are written as the
same file. A DIM file is written with the same length and the same bytes, except for three of its
header, and as the same file just if the header has the sides and sectors per track that are
presented and the number of tracks that they divide the sectors into. -/
theorem encode_ofFile_same [Zip.Library] {name : Option String} {file : Bytes} {codec : Codec}
    {image : DiskImage} {d : Disk} (h : ofFile name file codec = .ok image)
    (hd : image.disk = some d) (ha : d.isArchived = false) :
    (d.format = .st → image.encode .st = .ok file) ∧
    (d.format = .dim →
      (∀ b, image.encode .dim = .ok b →
        b.length = file.length ∧ ∀ k, k ≠ 6 → k ≠ 8 → k ≠ 12 → b[k]? = file[k]?) ∧
      (image.encode .dim = .ok file ↔
        image.geometry.sides.toNat = (Dim.fieldAt file 6).toNat + 1 ∧
        image.geometry.sides.toNat ≤ 2 ∧
        image.geometry.sectorsPerTrack.toNat = (Dim.fieldAt file 8).toNat ∧
        image.geometry.sectorsPerTrack.toNat ≠ 0 ∧
        ∃ cylinders ≤ 256, image.data.length = cylinders *
            (image.geometry.sides.toNat * image.geometry.sectorsPerTrack.toNat * sectorSize) ∧
          (Dim.fieldAt file 12).toNat = cylinders - 1)) := by
  obtain ⟨e, he, hfile⟩ := ofFile_eq_ok h
  rw [he] at hd
  cases hd
  have hencode (f : Format) : image.encode f = d.encode f := by rw [encode, he]
  have hgeometry : image.geometry = d.geometry := by rw [geometry, he]; rfl
  have hdata : image.data = d.data := by rw [data, he]; rfl
  rw [hencode, hencode, hgeometry, hdata]
  constructor
  · intro hf
    obtain ⟨i, hi, hdisk⟩ := Disk.load_of_ofFile hfile ha (by rw [hf]; rfl)
    rw [hf] at hi hdisk
    rw [hdisk]
    exact Disk.encode_st_of_load hi
  · intro hf
    obtain ⟨i, hi, hdisk⟩ := Disk.load_of_ofFile hfile ha (by rw [hf]; rfl)
    rw [hf] at hi hdisk
    obtain ⟨header, hs, rfl, hheader, hne⟩ := Disk.header_of_load hi
    rw [← hdisk] at hheader
    have hi : i.data = d.data := by rw [hdisk]; rfl
    rw [hi] at hne ⊢
    have hiff {b : Bytes} : d.encode .dim = .ok b ↔ Dim.save d.toSectorImage = .ok b :=
      Disk.encode_eq_ok_iff rfl (Disk.kind_of_ofFile hfile ▸ congrArg Format.kind hf) hne
    have hfield {k : Nat} (hk : k < Dim.headerSize) :
        Dim.fieldAt (header ++ d.data) k = Dim.fieldAt header k :=
      Dim.fieldAt_append d.data hs.length_eq hk
    constructor
    · intro b hb
      obtain ⟨tracks, -, rfl⟩ := (Dim.save_eq_ok_iff hheader hs).mp (hiff.mp hb)
      constructor
      · have hl := Dim.length_setGeometry hs.length_eq d.toSectorImage.layout tracks
        rw [List.length_append, List.length_append, hl, hs.length_eq]
        rfl
      · intro k h6 h8 h12
        exact Dim.getElem?_setGeometry_append hs _ tracks d.data h6 h8 h12
    · rw [hiff, hfield (by decide), hfield (by decide), hfield (by decide)]
      exact Dim.save_eq_file_iff hheader hs hne

def headedSectors : Bytes :=
  [0x42, 0x42, 7, 0, 1, 2, 0, 3, 2, 4, 0, 5, 0, 6] ++ List.replicate 18 9 ++ Disk.twoSectors

open scoped Zip.Reader in
/-- Reserved bytes survive, and so does a boot sector that declares three sides. -/
theorem encode_ofFile_same_reserved : ∃ image bare,
    ofFile none headedSectors .unavailable = .ok image ∧ image.encode .dim = .ok headedSectors ∧
      ofFile (some "A.ST") (Disk.twoSectors.set 26 3) .unavailable = .ok bare ∧
      bare.encode .st = .ok (Disk.twoSectors.set 26 3) := by
  have h : ofFile none headedSectors .unavailable =
      .ok ⟨"", some ⟨.dim, .plainSector, Disk.twoSectors, false, some ⟨1, 2⟩,
        some (headedSectors.take 32)⟩, false⟩ :=
    eq_ok_of_toOption (by decide +kernel)
  have hbare : ofFile (some "A.ST") (Disk.twoSectors.set 26 3) .unavailable =
      .ok ⟨"A.ST", some ⟨.st, .plainSector, Disk.twoSectors.set 26 3, false, none, none⟩, false⟩ :=
    eq_ok_of_toOption (by decide +kernel)
  obtain ⟨-, hiff⟩ := (encode_ofFile_same h rfl rfl).2 rfl
  obtain ⟨hst, -⟩ := encode_ofFile_same hbare rfl rfl
  refine ⟨_, _, h, hiff.mpr ?_, hbare, hst rfl⟩
  exact ⟨by decide +kernel, by decide +kernel, by decide +kernel, by decide +kernel, 1, by decide,
    by decide +kernel, by decide⟩

end DiskImage

end Diskette
