import Diskette.Proofs.Disk.FirstSector
import Diskette.Proofs.Msa.Tracks
import Diskette.Zip.Reader

/-!
# Writing back loses nothing

A plain image that can be written in a format, its own or another one, is read back with the same
data, and written again it gives the same file. A format that records the layout brings the geometry
back as well: what the drive presented goes into the header, and the boot sector, the header and the
table of sizes settle on it again.
-/

set_option autoImplicit false

namespace Diskette

theorem Layout.infer_infer (length : Nat) (l : Layout) :
    infer length (infer length l) = infer length l := by
  unfold infer
  split <;> rfl

namespace Geometry

theorem declaredLayout_some (image : Bytes) (l : Layout) :
    declaredLayout image (some l) =
      if (declaredLayout image none).isUsable then declaredLayout image none else l := rfl

theorem declaredLayout_cases (image : Bytes) :
    (∀ recorded, declaredLayout image recorded = declaredLayout image none) ∨
      ∀ l, declaredLayout image (some l) = l := by
  cases hu : (declaredLayout image none).isUsable with
  | true =>
    left
    intro recorded
    cases recorded with
    | none => rfl
    | some l => rw [declaredLayout_some, hu, if_pos rfl]
  | false =>
    right
    intro l
    rw [declaredLayout_some, hu, if_neg Bool.false_ne_true]

/-- The layout that is presented can be recorded for the image without changing what it presents. -/
theorem ofImage_layout (image : Bytes) (recorded : Option Layout) :
    ofImage image (some (ofImage image recorded).layout) = ofImage image recorded := by
  rcases declaredLayout_cases image with h | h
  · unfold ofImage
    rw [h (some _), h recorded]
  · unfold ofImage
    rw [h]
    by_cases ht : declaredTotal image = image.length / sectorSize
    · simp only [ht, if_true, layout_ofLength]
    · simp only [ht, if_false, layout_ofLength, Layout.infer_infer]

end Geometry

theorem St.load_save {i : SectorImage} {b : Bytes} (hm : i.data.length ≤ maxImageSize)
    (h : St.save i = .ok b) : St.load b = .ok { data := i.data } ∧ b = i.data := by
  unfold save at h
  dsimp only at h
  split at h
  · cases h
  · rename_i hw
    cases h
    have hsmall : ¬i.data.length < sectorSize := by
      simp only [sectorSize] at hw ⊢
      omega
    have hmod : ¬i.data.length % sectorSize ≠ 0 := fun h => hw (.inr h)
    constructor
    · rw [load, if_neg hsmall, if_neg hmod, if_neg (Nat.not_lt_of_le hm)]
    · rfl

namespace Disk

variable {f : Format} {b : Bytes}

def ofSectorImage (f : Format) (i : SectorImage) : Disk where
  format := f
  kind := f.kind
  data := i.data
  recorded := i.recorded?
  header := i.header

theorem ofFormat_of_load {i : SectorImage} (hf : f.isPlain = true) (h : f.load b = .ok i)
    (codec : Codec) : ofFormat f b codec = .ok (ofSectorImage f i) := by
  have hk : f.kind = .plainSector := beq_iff_eq.mp hf
  rw [ofFormat, hk, h, ofSectorImage, hk]
  rfl

theorem encode_eq_ok {d : Disk} (h : d.encode f = .ok b) :
    f.isPlain = true ∧ d.data ≠ [] ∧ f.save d.toSectorImage = .ok b := by
  unfold encode at h
  split at h
  · cases h
  · rename_i hf
    split at h
    · cases h
    · rename_i hp
      refine ⟨by simpa using hf, ?_, h⟩
      intro h0
      simp [isPopulated, h0] at hp

theorem encode_of_save {d : Disk} (hf : f.isPlain = true) (hk : d.kind = f.kind) (hd : d.data ≠ [])
    (h : f.save d.toSectorImage = .ok b) : d.encode f = .ok b := by
  have hkind : f.kind = .plainSector := beq_iff_eq.mp hf
  have hp : d.isPopulated = true := by simp [isPopulated, hk, hkind, hd]
  rw [encode, hf, hp]
  exact h

theorem geometry_ofSectorImage {d : Disk} {i : SectorImage} (hd : i.data = d.data)
    (hl : i.layout = d.geometry.layout) (hu : i.layout.isUsable = true) :
    (ofSectorImage f i).geometry = d.geometry := by
  have hr : i.recorded? = some d.geometry.layout := by
    rw [SectorImage.recorded?, Layout.usable?, if_pos hu, hl]
  have hg : (ofSectorImage f i).geometry = .ofImage d.data (some d.geometry.layout) := by
    rw [geometry, ofSectorImage, hr, hd]
  rw [hg]
  exact Geometry.ofImage_layout d.data d.recorded

theorem encode_ofSectorImage {d : Disk} {i : SectorImage} (hf : f.isPlain = true)
    (hd : d.data ≠ []) (hdata : i.data = d.data) (hl : i.layout = d.geometry.layout)
    (hu : i.layout.isUsable = true) (hs : f.save i = .ok b) :
    (ofSectorImage f i).encode f = .ok b ∧ (ofSectorImage f i).geometry = d.geometry := by
  have hg : (ofSectorImage f i).geometry = d.geometry := geometry_ofSectorImage hdata hl hu
  have hi : (ofSectorImage f i).toSectorImage = i := by
    rw [toSectorImage, hg, ← hl]
    rfl
  constructor
  · apply encode_of_save hf rfl
    · rw [← hdata] at hd
      exact hd
    · rw [hi]
      exact hs
  · exact hg

/-- A disk that is written in a plain format and read again. -/
theorem ofFormat_encode {d : Disk} (hm : d.data.length ≤ maxImageSize)
    (hh : ∀ x, d.header = some x → Dim.Supported x) (hb : d.encode f = .ok b) (codec : Codec) :
    ∃ i, ofFormat f b codec = .ok (ofSectorImage f i) ∧ i.data = d.data ∧
      (ofSectorImage f i).encode f = .ok b ∧
      (f ≠ .st → (ofSectorImage f i).geometry = d.geometry) := by
  obtain ⟨hf, hd, hs⟩ := encode_eq_ok hb
  cases f with
  | st =>
    obtain ⟨hl, rfl⟩ := St.load_save hm hs
    refine ⟨_, ofFormat_of_load hf hl codec, rfl, ?_, fun h => absurd rfl h⟩
    apply encode_of_save hf rfl
    · exact hd
    · exact hs
  | msa =>
    have hl := Msa.load_save hs
    obtain ⟨tracks, hw, -⟩ := Msa.save_eq_ok hs
    obtain ⟨he, hg⟩ := encode_ofSectorImage hf hd rfl rfl hw.isUsable hs
    exact ⟨_, ofFormat_of_load hf hl codec, rfl, he, fun _ => hg⟩
  | dim =>
    obtain ⟨header, hl, hsave⟩ := Dim.load_save hs hh
    obtain ⟨tracks, -, hw, -⟩ := Dim.save_eq_ok hs hh
    obtain ⟨he, hg⟩ := encode_ofSectorImage (i := { d.toSectorImage with header := some header })
      hf hd rfl rfl hw.isUsable hsave
    exact ⟨_, ofFormat_of_load hf hl codec, rfl, he, fun _ => hg⟩
  | ipf | stx | zip => cases hs

end Disk

theorem Disk.ofFile_of_file [Zip.Library] {path : Option String} {f : Format} {file : Bytes}
    (h : Source.ofFile path file = .ok (.file f)) (codec : Codec) :
    ofFile path file codec =
      (ofFormat f file codec >>= fun d => .ok { d with isArchived := false }) := by
  rw [ofFile, h]
  rfl

theorem Disk.ofFile_of_ofName? [Zip.Library] {path : String} {f : Format}
    (hn : Format.ofName? path = some f) (hf : f.isPlain = true) (file : Bytes) (codec : Codec) :
    ofFile (some path) file codec =
      (ofFormat f file codec >>= fun d => .ok { d with isArchived := false }) := by
  apply ofFile_of_file
  rw [Source.ofFile, Option.bind_some, hn]
  cases f <;> first | rfl | cases hf

namespace DiskImage

theorem ofFile_of_ofFormat [Zip.Library] {path : String} {f : Format} {b : Bytes} {codec : Codec}
    {d : Disk} (hn : Format.ofName? path = some f) (hf : f.isPlain = true)
    (ha : d.isArchived = false) (h : Disk.ofFormat f b codec = .ok d) :
    ofFile (some path) b codec = .ok { name := FileName.base path, disk := some d } := by
  have hd : Disk.ofFile (some path) b codec = .ok d := by
    rw [Disk.ofFile_of_ofName? hn hf, h, ← ha]
    rfl
  rw [ofFile, hd]
  rfl

/-- A plain image that can be written in a format is loaded again from what was written, under any
name with an extension of the format. It has the same data, and is written as the same file. If the
format records the layout, it presents the same geometry too. -/
theorem ofFile_encode [Zip.Library] {name : Option String} {file : Bytes} {codec : Codec}
    {image : DiskImage} (h : ofFile name file codec = .ok image) (hk : image.kind = .plainSector)
    {f : Format} {b : Bytes} (hb : image.encode f = .ok b) (codec' : Codec) :
    ∃ d, Disk.ofFormat f b codec' = .ok d ∧
      (∀ path, Format.ofName? path = some f →
        ofFile (some path) b codec' = .ok { name := FileName.base path, disk := some d }) ∧
      d.data = image.data ∧ d.encode f = .ok b ∧
      (f ≠ .st → d.geometry = image.geometry) := by
  obtain ⟨d, hd, hf⟩ := ofFile_eq_ok h
  obtain ⟨hm, hh⟩ := Disk.ofFile_eq_ok hf
  rw [kind, hd] at hk
  rw [encode, hd] at hb
  obtain ⟨i, hl, hdata, he, hg⟩ := Disk.ofFormat_encode (hm hk) hh hb codec'
  refine ⟨_, hl, ?_, ?_, he, ?_⟩
  · intro path hn
    exact ofFile_of_ofFormat hn (Disk.encode_eq_ok hb).1 rfl hl
  · rw [data, hd]
    exact hdata
  · rw [geometry, hd]
    exact hg

open scoped Zip.Reader in
/-- Bare sectors written as a DIM file, whose header is made up. -/
theorem ofFile_encode_twoSectors : ∃ image b d,
    ofFile none Disk.twoSectors .unavailable = .ok image ∧ image.encode .dim = .ok b ∧
      Disk.ofFormat .dim b .unavailable = .ok d ∧ d.data = Disk.twoSectors ∧
      d.geometry = ⟨1, 1, 2⟩ := by
  have h : ofFile none Disk.twoSectors .unavailable =
      .ok ⟨"", some ⟨.st, .plainSector, Disk.twoSectors, false, none, none⟩, false⟩ :=
    eq_ok_of_toOption (by decide +kernel)
  have hb : encode ⟨"", some ⟨.st, .plainSector, Disk.twoSectors, false, none, none⟩, false⟩ .dim =
      .ok (Dim.setGeometry Dim.blankHeader ⟨1, 2⟩ 1 ++ Disk.twoSectors) :=
    eq_ok_of_toOption (by decide +kernel)
  have hg : geometry ⟨"", some ⟨.st, .plainSector, Disk.twoSectors, false, none, none⟩, false⟩ =
      ⟨1, 1, 2⟩ := by
    decide +kernel
  obtain ⟨d, hd, -, hdata, -, hgeometry⟩ := ofFile_encode h rfl hb .unavailable
  exact ⟨_, _, d, h, hb, hd, hdata, (hgeometry (by decide)).trans hg⟩

end DiskImage

end Diskette
