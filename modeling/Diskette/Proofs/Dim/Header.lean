import Diskette.Dim
import Diskette.Proofs.Disk.WholeTracks

/-!
# DIM files are read back

The header that goes before the sectors is a supported one and holds the layout of the image,
whatever header it was made of. Setting the geometry a second time changes nothing, so an image that
is read back and written again gives the same file.
-/

set_option autoImplicit false

namespace Diskette

theorem Bytes.overwrite_singleton {b : Bytes} {offset : Nat} (h : offset < b.length) (x : UInt8) :
    overwrite b offset [x] = b.set offset x := by
  rw [List.set_eq_take_append_cons_drop, if_pos h]
  rfl

namespace Dim

theorem fieldAt_eq (header : Bytes) (offset : Nat) :
    fieldAt header offset = (header[offset]?).getD 0 := by
  rw [fieldAt, List.headD_eq_head?_getD, List.head?_drop]

theorem fieldAt_set (header : Bytes) {offset : Nat} (h : offset < header.length) (x : UInt8)
    (k : Nat) :
    fieldAt (header.set offset x) k = if offset = k then x else fieldAt header k := by
  rw [fieldAt_eq, fieldAt_eq, List.getElem?_set, if_pos h]
  split <;> rfl

structure Supported (header : Bytes) : Prop where
  length_eq : header.length = headerSize
  isSupported : isSupported header = true

theorem supported_blankHeader : Supported blankHeader := by
  constructor <;> decide

variable {header : Bytes} {l : Layout} {tracks : Nat}

theorem setGeometry_eq (h : header.length = headerSize) (l : Layout) (tracks : Nat) :
    setGeometry header l tracks =
      (((header.set lastSideAt (UInt8.ofNat (l.sides.toNat - 1))).set sectorsPerTrackAt
        (UInt8.ofNat l.sectorsPerTrack.toNat)).set startTrackAt 0).set endTrackAt
          (UInt8.ofNat (tracks - 1)) := by
  have hset (offset : Nat) (b : Bytes) (x : UInt8) (hb : b.length = headerSize)
      (ho : offset < headerSize) : Bytes.overwrite b offset [x] = b.set offset x :=
    Bytes.overwrite_singleton (hb ▸ ho) x
  unfold setGeometry
  dsimp only
  -- The innermost one first: only then is the length of the next one known.
  rw [hset lastSideAt, hset sectorsPerTrackAt, hset startTrackAt, hset endTrackAt]
  · rfl
  all_goals first | decide | simp only [List.length_set, h]

theorem length_setGeometry (h : header.length = headerSize) (l : Layout) (tracks : Nat) :
    (setGeometry header l tracks).length = headerSize := by
  rw [setGeometry_eq h]
  simp only [List.length_set, h]

theorem fieldAt_setGeometry (h : header.length = headerSize) (l : Layout) (tracks k : Nat) :
    fieldAt (setGeometry header l tracks) k =
      if endTrackAt = k then UInt8.ofNat (tracks - 1)
      else if startTrackAt = k then 0
      else if sectorsPerTrackAt = k then UInt8.ofNat l.sectorsPerTrack.toNat
      else if lastSideAt = k then UInt8.ofNat (l.sides.toNat - 1)
      else fieldAt header k := by
  rw [setGeometry_eq h, fieldAt_set, fieldAt_set, fieldAt_set, fieldAt_set]
  all_goals simp only [List.length_set, h]; decide

theorem eq_of_fieldAt {a b : Bytes} (ha : a.length = headerSize) (hb : b.length = headerSize)
    (h : ∀ k, fieldAt a k = fieldAt b k) : a = b := by
  apply List.ext_getElem (ha.trans hb.symm)
  intro k hka hkb
  have hk := h k
  rwa [fieldAt_eq, fieldAt_eq, List.getElem?_eq_getElem hka, List.getElem?_eq_getElem hkb] at hk

theorem setGeometry_setGeometry (h : header.length = headerSize) (l : Layout) (tracks : Nat) :
    setGeometry (setGeometry header l tracks) l tracks = setGeometry header l tracks := by
  have hl := length_setGeometry h l tracks
  apply eq_of_fieldAt (length_setGeometry hl l tracks) hl
  intro k
  rw [fieldAt_setGeometry hl, fieldAt_setGeometry h]
  split
  · rfl
  · split
    · rfl
    · split
      · rfl
      · split <;> rfl

theorem Supported.setGeometry (h : Supported header) (l : Layout) (tracks : Nat) :
    Supported (setGeometry header l tracks) := by
  have hs := h.isSupported
  have htake : (Dim.setGeometry header l tracks).take 2 = header.take 2 := by
    rw [setGeometry_eq h.length_eq]
    rw [List.take_set_of_le (by decide), List.take_set_of_le (by decide),
      List.take_set_of_le (by decide), List.take_set_of_le (by decide)]
  constructor
  · exact length_setGeometry h.length_eq l tracks
  · simp only [Dim.isSupported, Bool.and_eq_true] at hs ⊢
    rw [htake, fieldAt_setGeometry h.length_eq, fieldAt_setGeometry h.length_eq]
    exact ⟨⟨hs.1.1, hs.1.2⟩, rfl⟩

section

variable {i : SectorImage} {tracks : Nat}

theorem headerLayout_setGeometry (h : header.length = headerSize) (hw : i.Whole 255 256 tracks) :
    headerLayout (setGeometry header i.layout tracks) = i.layout := by
  have hsides : (UInt8.ofNat (i.layout.sides.toNat - 1)).toUInt16 + 1 = i.layout.sides := by
    have hle := hw.sides_le
    have hpos := hw.sides_pos
    have h1 : (1 : UInt16).toNat = 1 := rfl
    apply UInt16.toNat_inj.mp
    rw [UInt16.toNat_add, UInt8.toNat_toUInt16, UInt8.toNat_ofNat']
    omega
  have hsectors : (UInt8.ofNat i.layout.sectorsPerTrack.toNat).toUInt16 =
      i.layout.sectorsPerTrack := by
    have hle := hw.sectors_le
    apply UInt16.toNat_inj.mp
    rw [UInt8.toNat_toUInt16, UInt8.toNat_ofNat']
    omega
  rw [headerLayout, fieldAt_setGeometry h, fieldAt_setGeometry h]
  exact congr (congrArg Layout.mk hsides) hsectors

/-- What is written is the header of the image, or a blank one, with the geometry set. Any other
header of the right length would do as well. -/
theorem save_eq_ok {b : Bytes} (h : save i = .ok b)
    (hh : ∀ x, i.header = some x → Supported x) :
    ∃ tracks header, i.Whole 255 256 tracks ∧ Supported header ∧
      b = setGeometry header i.layout tracks ++ i.data ∧
      ∀ x, x.length = headerSize →
        save { i with header := some x } = .ok (setGeometry x i.layout tracks ++ i.data) := by
  have hs : Supported (i.header.getD blankHeader) := by
    cases hi : i.header with
    | none => exact supported_blankHeader
    | some x => exact hh x hi
  unfold save at h ⊢
  dsimp only at h ⊢
  split at h
  · cases h
  · rename_i hl
    split at h
    · cases h
    · rename_i hw
      split at h
      · cases h
      · rename_i ht
        have hsplit (x : Bytes) (hx : x.length = headerSize) :
            Bytes.split? headerSize x = some (x, []) :=
          Bytes.split?_eq_some_iff.mpr ⟨(List.append_nil x).symm, hx⟩
        rw [hsplit _ hs.length_eq] at h
        cases h
        refine ⟨_, _, SectorImage.whole_of_checks hl hw ht, hs, rfl, ?_⟩
        intro x hx
        rw [if_neg hl, if_neg hw, if_neg ht]
        simp only [Option.getD_some, hsplit x hx]

theorem isOk_save_iff (hh : ∀ x, i.header = some x → Supported x) :
    (save i).isOk = true ↔ ∃ tracks, i.Whole 255 256 tracks := by
  have hlength : (i.header.getD blankHeader).length = headerSize := by
    cases hi : i.header with
    | none => exact supported_blankHeader.length_eq
    | some x => exact (hh x hi).length_eq
  have hsplit : Bytes.split? headerSize (i.header.getD blankHeader) =
      some (i.header.getD blankHeader, []) :=
    Bytes.split?_eq_some_iff.mpr ⟨(List.append_nil _).symm, hlength⟩
  unfold save
  dsimp only
  rw [isOk_unless, isOk_unless, isOk_unless, hsplit, SectorImage.exists_whole_iff]
  exact ⟨fun h => ⟨h.1, h.2.1, h.2.2.1⟩, fun h => ⟨h.1, h.2.1, h.2.2, rfl⟩⟩

theorem load_save {b : Bytes} (h : save i = .ok b) (hh : ∀ x, i.header = some x → Supported x) :
    ∃ header, load b = .ok { data := i.data, layout := i.layout, header := some header } ∧
      save { i with header := some header } = .ok b := by
  obtain ⟨tracks, header, hw, hs, rfl, hsave⟩ := save_eq_ok h hh
  have hl := length_setGeometry hs.length_eq i.layout tracks
  have hsupported := (hs.setGeometry i.layout tracks).isSupported
  have hlayout := headerLayout_setGeometry hs.length_eq hw
  have hdata : ¬(i.data.length = 0 ∨ i.data.length % sectorSize ≠ 0) := by
    have hpos := hw.length_pos
    have hmod := hw.length_mod
    omega
  have hfile : ¬maxImageSize < (setGeometry header i.layout tracks ++ i.data).length := by
    have hle := hw.length_le
    rw [List.length_append, hl]
    simp only [headerSize, maxImageSize, sectorSize] at hle ⊢
    omega
  have hsplit := Bytes.split?_append (setGeometry header i.layout tracks) i.data
  rw [hl] at hsplit
  refine ⟨setGeometry header i.layout tracks, ?_, ?_⟩
  · rw [load, if_neg hfile, hsplit]
    dsimp only
    rw [hsupported, if_neg (by decide), if_neg hdata, hlayout]
  · rw [hsave _ hl, setGeometry_setGeometry hs.length_eq]

end

end Dim

end Diskette
